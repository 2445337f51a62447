import ServingLifecycle.Proofs.Backend.Calls
import ServingLifecycle.Proofs.Slot.Running
/-!
# The stock of a slot

What the backend keeps for a slot, by id, as far as the replies to an operation tell. The entries of the slot
record the stock more or less faithfully: after crashes only the ids can be relied on, and while calls may hang
only what is said to run.
-/
namespace ServingLifecycle

/-- Services by their ids. -/
abbrev Stock : Type := Uuid → Option Service

/-- How far one description of a service can be relied on for another. -/
inductive Fidelity
  /-- there is a service with the id -/
  | known
  /-- and it runs if it is said to run -/
  | current
  | exact

def Fidelity.Agree : Fidelity → Service → Service → Prop
  | known, _, _ => True
  | current, s, t => s.isRunning = true → t.isRunning = true
  | exact, s, t => s = t

namespace Fidelity

variable {f : Fidelity} {s t : Service}

theorem Agree.refl (f : Fidelity) (s : Service) : f.Agree s s := by
  cases f with
  | known => trivial
  | current => exact id
  | exact => rfl

theorem Agree.withState (h : f.Agree s t) (state : ServiceState) :
    f.Agree (s.withState state) (t.withState state) := by
  cases f with
  | known => trivial
  | current => exact id
  | exact => exact congrArg (·.withState state) h

/-- Who agrees takes the state over from the other without changing it. -/
theorem Agree.withState_state (h : f.Agree s t) : f.Agree (s.withState t.state) t := by
  cases f with
  | known => trivial
  | current => exact id
  | exact =>
    cases h
    rfl

end Fidelity

/-- What a description is relied on for, if that outlasts whatever is told of the service. -/
structure Faithful (R : Service → Service → Prop) : Prop where
  refl : ∀ s, R s s
  withState : ∀ {s t}, R s t → ∀ state, R (s.withState state) (t.withState state)
  told : ∀ {s t}, R s t → R (s.withState t.state) t

theorem Fidelity.faithful (f : Fidelity) : Faithful f.Agree :=
  ⟨.refl f, fun h => h.withState, fun h => h.withState_state⟩

namespace Stock

variable {stock : Stock} {s t : Service} {u v : Uuid} {state : ServiceState}

def put (stock : Stock) (s : Service) : Stock :=
  fun u => if u = s.uuid then some s else stock u

def only (s : Service) : Stock :=
  fun u => if u = s.uuid then some s else none

def setState (stock : Stock) (u : Uuid) (state : ServiceState) : Stock :=
  fun v => if v = u then (stock v).map (·.withState state) else stock v

theorem put_self : stock.put s s.uuid = some s :=
  if_pos rfl

theorem put_of_ne (h : u ≠ s.uuid) : stock.put s u = stock u :=
  if_neg h

theorem put_put (h : s.uuid = t.uuid) : (stock.put s).put t = stock.put t := by
  funext u
  simp only [put, h]
  split <;> rfl

theorem setState_self : stock.setState u state u = (stock u).map (·.withState state) :=
  if_pos rfl

theorem setState_of_ne (h : v ≠ u) : stock.setState u state v = stock v :=
  if_neg h

end Stock

variable {g : Fidelity} {entries left : List Service} {stock : Stock} {s d : Service}

/-- The entries record the stock. -/
structure Records (g : Fidelity) (entries : List Service) (stock : Stock) : Prop where
  nodup : (entries.map Service.uuid).Nodup
  kept : ∀ d ∈ entries, ∃ x, stock d.uuid = some x ∧ g.Agree d x
  covered : g = .exact → ∀ u x, stock u = some x → x.state = .starting ∨ x.state = .running →
    u ∈ idsIn entries

theorem Records.record (h : Records g entries stock) (s : Service) :
    Records g ((Registry.Change.record s).on entries) (stock.put s) := by
  have nodup := Registry.nodup_on h.nodup (.record s)
  have hself : s ∈ (Registry.Change.record s).on entries :=
    Registry.mem_on_record.mpr (Registry.mem_update_self s entries)
  refine ⟨nodup, fun d hd => ?_, fun hg u x hx hup => ?_⟩
  · by_cases hu : d.uuid = s.uuid
    · obtain rfl : d = s := List.inj_on_of_nodup_map nodup hd hself hu
      exact ⟨d, Stock.put_self, .refl g d⟩
    · rw [Stock.put_of_ne hu]
      rcases Registry.mem_of_mem_update (Registry.mem_on_record.mp hd) with rfl | hd
      · exact absurd rfl hu
      · exact h.kept d hd
  · refine mem_idsIn_record.mpr ?_
    by_cases hu : u = s.uuid
    · exact Or.inl hu
    · rw [Stock.put_of_ne hu] at hx
      exact Or.inr (h.covered hg u x hx hup)

/-- A service whose state has been told is recorded in that state. -/
theorem Records.settle (h : Records g entries stock) (hd : d ∈ entries) (state : ServiceState) :
    Records g ((Registry.Change.record (d.withState state)).on entries) (stock.setState d.uuid state) := by
  have nodup := Registry.nodup_on h.nodup (.record (d.withState state))
  have hself : d.withState state ∈ (Registry.Change.record (d.withState state)).on entries :=
    Registry.mem_on_record.mpr (Registry.mem_update_self _ entries)
  refine ⟨nodup, fun t ht => ?_, fun hg u x hx hup => ?_⟩
  · by_cases hu : t.uuid = d.uuid
    · obtain rfl : t = d.withState state := List.inj_on_of_nodup_map nodup ht hself hu
      obtain ⟨x, hx, agree⟩ := h.kept d hd
      refine ⟨x.withState state, ?_, agree.withState state⟩
      rw [Service.uuid_withState, Stock.setState_self, hx]
      rfl
    · rw [Stock.setState_of_ne hu]
      rcases Registry.mem_of_mem_update (Registry.mem_on_record.mp ht) with rfl | ht
      · exact absurd rfl hu
      · exact h.kept t ht
  · refine mem_idsIn_record.mpr ?_
    by_cases hu : u = d.uuid
    · exact Or.inl hu
    · rw [Stock.setState_of_ne hu] at hx
      exact Or.inr (h.covered hg u x hx hup)

theorem records_only (g : Fidelity) (s : Service) : Records g [s] (Stock.only s) := by
  refine ⟨by simp, fun d hd => ?_, fun _ u x hx _ => ?_⟩
  · rw [List.mem_singleton.mp hd]
    exact ⟨s, if_pos rfl, .refl g s⟩
  · by_cases hu : u = s.uuid
    · exact ⟨s, List.mem_singleton_self s, hu.symm⟩
    · rw [show Stock.only s u = none from if_neg hu] at hx
      cases hx

/-- Entries that are down may go. -/
theorem Records.narrow (h : Records g entries stock) (nodup : (left.map Service.uuid).Nodup)
    (sub : left ⊆ entries) (down : ∀ d ∈ entries, d ∈ left ∨ d.state.isDown = true) :
    Records g left stock := by
  refine ⟨nodup, fun d hd => h.kept d (sub hd), fun hg u x hx hup => ?_⟩
  obtain ⟨d, hd, rfl⟩ := h.covered hg u x hx hup
  rcases down d hd with hl | hdown
  · exact ⟨d, hl, rfl⟩
  · obtain ⟨y, hy, agree⟩ := h.kept d hd
    obtain rfl := Option.some.inj (hx.symm.trans hy)
    subst hg
    rw [show d = x from agree] at hdown
    rcases hup with hup | hup <;> rw [hup] at hdown <;> cases hdown

/-- What a reply tells of the stock. A favoured call is one that nothing stands in the way of, if it may take
so long. -/
inductive BackendCall.Yields (favoured : Option Duration) (stock : Stock) :
    (c : BackendCall) → c.Reply → Stock → Prop
  | deployed {layout : Layout} {i : Identity} {runId : String} {replace : Bool} {timeout : Duration}
      {s : Service} (running : s.isRunning = true) :
      Yields favoured stock (.deploy layout i runId replace timeout) (.ok s)
        (if replace then .only s else stock.put s)
  | started {asked s : Service} {timeout : Duration} (running : s.isRunning = true) :
      Yields favoured stock (.start asked timeout) (.ok s) (stock.put s)
  | stopped {s : Service} : Yields favoured stock (.stop s) (.ok ()) (stock.setState s.uuid .stopped)
  | told {s : Service} {state : ServiceState} :
      Yields favoured stock (.status s) (.ok state) (stock.setState s.uuid state)
  | refused {c : BackendCall} {error : BackendError} (plain : error.handedOver = none)
      (excused : favoured.isSome = true → ∃ s timeout, c = .start s timeout ∧ stock s.uuid = none) :
      Yields favoured stock c (.error error) stock
  | overdue {c : BackendCall} {s : Service} (waits : c.timeout?.isSome = true) (excused : favoured = none) :
      Yields favoured stock c (.error (.startTimeout (some s))) (stock.put s)

inductive Call.Yields (favoured : Option Duration) (stock : Stock) : (c : Call) → c.Reply → Stock → Prop
  | staged {uri : String} {kind : PredictorKind} {root : String} {reply : Except StorageError Layout}
      (succeeds : favoured.isSome = true → ∃ layout, reply = .ok layout) :
      Yields favoured stock (.stage uri kind root) reply stock
  | asked {c : BackendCall} {reply : c.Reply} {stock' : Stock} (h : c.Yields favoured stock reply stock') :
      Yields favoured stock (.ask c) reply stock'
  | answered {c : BackendCall} {deadline : Duration} {reply : c.Reply} {stock' : Stock}
      (h : c.Yields favoured stock reply stock') :
      Yields favoured stock (.askWithin c deadline) (some reply) stock'
  | late {c : BackendCall} {deadline : Duration} (excused : favoured = none) :
      Yields favoured stock (.askWithin c deadline) none stock

/-- A call waits for a service no shorter than the backend may take, and a favoured one lets it take that long. -/
def Call.Patient (favoured : Option Duration) (c : Call) : Prop :=
  ∀ bc ∈ c.backendCall?, ∀ timeout ∈ bc.timeout?,
    (∃ deadline ∈ c.deadline?, timeout ≤ deadline) ∧ ∀ time ∈ favoured, time ≤ timeout

namespace Program

variable {α β : Type} {favoured : Option Duration}

/-- Whatever the replies are, a program that goes on from the entries of a slot and from its stock waits for
each of them, and ends in `post` or breaks off in `broken`. -/
def Tracks (favoured : Option Duration) (post : α → List Service → Stock → Prop)
    (broken : List Service → Stock → Prop) : Program α → List Service → Stock → Prop
  | done a, entries, stock => post a entries stock
  | abort _, entries, stock => broken entries stock
  | read _ next, entries, stock => (next entries).Tracks favoured post broken entries stock
  | write change next, entries, stock => next.Tracks favoured post broken (change.on entries) stock
  | call c next, entries, stock => c.Patient favoured ∧ ∀ reply stock', c.Yields favoured stock reply stock' →
      (next reply).Tracks favoured post broken entries stock'

variable {post post' : α → List Service → Stock → Prop} {broken : List Service → Stock → Prop} {p : Program α}

theorem Tracks.mono (h : ∀ a entries stock, post a entries stock → post' a entries stock)
    (hp : p.Tracks favoured post broken entries stock) : p.Tracks favoured post' broken entries stock := by
  induction p generalizing entries stock with
  | done a => exact h a entries stock hp
  | abort fault => exact hp
  | read i next ih => exact ih _ hp
  | write change next ih => exact ih hp
  | call c next ih => exact ⟨hp.1, fun reply stock' hy => ih reply (hp.2 reply stock' hy)⟩

theorem tracks_bind {post : β → List Service → Stock → Prop} {f : α → Program β} :
    (p.bind f).Tracks favoured post broken entries stock ↔
      p.Tracks favoured (fun a entries stock => (f a).Tracks favoured post broken entries stock) broken
        entries stock := by
  induction p generalizing entries stock with
  | done a => exact Iff.rfl
  | abort fault => exact Iff.rfl
  | read i next ih => exact ih _
  | write change next ih => exact ih
  | call c next ih =>
    exact and_congr_right fun _ => forall_congr' fun reply => forall₂_congr fun stock' _ => ih reply

theorem tracks_map {post : β → List Service → Stock → Prop} {f : α → β} :
    (p.map f).Tracks favoured post broken entries stock ↔
      p.Tracks favoured (fun a entries stock => post (f a) entries stock) broken entries stock :=
  tracks_bind

end Program
end ServingLifecycle
