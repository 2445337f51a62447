import ServingLifecycle.Proofs.Slot.Stock
/-!
# How far up services may be

The replies of the backend tell how far up the services of a slot are at most, and that is how they are
recorded. It goes wrong in one way: a start that is cut off by its deadline leaves a service on its way up, and
nobody records that. Such an entry is adrift until it is recorded anew.
-/
namespace ServingLifecycle

/-- How far up a service in this state is: running, on its way, or not at all. -/
def ServiceState.level : ServiceState → Nat
  | running => 2
  | starting => 1
  | _ => 0

theorem ServiceState.level_le_two (x : ServiceState) : x.level ≤ 2 := by
  cases x <;> decide

theorem ServiceState.level_of_isDown {x : ServiceState} (h : x.isDown = true) : x.level = 0 := by
  cases x <;> first | rfl | cases h

/-- The second service is no further up than the first is described. -/
def Service.Bounds (x y : Service) : Prop :=
  y.state.level ≤ x.state.level

theorem faithful_bounds : Faithful Service.Bounds :=
  ⟨fun _ => Nat.le_refl _, fun _ _ => Nat.le_refl _, fun _ => Nat.le_refl _⟩

/-- What is known of a slot in the middle of an operation. -/
structure Outlook where
  /-- the services as they were told of last, each at least as far up as it is -/
  stock : Stock
  /-- the entries of which a start was cut off after they had been recorded -/
  adrift : Set Service

namespace Outlook

/-- The service of an entry is no further up than recorded, or the entry is adrift and the service is not
running. -/
def Caps (w : Outlook) (d : Service) : Prop :=
  ∃ x, w.stock d.uuid = some x ∧ (x.state.level ≤ d.state.level ∨ (x.state.level ≤ 1 ∧ d ∈ w.adrift))

/-- The service of an entry is down, or the entry was down and among those adrift. -/
def Halted (w : Outlook) (adrift : Set Service) (d : Service) : Prop :=
  ∃ x, w.stock d.uuid = some x ∧
    (x.state.level = 0 ∨ (x.state.level ≤ 1 ∧ d.state.isDown = true ∧ d ∈ adrift))

/-- Nothing has come up, and no more entries have come adrift. -/
structure Below (w' w : Outlook) : Prop where
  stock : ∀ u x, w.stock u = some x → ∃ x', w'.stock u = some x' ∧ x'.state.level ≤ x.state.level
  adrift : w'.adrift ⊆ w.adrift

/-- What is recorded anew is adrift no more. -/
def narrow (w : Outlook) (entries : List Service) : Outlook :=
  { w with adrift := { d ∈ w.adrift | d ∈ entries } }

variable {w w' w'' : Outlook} {adrift adrift' : Set Service} {d : Service} {u : Uuid}

theorem Below.refl (w : Outlook) : w.Below w :=
  ⟨fun _ x hx => ⟨x, hx, Nat.le_refl _⟩, Set.Subset.rfl⟩

theorem Below.trans (h : w''.Below w') (h' : w'.Below w) : w''.Below w := by
  refine ⟨fun u x hx => ?_, h.adrift.trans h'.adrift⟩
  obtain ⟨x', hx', le⟩ := h'.stock u x hx
  obtain ⟨x'', hx'', le'⟩ := h.stock u x' hx'
  exact ⟨x'', hx'', Nat.le_trans le' le⟩

theorem below_stop (w : Outlook) (u : Uuid) (entries : List Service) :
    (narrow ⟨w.stock.setState u .stopped, w.adrift⟩ entries).Below w := by
  refine ⟨fun v x hx => ?_, Set.sep_subset _ _⟩
  change ∃ x', w.stock.setState u .stopped v = some x' ∧ _
  by_cases hv : v = u
  · subst hv
    rw [Stock.setState_self, hx]
    exact ⟨_, rfl, Nat.zero_le _⟩
  · rw [Stock.setState_of_ne hv]
    exact ⟨x, hx, Nat.le_refl _⟩

theorem Halted.mono (h : w.Halted adrift d) (below : w'.Below w) (sub : adrift ⊆ adrift') :
    w'.Halted adrift' d := by
  obtain ⟨x, hx, level⟩ := h
  obtain ⟨x', hx', le⟩ := below.stock d.uuid x hx
  refine ⟨x', hx', ?_⟩
  rcases level with zero | ⟨one, down, hd⟩
  · exact Or.inl (by omega)
  · exact Or.inr ⟨Nat.le_trans le one, down, sub hd⟩

/-- The service of an entry that is down is halted. -/
theorem Caps.halted (h : w.Caps d) (down : d.state.isDown = true) : w.Halted w.adrift d := by
  obtain ⟨x, hx, level⟩ := h
  refine ⟨x, hx, level.imp (fun le => ?_) fun ⟨one, hd⟩ => ⟨one, down, hd⟩⟩
  rw [ServiceState.level_of_isDown down] at le
  omega

theorem Caps.halted_stop (h : w.Caps d) (entries : List Service) (adrift : Set Service) :
    (narrow ⟨w.stock.setState d.uuid .stopped, w.adrift⟩ entries).Halted adrift d := by
  obtain ⟨x, hx, _⟩ := h
  refine ⟨x.withState .stopped, ?_, Or.inl rfl⟩
  change w.stock.setState d.uuid .stopped d.uuid = _
  rw [Stock.setState_self, hx]
  rfl

end Outlook

/-- No id is recorded twice, and every entry says how far up its service is at most, unless it is adrift. -/
structure Reckons (entries : List Service) (w : Outlook) : Prop where
  nodup : (entries.map Service.uuid).Nodup
  caps : ∀ d ∈ entries, w.Caps d

variable {entries : List Service} {w w' : Outlook} {s d : Service} {stock : Stock}

/-- A service that is recorded as it was told of brings the entries no further from the backend. -/
theorem Reckons.record (h : Reckons entries w)
    (self : ∃ x, stock s.uuid = some x ∧ x.state.level ≤ s.state.level)
    (others : ∀ u, u ≠ s.uuid → stock u = w.stock u) :
    Reckons ((Registry.Change.record s).on entries)
      (Outlook.narrow ⟨stock, w.adrift⟩ ((Registry.Change.record s).on entries)) := by
  have nodup := Registry.nodup_on h.nodup (.record s)
  refine ⟨nodup, fun d hd => ?_⟩
  rcases Registry.mem_of_mem_update (Registry.mem_on_record.mp hd) with rfl | hm
  · obtain ⟨x, hx, le⟩ := self
    exact ⟨x, hx, Or.inl le⟩
  · by_cases hu : d.uuid = s.uuid
    · have hself : s ∈ (Registry.Change.record s).on entries :=
        Registry.mem_on_record.mpr (Registry.mem_update_self s entries)
      obtain rfl : d = s := List.inj_on_of_nodup_map nodup hd hself hu
      obtain ⟨x, hx, le⟩ := self
      exact ⟨x, hx, Or.inl le⟩
    · obtain ⟨x, hx, level⟩ := h.caps d hm
      exact ⟨x, (others d.uuid hu).trans hx, level.imp_right fun ⟨one, adrift⟩ => ⟨one, adrift, hd⟩⟩

theorem Reckons.put (h : Reckons entries w) (s : Service) :
    Reckons ((Registry.Change.record s).on entries)
      (Outlook.narrow ⟨w.stock.put s, w.adrift⟩ ((Registry.Change.record s).on entries)) :=
  h.record ⟨s, Stock.put_self, Nat.le_refl _⟩ fun _ hu => Stock.put_of_ne hu

/-- A service whose state has been told is recorded in that state. -/
theorem Reckons.settle (h : Reckons entries w) (known : s.uuid ∈ idsIn entries) (state : ServiceState) :
    Reckons ((Registry.Change.record (s.withState state)).on entries)
      (Outlook.narrow ⟨w.stock.setState s.uuid state, w.adrift⟩
        ((Registry.Change.record (s.withState state)).on entries)) := by
  refine h.record ?_ fun _ hu => Stock.setState_of_ne hu
  obtain ⟨d, hd, e⟩ := known
  obtain ⟨x, hx, _⟩ := h.caps d hd
  rw [e] at hx
  refine ⟨x.withState state, ?_, Nat.le_refl _⟩
  rw [Service.uuid_withState, Stock.setState_self, hx]
  rfl

theorem reckons_singleton {x : Service} (hx : stock s.uuid = some x) (le : x.state.level ≤ s.state.level)
    (adrift : Set Service) : Reckons [s] ⟨stock, adrift⟩ := by
  refine ⟨by simp, fun d hd => ?_⟩
  rw [List.mem_singleton.mp hd]
  exact ⟨x, hx, Or.inl le⟩

/-- What is known when the deadline of a call is over. A start has set its service on its way up; a deployment
has left one that is not recorded. -/
def Call.unheard (w : Outlook) : Call → Outlook
  | .askWithin (.start asked _) _ => ⟨w.stock.setState asked.uuid .starting, insert asked w.adrift⟩
  | _ => w

/-- What a reply shows of the slot. -/
inductive Call.Shows (w : Outlook) : (c : Call) → c.Reply → Outlook → Prop
  | told {c : Call} {reply : c.Reply} {stock : Stock} (h : c.Yields none w.stock reply stock) :
      Shows w c reply ⟨stock, w.adrift⟩
  | unheard {c : BackendCall} {deadline : Duration} :
      Shows w (.askWithin c deadline) none ((Call.askWithin c deadline).unheard w)

theorem Reckons.unheard (h : Reckons entries w) {c : Call}
    (recorded : ∀ asked timeout deadline, c = .askWithin (.start asked timeout) deadline → asked ∈ entries) :
    Reckons entries (c.unheard w) := by
  cases c with
  | askWithin c deadline =>
    cases c with
    | start asked timeout =>
      have hasked := recorded asked timeout deadline rfl
      refine ⟨h.nodup, fun d hd => ?_⟩
      obtain ⟨x, hx, level⟩ := h.caps d hd
      by_cases hu : d.uuid = asked.uuid
      · obtain rfl : d = asked := List.inj_on_of_nodup_map h.nodup hd hasked hu
        refine ⟨x.withState .starting, ?_, Or.inr ⟨Nat.le_refl _, Set.mem_insert _ _⟩⟩
        change w.stock.setState d.uuid .starting d.uuid = _
        rw [Stock.setState_self, hx]
        rfl
      · refine ⟨x, (Stock.setState_of_ne hu).trans hx, level.imp_right fun ⟨one, adrift⟩ => ⟨one, ?_⟩⟩
        exact Set.mem_insert_of_mem _ adrift
    | _ => exact h
  | _ => exact h

namespace Program

variable {α β : Type}

/-- Whatever the replies are, a program that goes on from the entries of a slot and from what is known of it ends
in `post` or breaks off in `broken`, and the services that it starts with a deadline are recorded. -/
def Minds (post : α → List Service → Outlook → Prop) (broken : List Service → Outlook → Prop) :
    Program α → List Service → Outlook → Prop
  | done a, entries, w => post a entries w
  | abort _, entries, w => broken entries w
  | read _ next, entries, w => (next entries).Minds post broken entries w
  | write change next, entries, w => next.Minds post broken (change.on entries) (w.narrow (change.on entries))
  | call c next, entries, w =>
    (∀ asked timeout deadline, c = .askWithin (.start asked timeout) deadline → asked ∈ entries) ∧
      ∀ reply w', c.Shows w reply w' → (next reply).Minds post broken entries w'

variable {post post' : α → List Service → Outlook → Prop} {broken : List Service → Outlook → Prop} {p : Program α}

theorem Minds.mono (h : ∀ a entries w, post a entries w → post' a entries w)
    (hp : p.Minds post broken entries w) : p.Minds post' broken entries w := by
  induction p generalizing entries w with
  | done a => exact h a entries w hp
  | abort fault => exact hp
  | read i next ih => exact ih _ hp
  | write change next ih => exact ih hp
  | call c next ih => exact ⟨hp.1, fun reply w' shows => ih reply (hp.2 reply w' shows)⟩

theorem minds_bind {post : β → List Service → Outlook → Prop} {f : α → Program β} :
    (p.bind f).Minds post broken entries w ↔
      p.Minds (fun a entries w => (f a).Minds post broken entries w) broken entries w := by
  induction p generalizing entries w with
  | done a => exact Iff.rfl
  | abort fault => exact Iff.rfl
  | read i next ih => exact ih _
  | write change next ih => exact ih
  | call c next ih =>
    exact and_congr_right fun _ => forall_congr' fun reply => forall₂_congr fun w' _ => ih reply

theorem minds_map {post : β → List Service → Outlook → Prop} {f : α → β} :
    (p.map f).Minds post broken entries w ↔
      p.Minds (fun a entries w => post (f a) entries w) broken entries w :=
  minds_bind

end Program
end ServingLifecycle
