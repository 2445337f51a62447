import Mathlib.Data.Set.Subsingleton
import ServingLifecycle.Backend.Faults
import ServingLifecycle.Proofs.Program.Steps
import ServingLifecycle.Proofs.Registry.Entries
/-!
# What may run

While an operation is in the critical section of a slot, the replies of the backend tell which services of the
slot may run. `up` holds their ids. Crashes only take services away, so it is an upper bound from one reply to
the next. `offline` is whether the backend is offline all the while, as far as that is certain.
-/
namespace ServingLifecycle

/-- The ids of the services that are running, among some. -/
def runningIn (services : List Service) : Set Uuid :=
  { u | ∃ s ∈ services, s.uuid = u ∧ s.isRunning = true }

/-- The ids of some services. -/
def idsIn (services : List Service) : Set Uuid :=
  { u | ∃ s ∈ services, s.uuid = u }

variable {entries entries' : List Service} {up up' : Set Uuid} {u : Uuid}

theorem runningIn_subset_idsIn : runningIn entries ⊆ idsIn entries := by
  rintro u ⟨s, hs, e, _⟩
  exact ⟨s, hs, e⟩

theorem idsIn_singleton_subsingleton (s : Service) : (idsIn [s]).Subsingleton := by
  rintro u ⟨a, ha, rfl⟩ v ⟨b, hb, rfl⟩
  rw [List.mem_singleton.mp ha, List.mem_singleton.mp hb]

theorem mem_idsIn_record {s : Service} :
    u ∈ idsIn ((Registry.Change.record s).on entries) ↔ u = s.uuid ∨ u ∈ idsIn entries := by
  constructor
  · rintro ⟨t, ht, rfl⟩
    rcases Registry.mem_of_mem_update (Registry.mem_on_record.mp ht) with rfl | ht
    · exact Or.inl rfl
    · exact Or.inr ⟨t, ht, rfl⟩
  · intro hu
    by_cases e : u = s.uuid
    · exact ⟨s, Registry.mem_on_record.mpr (Registry.mem_update_self s entries), e.symm⟩
    · obtain ⟨t, ht, rfl⟩ := hu.resolve_left e
      exact ⟨t, Registry.mem_on_record.mpr (Registry.mem_update_of_ne ht e), rfl⟩

theorem isRunning_of_mem_runningIn (nodup : (entries.map Service.uuid).Nodup) {s : Service}
    (hs : s ∈ entries) (h : s.uuid ∈ runningIn entries) : s.isRunning = true := by
  obtain ⟨t, ht, e, hr⟩ := h
  rw [← List.inj_on_of_nodup_map nodup ht hs e]
  exact hr

theorem mem_runningIn_record (nodup : (entries.map Service.uuid).Nodup) (s : Service) :
    u ∈ runningIn ((Registry.Change.record s).on entries) ↔
      if u = s.uuid then s.isRunning = true else u ∈ runningIn entries := by
  have hself : s ∈ (Registry.Change.record s).on entries :=
    Registry.mem_on_record.mpr (Registry.mem_update_self s entries)
  by_cases hu : u = s.uuid
  · subst hu
    rw [if_pos rfl]
    constructor
    · exact isRunning_of_mem_runningIn (Registry.nodup_on nodup _) hself
    · exact fun hr => ⟨s, hself, rfl, hr⟩
  · rw [if_neg hu]
    constructor
    · rintro ⟨t, ht, rfl, hr⟩
      rcases Registry.mem_of_mem_update (Registry.mem_on_record.mp ht) with rfl | ht
      · exact absurd rfl hu
      · exact ⟨t, ht, rfl, hr⟩
    · rintro ⟨t, ht, rfl, hr⟩
      exact ⟨t, Registry.mem_on_record.mpr (Registry.mem_update_of_ne ht hu), rfl, hr⟩

theorem runningIn_record_subset (nodup : (entries.map Service.uuid).Nodup) {s : Service}
    (hs : s.isRunning = true → s.uuid ∈ runningIn entries) :
    runningIn ((Registry.Change.record s).on entries) ⊆ runningIn entries := by
  intro u hu
  rw [mem_runningIn_record nodup] at hu
  split at hu
  · rename_i e
    exact e ▸ hs hu
  · exact hu

/-- Every service that may run is recorded as running, and no id is recorded twice. -/
structure Mirrors (entries : List Service) (up : Set Uuid) : Prop where
  nodup : (entries.map Service.uuid).Nodup
  recorded : up ⊆ runningIn entries

theorem Mirrors.mono (h : Mirrors entries up) (sub : up' ⊆ up) : Mirrors entries up' :=
  ⟨h.nodup, sub.trans h.recorded⟩

theorem Mirrors.record (h : Mirrors entries up) {s : Service} (others : ∀ u ∈ up', u ≠ s.uuid → u ∈ up)
    (self : s.uuid ∈ up' → s.isRunning = true) : Mirrors ((Registry.Change.record s).on entries) up' := by
  refine ⟨Registry.nodup_on h.nodup _, fun u hu => (mem_runningIn_record h.nodup s).mpr ?_⟩
  split
  · rename_i e
    exact self (e ▸ hu)
  · exact h.recorded (others u hu ‹_›)

theorem mirrors_supersede {s : Service} (running : s.isRunning = true) (only : up ⊆ {s.uuid}) :
    Mirrors ((Registry.Change.supersede s).on entries) up :=
  ⟨by simp [Registry.Change.on], fun u hu =>
    ⟨s, by simp [Registry.Change.on], (Set.mem_singleton_iff.mp (only hu)).symm, running⟩⟩

/-- In a slot with a single service before, no second one may run. -/
def Calm (before : List Service) (up : Set Uuid) : Prop :=
  (idsIn before).Subsingleton → up.Subsingleton

theorem Mirrors.calm (h : Mirrors entries up) (sub : up' ⊆ up) : Calm entries up' :=
  fun few => few.anti ((sub.trans h.recorded).trans runningIn_subset_idsIn)

/-- What a reply tells of the services that may run. -/
inductive BackendCall.Tells (offline : Option Bool) (up : Set Uuid) :
    (c : BackendCall) → c.Reply → Set Uuid → Prop
  | deployed {layout : Layout} {i : Identity} {runId : String} {replace : Bool} {timeout : Duration}
      {s : Service} (online : offline ≠ some true) (running : s.isRunning = true) :
      Tells offline up (.deploy layout i runId replace timeout) (.ok s)
        (if replace then {s.uuid} else insert s.uuid up)
  | started {asked s : Service} {timeout : Duration} (online : offline ≠ some true)
      (same : s.uuid = asked.uuid) (running : s.isRunning = true) :
      Tells offline up (.start asked timeout) (.ok s) (insert s.uuid up)
  | stopped {s : Service} : Tells offline up (.stop s) (.ok ()) (up \ {s.uuid})
  | told {s : Service} {state : ServiceState} (running : state = .running → s.uuid ∈ up) :
      Tells offline up (.status s) (.ok state) { u ∈ up | u = s.uuid → state = .running }
  | failed {c : BackendCall} {error : BackendError}
      (settled : ∀ s ∈ error.handedOver, s.isRunning = false)
      (possible : c.method = .stop → offline ≠ some false) :
      Tells offline up c (.error error) { u ∈ up | ∀ s ∈ error.handedOver, u ≠ s.uuid }

/-- What the answer to a call of a program tells. Storage tells nothing, and neither does a deadline. -/
inductive Call.Tells (offline : Option Bool) (up : Set Uuid) : (c : Call) → c.Reply → Set Uuid → Prop
  | staged {uri : String} {kind : PredictorKind} {root : String} (reply : Except StorageError Layout) :
      Tells offline up (.stage uri kind root) reply up
  | asked {c : BackendCall} {reply : c.Reply} {up' : Set Uuid} (h : c.Tells offline up reply up') :
      Tells offline up (.ask c) reply up'
  | answered {c : BackendCall} {deadline : Duration} {reply : c.Reply} {up' : Set Uuid}
      (h : c.Tells offline up reply up') : Tells offline up (.askWithin c deadline) (some reply) up'
  | late {c : BackendCall} {deadline : Duration} : Tells offline up (.askWithin c deadline) none up

namespace Program

variable {α β : Type} {offline : Option Bool}

/-- Whatever the backend tells, a program that goes on from the entries of a slot and from what may run there
ends in `post`, or breaks off in `broken`, and `along` holds of what may run all the while. -/
def Keeps (offline : Option Bool) (along : Set Uuid → Prop) (post : α → List Service → Set Uuid → Prop)
    (broken : List Service → Set Uuid → Prop) : Program α → List Service → Set Uuid → Prop
  | done a, entries, up => post a entries up
  | abort _, entries, up => broken entries up
  | read _ next, entries, up => (next entries).Keeps offline along post broken entries up
  | write change next, entries, up => next.Keeps offline along post broken (change.on entries) up
  | call c next, entries, up => ∀ reply up', c.Tells offline up reply up' →
      along up' ∧ (next reply).Keeps offline along post broken entries up'

variable {along : Set Uuid → Prop} {post post' : α → List Service → Set Uuid → Prop}
  {broken : List Service → Set Uuid → Prop} {p : Program α}

theorem Keeps.mono (h : ∀ a entries up, post a entries up → post' a entries up)
    (hp : p.Keeps offline along post broken entries up) : p.Keeps offline along post' broken entries up := by
  induction p generalizing entries up with
  | done a => exact h a entries up hp
  | abort fault => exact hp
  | read i next ih => exact ih _ hp
  | write change next ih => exact ih hp
  | call c next ih => exact fun reply up' ht => ⟨(hp reply up' ht).1, ih reply (hp reply up' ht).2⟩

theorem keeps_bind {post : β → List Service → Set Uuid → Prop} {f : α → Program β} :
    (p.bind f).Keeps offline along post broken entries up ↔
      p.Keeps offline along (fun a entries up => (f a).Keeps offline along post broken entries up) broken
        entries up := by
  induction p generalizing entries up with
  | done a => exact Iff.rfl
  | abort fault => exact Iff.rfl
  | read i next ih => exact ih _
  | write change next ih => exact ih
  | call c next ih =>
    exact forall_congr' fun reply => forall₂_congr fun up' _ => and_congr_right fun _ => ih reply

theorem keeps_map {post : β → List Service → Set Uuid → Prop} {f : α → β} :
    (p.map f).Keeps offline along post broken entries up ↔
      p.Keeps offline along (fun a entries up => post (f a) entries up) broken entries up :=
  keeps_bind

end Program
end ServingLifecycle
