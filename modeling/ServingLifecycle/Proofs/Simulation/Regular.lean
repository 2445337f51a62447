import ServingLifecycle.Proofs.Simulation.Moves
import ServingLifecycle.Proofs.System.Sessions
/-!
# Regular simulations

A simulation that began fresh has no planned faults, keeps the discipline of its locks, and every call in
flight is that of a task which goes on from its answer. So whatever happens in it is one of the moves. The ids
in its backend are those that were drawn.
-/
namespace ServingLifecycle

namespace SimulatedBackend

variable {b b' : SimulatedBackend} {birth : Birth} {c : BackendCall} {response : Simulation.Response}
  {service : Service}

/-- The ids of a backend, with the one that a call draws. -/
def idsWith (b : SimulatedBackend) (birth : Birth) (c : BackendCall) : Set Uuid :=
  { u | (∃ s ∈ b.services, s.uuid = u) ∨ (c.draws = 1 ∧ u = birth.uuid) }

theorem mem_idsWith {s : Service} (hs : s ∈ b.services) : s.uuid ∈ b.idsWith birth c :=
  Or.inl ⟨s, hs, rfl⟩

theorem mem_idsWith_of_launch {call : CallRecord} {us : List Uuid} {timeout : Duration}
    (hu : service.uuid ∈ b.idsWith birth c) {s : Service}
    (hs : s ∈ ((b.see call).launch service us timeout).2.services) : s.uuid ∈ b.idsWith birth c := by
  rcases mem_put hs with rfl | ⟨hm, _⟩
  · exact hu
  · exact mem_idsWith hm

/-- A call brings no ids into the backend but the one it draws. -/
theorem Taken.ids (ht : Taken b birth c response b') : ∀ s ∈ b'.services, s.uuid ∈ b.idsWith birth c := by
  intro s hs
  cases ht with
  | offline | unknown | running | told => exact mem_idsWith hs
  | started call online hf => exact mem_idsWith_of_launch (mem_idsWith (mem_of_find? hf).1) hs
  | deployed call => exact mem_idsWith_of_launch (Or.inr ⟨rfl, rfl⟩) hs
  | stopped call =>
    obtain ⟨t, ht, e⟩ := uuid_of_mem_setState hs
    exact e ▸ mem_idsWith ht

theorem Taken.id_of_waiting {st : Startup} (ht : Taken b birth c (.waiting st) b') :
    st.service.uuid ∈ b.idsWith birth c := by
  generalize hr : Simulation.Response.waiting st = response at ht
  cases ht with
  | offline | unknown | running | stopped | told => cases hr
  | started call online hf =>
    obtain ⟨hs, _⟩ := of_launch_waiting hr.symm
    rw [hs, Service.uuid_withState]
    exact mem_idsWith (mem_of_find? hf).1
  | deployed call =>
    obtain ⟨hs, _⟩ := of_launch_waiting hr.symm
    rw [hs]
    exact Or.inr ⟨rfl, rfl⟩

theorem uuid_of_mem_finish {st : Startup} {s : Service} (hs : s ∈ (b.finish st).2.services) :
    s.uuid = st.service.uuid ∨ s ∈ b.services := by
  cases ht : st.inTime with
  | true =>
    rw [finish_inTime ht] at hs
    rcases mem_put (mem_without.mp hs).1 with rfl | ⟨hm, _⟩
    · exact Or.inl rfl
    · exact Or.inr hm
  | false =>
    rw [finish_late ht] at hs
    exact Or.inr hs

end SimulatedBackend

namespace Simulation

/-- An id that was drawn. -/
def Drawn (s : Simulation) (u : Uuid) : Prop :=
  ∃ n < s.births, (s.birth n).uuid = u

structure Regular (s : Simulation) : Prop where
  faultless : s.faults = []
  locked : s.system.Locked
  awaited : ∀ f ∈ s.inFlight, s.Awaited f
  drawn : ∀ d ∈ s.backend.services, s.Drawn d.uuid
  expected : ∀ f ∈ s.inFlight, ∀ st ∈ f.startup, s.Drawn st.service.uuid

variable {s s' : Simulation} {incident : Incident} {t : TaskId} {bc : BackendCall} {u : Uuid}

theorem regular_fresh (settings : Settings) (metrics : Option Metrics) (locator : Locator StorageWorld)
    (world : StorageWorld) (birth : Nat → Birth) :
    (fresh settings metrics locator world birth).Regular where
  faultless := rfl
  locked := System.locked_initial settings metrics
  awaited f hf := by cases hf
  drawn d hd := by cases hd
  expected f hf := by cases hf

/-- A call in flight is awaited as long as its task stays as it is. -/
theorem Awaited.of_task {f : InFlight} (h : s.Awaited f)
    (same : s'.system.tasks[f.task]? = s.system.tasks[f.task]?) : s'.Awaited f := by
  obtain ⟨op, lock, c, next, ht, takes⟩ := h
  exact ⟨op, lock, c, next, same.trans ht, takes⟩

theorem Drawn.taking (h : s.Drawn u) : (s.taking bc).Drawn u := by
  obtain ⟨n, hn, e⟩ := h
  exact ⟨n, Nat.lt_of_lt_of_le hn (Nat.le_add_right _ _), e⟩

theorem drawn_of_mem_idsWith (drawn : ∀ d ∈ s.backend.services, s.Drawn d.uuid)
    (hu : u ∈ s.backend.idsWith (s.birth s.births) bc) : (s.taking bc).Drawn u := by
  rcases hu with ⟨d, hd, rfl⟩ | ⟨hdraws, rfl⟩
  · exact (drawn d hd).taking
  · refine ⟨s.births, ?_, rfl⟩
    change s.births < s.births + bc.draws
    omega

theorem Regular.drawn_taking (h : s.Regular) (bc : BackendCall) :
    ∀ d ∈ (s.taking bc).backend.services, (s.taking bc).Drawn d.uuid :=
  fun d hd => drawn_of_mem_idsWith h.drawn ((s.backend.taken (s.birth s.births) bc).ids d hd)

theorem Regular.move (h : s.Regular) (move : Move s incident s') : s'.Regular := by
  cases move with
  | submitted op =>
    refine ⟨h.faultless, h.locked.submit op, fun f hf => ?_, h.drawn, h.expected⟩
    obtain ⟨op', lock, c, next, ht, takes⟩ := h.awaited f hf
    exact ⟨op', lock, c, next, System.getElem?_submit_of_some op ht, takes⟩
  | refused op => exact h
  | turned ht turn free plain staged =>
    exact ⟨h.faultless, h.locked.turn ht turn, fun f hf =>
      (h.awaited f hf).of_task (turn.getElem?_eq (free f hf)), h.drawn, h.expected⟩
  | @answered t op lock c next bc a reply ht free hc ha hr =>
    exact ⟨h.faultless, h.locked.answered ht _, fun f hf =>
      (h.awaited f hf).of_task (System.getElem?_setPhase_of_ne (free f hf) _), h.drawn_taking bc,
      fun f hf st hst => (h.expected f hf st hst).taking⟩
  | @suspended t op lock c next bc f ht free hc hf hst cut ends served late =>
    refine ⟨h.faultless, h.locked, fun g hg => ?_, h.drawn_taking bc, fun g hg st hst' => ?_⟩
    · rcases List.mem_append.mp hg with hg | hg
      · exact (h.awaited g hg).of_task rfl
      · obtain rfl := List.mem_singleton.mp hg
        exact ⟨op, lock, c, next, hf ▸ ht, served, late⟩
    · rcases List.mem_append.mp hg with hg | hg
      · exact (h.expected g hg st hst').taking
      · obtain rfl := List.mem_singleton.mp hg
        have taken := s.backend.taken (s.birth s.births) bc
        rw [show (s.backend.take _ _).1 = _ from hst st hst'] at taken
        exact drawn_of_mem_idsWith h.drawn taken.id_of_waiting
  | @finished moment f op lock c next st reply hf ht hst hr =>
    refine ⟨h.faultless, h.locked.answered ht _, fun g hg => ?_, fun d hd => ?_, fun g hg => ?_⟩
    · obtain ⟨hm, hne⟩ := List.mem_filter.mp hg
      exact (h.awaited g hm).of_task (System.getElem?_setPhase_of_ne (by simpa using hne) _)
    · rcases SimulatedBackend.uuid_of_mem_finish hd with e | hd
      · rw [e]
        exact h.expected f hf st hst
      · exact h.drawn d hd
    · exact h.expected g (List.mem_filter.mp hg).1
  | late hf ht hst hr =>
    refine ⟨h.faultless, h.locked.answered ht _, fun g hg => ?_, h.drawn, fun g hg => ?_⟩
    · obtain ⟨hm, hne⟩ := List.mem_filter.mp hg
      exact (h.awaited g hm).of_task (System.getElem?_setPhase_of_ne (by simpa using hne) _)
    · exact h.expected g (List.mem_filter.mp hg).1
  | disturbed d =>
    refine ⟨h.faultless, h.locked, fun f hf => (h.awaited f hf).of_task rfl, fun x hx => ?_, h.expected⟩
    cases d with
    | crash uuid =>
      obtain ⟨y, hy, e⟩ := SimulatedBackend.uuid_of_mem_setState hx
      exact e ▸ h.drawn y hy
    | _ => exact h.drawn x hx
  | stored world =>
    exact ⟨h.faultless, h.locked, fun f hf => (h.awaited f hf).of_task rfl, h.drawn, h.expected⟩

theorem Regular.after (h : s.Regular) (last : s.after incident = some s') : s'.Regular :=
  h.move (move_of_after h.faultless h.awaited last)

theorem Regular.move_of_after (h : s.Regular) (last : s.after incident = some s') : Move s incident s' :=
  Simulation.move_of_after h.faultless h.awaited last

theorem Regular.reaches {may : Simulation → Incident → Prop} (h : s.Regular) (run : Reaches may s s') :
    s'.Regular := by
  induction run with
  | refl => exact h
  | snoc prior allowed last ih => exact ih.after last

end Simulation
end ServingLifecycle
