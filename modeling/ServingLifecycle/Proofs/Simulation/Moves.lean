import ServingLifecycle.Proofs.Backend.Calls
import ServingLifecycle.Proofs.System.Turn
import ServingLifecycle.Simulation.Incident
/-!
# Moves

What an incident does to a simulation without planned faults. A call to the backend is answered at once, or
leaves its task waiting until it is woken.
-/
namespace ServingLifecycle

/-- A step that a task takes without the backend. -/
def Access.isLocal : Access → Bool
  | read .. => true
  | write _ => true
  | call (.stage ..) _ => true
  | _ => false

namespace Simulation

/-- What the call of a task comes to at first. -/
def response (s : Simulation) (c : BackendCall) : Response :=
  (s.backend.take (s.birth s.births) c).1

/-- The simulation when the backend has taken a call. -/
def taking (s : Simulation) (c : BackendCall) : Simulation :=
  { s with backend := (s.backend.take (s.birth s.births) c).2, births := s.births + c.draws }

/-- A call in flight is that of a task inside, and takes the answer that ends its wait. -/
def Awaited (s : Simulation) (f : InFlight) : Prop :=
  ∃ op lock c next, s.system.tasks[f.task]? = some ⟨op, .inside lock (.call c next)⟩ ∧
    (∀ result, (c.reply? (.served result)).isSome = true) ∧
    (f.startup = none → f.wakeAt.isSome = true → (c.reply? .late).isSome = true)

inductive Move (s : Simulation) : Incident → Simulation → Prop
  | submitted (op : Operation) : Move s (.submit op) { s with system := s.system.submit op }
  | refused (op : Operation) : Move s (.submit op) s
  | turned {t : TaskId} {task : Task} {o : Option System.Observation} {system : System} {world : StorageWorld}
      (ht : s.system.tasks[t]? = some task) (turn : s.system.Turn t task o system)
      (free : ∀ f ∈ s.inFlight, f.task ≠ t)
      (plain : ∀ a, o = some (.access a) → a.isLocal = true)
      (staged : ∀ uri kind root reply, o = some (.access (.call (.stage uri kind root) reply)) →
        reply = (s.locator.locate uri kind root s.world).1) :
      Move s (.step t) { s with system := system, world := world }
  | answered {t : TaskId} {op : Operation} {lock : LockId} {c : Call} {next : c.Reply → Program Verdict}
      {bc : BackendCall} {a : Answer} {reply : c.Reply}
      (ht : s.system.tasks[t]? = some ⟨op, .inside lock (.call c next)⟩)
      (free : ∀ f ∈ s.inFlight, f.task ≠ t) (hc : c.backendCall? = some bc)
      (ha : s.response bc = .answered a) (hr : c.reply? a = some reply) :
      Move s (.step t)
        { s.taking bc with system := s.system.setPhase t (.inside lock (next reply)) }
  | suspended {t : TaskId} {op : Operation} {lock : LockId} {c : Call} {next : c.Reply → Program Verdict}
      {bc : BackendCall} {f : InFlight}
      (ht : s.system.tasks[t]? = some ⟨op, .inside lock (.call c next)⟩)
      (free : ∀ f ∈ s.inFlight, f.task ≠ t) (hc : c.backendCall? = some bc) (hf : f.task = t)
      (hst : ∀ st ∈ f.startup, s.response bc = .waiting st)
      (cut : f.startup = none → s.response bc = .hanging ∨
        ∃ st, s.response bc = .waiting st ∧ ∃ deadline ∈ c.deadline?, ¬ st.wait ≤ deadline)
      (ends : f.wakeAt.isSome = true ∨ (s.response bc = .hanging ∧ c.deadline? = none))
      (served : ∀ result, (c.reply? (.served result)).isSome = true)
      (late : f.startup = none → f.wakeAt.isSome = true → (c.reply? .late).isSome = true) :
      Move s (.step t) { s.taking bc with inFlight := s.inFlight ++ [f] }
  | finished {moment : Nat} {f : InFlight} {op : Operation} {lock : LockId} {c : Call}
      {next : c.Reply → Program Verdict} {st : Startup} {reply : c.Reply} (hf : f ∈ s.inFlight)
      (ht : s.system.tasks[f.task]? = some ⟨op, .inside lock (.call c next)⟩)
      (hst : f.startup = some st) (hr : c.reply? (.served (s.backend.finish st).1) = some reply) :
      Move s (.wake moment f.task)
        { s with
          now := moment
          inFlight := s.inFlight.filter fun other => other.task ≠ f.task
          backend := (s.backend.finish st).2
          system := s.system.setPhase f.task (.inside lock (next reply)) }
  | late {moment : Nat} {f : InFlight} {op : Operation} {lock : LockId} {c : Call}
      {next : c.Reply → Program Verdict} {reply : c.Reply} (hf : f ∈ s.inFlight)
      (ht : s.system.tasks[f.task]? = some ⟨op, .inside lock (.call c next)⟩)
      (hst : f.startup = none) (hr : c.reply? .late = some reply) :
      Move s (.wake moment f.task)
        { s with
          now := moment
          inFlight := s.inFlight.filter fun other => other.task ≠ f.task
          system := s.system.setPhase f.task (.inside lock (next reply)) }
  | disturbed (d : Disturbance) : Move s (.disturb d) { s with backend := s.backend.disturb d }
  | stored (world : StorageWorld) : Move s (.store world) { s with world := world }

variable {s s' : Simulation} {t : TaskId} {op : Operation} {lock : LockId} {c : Call}
  {next : c.Reply → Program Verdict} {bc : BackendCall}

theorem begin_eq (s : Simulation) (c : BackendCall) : s.begin c = (s.response c, s.taking c) := by
  cases c <;> rfl

theorem ask_eq (faultless : s.faults = []) (c : BackendCall) : s.ask c = (s.response c, s.taking c) := by
  have hs : { s with faults := [] } = s := by
    cases s
    cases faultless
    rfl
  unfold ask
  rw [faultless]
  simp only [interceptCall, hs]
  exact begin_eq s c

theorem deliver_eq {s₁ : Simulation} {a : Answer} {reply : c.Reply}
    (ht : s.system.tasks[t]? = some ⟨op, .inside lock (.call c next)⟩) (hr : c.reply? a = some reply)
    (same : s₁.system = s.system) :
    s₁.deliver t a = { s₁ with system := s.system.setPhase t (.inside lock (next reply)) } := by
  unfold deliver
  have h : s₁.system.answer t a = some (s.system.setPhase t (.inside lock (next reply))) := by
    unfold System.answer
    simp [same, ht, hr]
  rw [h]

/-- The response is one that the call can go on from. -/
def Response.Suits (c : Call) : Response → Prop
  | answered a => (c.reply? a).isSome = true
  | waiting _ => ∀ result, (c.reply? (.served result)).isSome = true
  | hanging => ∀ result, (c.reply? (.served result)).isSome = true
  | brokenOff _ => False

theorem suits_launch {b : SimulatedBackend} {service : Service} {us : List Uuid} {timeout : Duration}
    (served : ∀ result, (c.reply? (.served result)).isSome = true) :
    (Response.ofBeginning (b.launch service us timeout).1).Suits c := by
  unfold SimulatedBackend.launch
  split <;> exact served

theorem suits_of_taken {b b' : SimulatedBackend} {birth : Birth} {response : Response}
    (htaken : b.Taken birth bc response b') (hc : c.backendCall? = some bc) : response.Suits c := by
  cases c with
  | stage => cases hc
  | ask bc' =>
    cases hc
    cases htaken with
    | offline => cases bc <;> rfl
    | started | deployed => exact suits_launch fun result => rfl
    | _ => rfl
  | askWithin bc' deadline =>
    cases hc
    cases htaken with
    | offline => cases bc <;> rfl
    | started | deployed => exact suits_launch fun result => rfl
    | _ => rfl

theorem move_of_respond (ht : s.system.tasks[t]? = some ⟨op, .inside lock (.call c next)⟩)
    (free : ∀ f ∈ s.inFlight, f.task ≠ t) (hc : c.backendCall? = some bc)
    (hd : c.deadline?.isSome = true → (c.reply? .late).isSome = true) :
    Move s (.step t) ((s.taking bc).respond t c.deadline? (s.response bc)) := by
  have suits : (s.response bc).Suits c := suits_of_taken (s.backend.taken _ bc) hc
  cases hr : s.response bc with
  | answered a =>
    rw [hr] at suits
    obtain ⟨reply, ha⟩ := Option.isSome_iff_exists.mp suits
    simp only [respond]
    rw [deliver_eq ht ha]
    · exact .answered ht free hc hr ha
    · rfl
  | waiting st =>
    rw [hr] at suits
    unfold respond
    dsimp only
    split
    · exact .suspended (f := ⟨t, _, some st⟩) ht free hc rfl (by rintro _ ⟨⟩; exact hr) (by simp)
        (Or.inl rfl) suits (by simp)
    · rename_i hcut
      obtain ⟨deadline, hm, hlt⟩ : ∃ deadline ∈ c.deadline?, ¬ st.wait ≤ deadline := by
        simpa [Option.all_eq_true] using hcut
      refine .suspended (f := ⟨t, _, none⟩) ht free hc rfl (by simp) (fun _ => Or.inr ⟨st, hr, deadline, hm, hlt⟩)
        (Or.inl ?_) suits fun _ hw => hd (by simpa using hw)
      rw [Option.mem_def.mp hm]
      rfl
  | hanging =>
    rw [hr] at suits
    refine .suspended (f := ⟨t, _, none⟩) ht free hc rfl (by simp) (fun _ => Or.inl hr) ?_ suits
      fun _ hw => hd (by simpa using hw)
    cases hdl : c.deadline? with
    | none => exact Or.inr ⟨hr, rfl⟩
    | some deadline => exact Or.inl rfl
  | brokenOff text =>
    rw [hr] at suits
    cases suits

theorem isLocal_of_advance {seconds : Float} {a : Access}
    (h : s.system.observe (.advance t seconds) = some (t, .access a)) : a.isLocal = true := by
  simp only [System.observe] at h
  split at h <;> simp at h
  · obtain rfl := h
    rfl
  · obtain rfl := h
    rfl

/-- A task makes no call where it waits for no answer. -/
theorem advance_ne_call {seconds : Float} (c : Call) (reply : c.Reply) :
    s.system.observe (.advance t seconds) ≠ some (t, .access (.call c reply)) := by
  intro h
  simp only [System.observe] at h
  split at h <;> simp at h

theorem move_of_stepTask (faultless : s.faults = []) (h : s.stepTask t = some s') : Move s (.step t) s' := by
  unfold stepTask at h
  split at h
  · cases h
  · rename_i hfree
    have free : ∀ f ∈ s.inFlight, f.task ≠ t := by simpa using hfree
    split at h
    · rename_i c hcall
      obtain rfl := Option.some.inj h
      unfold System.call? at hcall
      split at hcall
      · rename_i op lock c' next ht
        cases hcall
        cases c with
        | stage uri kind root =>
          simp only [place]
          rw [deliver_eq ht rfl]
          · have step : Program.Step (.call (.stage uri kind root) next) s.system.registry
                (.call (.stage uri kind root) (s.locator.locate uri kind root s.world).1)
                (next (s.locator.locate uri kind root s.world).1) s.system.registry := .call _
            exact .turned ht (.access rfl step) free (by rintro _ ⟨⟩; rfl) (by rintro _ _ _ _ ⟨⟩; rfl)
          · rfl
        | ask bc =>
          simp only [place, ask_eq faultless]
          exact move_of_respond ht free rfl fun hd => by cases hd
        | askWithin bc deadline =>
          simp only [place, ask_eq faultless]
          exact move_of_respond ht free rfl fun _ => by cases bc <;> rfl
      · cases hcall
    · rename_i hcall
      obtain ⟨system, hs, rfl⟩ := Option.map_eq_some_iff.mp h
      obtain ⟨task, o, ht, turn, ho⟩ := System.turn_of_advance hs
      refine .turned ht turn free ?_ ?_
      · rintro a rfl
        exact isLocal_of_advance ho
      · rintro uri kind root reply rfl
        exact absurd ho (advance_ne_call _ _)

/-- Whatever happens is one of the moves. -/
theorem move_of_after (faultless : s.faults = []) (awaited : ∀ f ∈ s.inFlight, s.Awaited f)
    {incident : Incident} (h : s.after incident = some s') : Move s incident s' := by
  cases incident with
  | submit op =>
    obtain rfl := Option.some.inj h
    unfold submit
    split
    · exact .refused op
    · exact .submitted op
  | step t => exact move_of_stepTask faultless h
  | wake moment t =>
    simp only [after] at h
    split at h
    · rename_i f hf
      split at h
      · rename_i hw
        obtain rfl := Option.some.inj h
        have hm := List.mem_of_find?_eq_some hf
        obtain rfl : f.task = t := by simpa using List.find?_some hf
        obtain ⟨op, lock, c, next, ht, served, late⟩ := awaited f hm
        cases hst : f.startup with
        | none =>
          obtain ⟨reply, hr⟩ := Option.isSome_iff_exists.mp (late hst hw)
          simp only [wakeAt, wake, hst]
          rw [deliver_eq ht hr]
          · exact .late hm ht hst hr
          · rfl
        | some st =>
          obtain ⟨reply, hr⟩ := Option.isSome_iff_exists.mp (served (s.backend.finish st).1)
          simp only [wakeAt, wake, hst]
          rw [deliver_eq ht hr]
          · exact .finished hm ht hst hr
          · rfl
      · cases h
    · cases h
  | disturb d =>
    obtain rfl := Option.some.inj h
    exact .disturbed d
  | store world =>
    obtain rfl := Option.some.inj h
    exact .stored world

end Simulation
end ServingLifecycle
