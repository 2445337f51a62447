import Mathlib.Data.List.Basic
import ServingLifecycle.Proofs.Program.Steps
import ServingLifecycle.Simulation
/-!
# Calls to the simulated backend

What a call to the backend may come to at first, said once for all calls, and what becomes of its services.
-/
namespace ServingLifecycle

/-- The call to the backend, if it is one. -/
def Call.backendCall? : Call → Option BackendCall
  | stage .. => none
  | ask c => some c
  | askWithin c _ => some c

/-- When the caller stops to wait, if ever. -/
def Call.deadline? : Call → Option Duration
  | askWithin _ deadline => some deadline
  | _ => none

/-- How many services come into being at the call. -/
def BackendCall.draws : BackendCall → Nat
  | deploy .. => 1
  | _ => 0

/-- How long the backend may take, for a call that waits for a service. -/
def BackendCall.timeout? : BackendCall → Option Duration
  | deploy _ _ _ _ timeout => some timeout
  | start _ timeout => some timeout
  | _ => none

/-- The descriptor that an answer hands over. -/
def Answer.descriptor : Answer → Option Service
  | served (.ok s) => some s
  | served (.error e) => e.handedOver
  | _ => none

theorem Call.descriptor_of_reply {c : Call} {a : Answer} {reply : c.Reply} (h : c.reply? a = some reply) :
    c.descriptor reply = a.descriptor := by
  cases c with
  | stage =>
    cases a <;> cases h
    rfl
  | ask c =>
    cases c with
    | deploy | start =>
      cases a with
      | served result => cases result <;> cases h <;> rfl
      | _ => cases h
    | stop | status =>
      cases a <;> cases h
      rfl
  | askWithin c deadline =>
    cases c with
    | deploy | start =>
      cases a with
      | served result => cases result <;> cases h <;> rfl
      | late => cases h; rfl
      | _ => cases h
    | stop | status => cases a <;> cases h <;> rfl

namespace SimulatedBackend

/-- The backend with the services of one slot alone. -/
def share (b : SimulatedBackend) (i : Identity) : SimulatedBackend :=
  { b with services := b.servicesOf i, calls := [] }

variable {b : SimulatedBackend} {u : Uuid} {service : Service} {us : List Uuid} {timeout : Duration}
  {birth : Birth}

theorem mem_of_find? {s : Service} (h : b.find? u = some s) : s ∈ b.services ∧ s.uuid = u :=
  ⟨List.mem_of_find?_eq_some h, by simpa using List.find?_some h⟩

theorem mem_put {s : Service} (hs : s ∈ (b.put service).services) :
    s = service ∨ (s ∈ b.services ∧ s.uuid ≠ service.uuid) := by
  unfold put at hs
  split at hs
  · obtain ⟨t, ht, rfl⟩ := List.mem_map.mp hs
    by_cases e : t.uuid = service.uuid
    · simp [e]
    · simp [e, ht]
  · rename_i hn
    rcases List.mem_append.mp hs with hs | hs
    · refine Or.inr ⟨hs, fun e => hn ?_⟩
      exact List.find?_isSome.mpr ⟨s, hs, by simpa using e⟩
    · exact Or.inl (List.mem_singleton.mp hs)

theorem mem_setState {s : Service} {state : ServiceState} (hs : s ∈ (b.setState u state).services) :
    ∃ t ∈ b.services, s = if t.uuid = u then t.withState state else t := by
  obtain ⟨t, ht, rfl⟩ := List.mem_map.mp hs
  exact ⟨t, ht, rfl⟩

theorem uuid_of_mem_setState {s : Service} {state : ServiceState} (hs : s ∈ (b.setState u state).services) :
    ∃ t ∈ b.services, t.uuid = s.uuid := by
  obtain ⟨t, ht, rfl⟩ := mem_setState hs
  exact ⟨t, ht, by split <;> rfl⟩

/-- The backend after some services were torn down. -/
def without (b : SimulatedBackend) (us : List Uuid) : SimulatedBackend :=
  { b with services := b.services.filter fun s => !us.contains s.uuid }

theorem mem_without {s : Service} :
    s ∈ (b.without us).services ↔ s ∈ b.services ∧ s.uuid ∉ us := by
  simp [without]

theorem finish_inTime {st : Startup} (h : st.inTime = true) :
    b.finish st = (.ok (st.service.withState .running),
      (b.put (st.service.withState .running)).without st.replaced) := by
  simp [finish, without, h]

theorem finish_late {st : Startup} (h : st.inTime = false) :
    b.finish st = (.error (.startTimeout (some st.service)), b) := by
  simp [finish, h]

theorem of_launch_waiting {timeout : Duration} {st : Startup}
    (h : Simulation.Response.ofBeginning (b.launch service us timeout).1 = .waiting st) :
    st.service = service.withState .starting ∧ st.replaced = us := by
  unfold launch at h
  split at h
  · cases h
  · cases h
    exact ⟨rfl, rfl⟩

/-- What a call comes to at first. Only a deployment makes use of the birth. -/
def take (b : SimulatedBackend) (birth : Birth) : BackendCall → Simulation.Response × SimulatedBackend
  | .deploy layout i runId replace timeout =>
    let (beginning, b) := b.deploy birth layout i runId replace timeout
    (.ofBeginning beginning, b)
  | .start service timeout =>
    let (beginning, b) := b.start service timeout
    (.ofBeginning beginning, b)
  | .stop service =>
    let (reply, b) := b.stop service
    (.answered (.stopped reply), b)
  | .status service =>
    let (reply, b) := b.status service
    (.answered (.told reply), b)

/-- A new service of a slot. -/
def newService (birth : Birth) (layout : Layout) (i : Identity) (runId : String) : Service :=
  { Service.ofLayout birth i runId layout with url := some (predictionUrl i) }

theorem deploy_eq (layout : Layout) (i : Identity) (runId : String) (replace : Bool) :
    b.deploy birth layout i runId replace timeout =
      if b.offline then (.answered (.error offlineError), b.see (.deploy i layout.servedUri replace))
      else (b.see (.deploy i layout.servedUri replace)).launch (newService birth layout i runId)
        (if replace then (b.servicesOf i).map Service.uuid else []) timeout :=
  rfl

theorem start_eq (s : Service) :
    b.start s timeout =
      if b.offline then (.answered (.error offlineError), b.see (.start s.uuid))
      else match b.find? s.uuid with
        | none => (.answered (.error (.rejected ("unknown service " ++ s.uuid.text))), b.see (.start s.uuid))
        | some current =>
          if current.isRunning then (.answered (.ok current), b.see (.start s.uuid))
          else (b.see (.start s.uuid)).launch current [] timeout :=
  rfl

theorem stop_eq (s : Service) :
    b.stop s =
      if b.offline then (.error offlineError, b.see (.stop s.uuid))
      else (.ok (), (b.see (.stop s.uuid)).setState s.uuid .stopped) :=
  rfl

theorem status_eq (s : Service) :
    b.status s =
      if b.offline then (.error offlineError, b.see (.status s.uuid))
      else (.ok (match b.find? s.uuid with
        | some current => current.state
        | none => .absent), b.see (.status s.uuid)) :=
  rfl

/-- The id that a call draws is none that the backend has. -/
def Unused (b : SimulatedBackend) (birth : Birth) (c : BackendCall) : Prop :=
  c.draws = 1 → ∀ s ∈ b.services, s.uuid ≠ birth.uuid

/-- What a call may come to at first. -/
inductive Taken (b : SimulatedBackend) (birth : Birth) :
    BackendCall → Simulation.Response → SimulatedBackend → Prop
  | offline {c : BackendCall} (call : CallRecord) (h : b.offline = true) :
      Taken b birth c (.answered (Simulation.errorAnswer c.method offlineError)) (b.see call)
  | unknown {s : Service} {timeout : Duration} {text : String} (call : CallRecord)
      (h : b.find? s.uuid = none) :
      Taken b birth (.start s timeout) (.answered (.served (.error (.rejected text)))) (b.see call)
  | running {s current : Service} {timeout : Duration} (call : CallRecord) (online : b.offline = false)
      (h : b.find? s.uuid = some current) (hr : current.isRunning = true) :
      Taken b birth (.start s timeout) (.answered (.served (.ok current))) (b.see call)
  | started {s current : Service} {timeout : Duration} (call : CallRecord) (online : b.offline = false)
      (h : b.find? s.uuid = some current) (hr : current.isRunning = false) :
      Taken b birth (.start s timeout) (.ofBeginning ((b.see call).launch current [] timeout).1)
        ((b.see call).launch current [] timeout).2
  | deployed {layout : Layout} {i : Identity} {runId : String} {replace : Bool} {timeout : Duration}
      (call : CallRecord) (online : b.offline = false) :
      Taken b birth (.deploy layout i runId replace timeout)
        (.ofBeginning ((b.see call).launch (newService birth layout i runId)
          (if replace then (b.servicesOf i).map Service.uuid else []) timeout).1)
        ((b.see call).launch (newService birth layout i runId)
          (if replace then (b.servicesOf i).map Service.uuid else []) timeout).2
  | stopped {s : Service} (call : CallRecord) (online : b.offline = false) :
      Taken b birth (.stop s) (.answered (.stopped (.ok ()))) ((b.see call).setState s.uuid .stopped)
  | told {s : Service} (call : CallRecord) (online : b.offline = false) :
      Taken b birth (.status s) (.answered (.told (.ok (match b.find? s.uuid with
        | some current => current.state
        | none => .absent)))) (b.see call)

theorem taken (b : SimulatedBackend) (birth : Birth) (c : BackendCall) :
    Taken b birth c (b.take birth c).1 (b.take birth c).2 := by
  cases ho : b.offline with
  | true =>
    cases c with
    | deploy layout i runId replace timeout =>
      simp only [take, deploy_eq, ho, if_true]
      exact .offline _ ho
    | start s timeout =>
      simp only [take, start_eq, ho, if_true]
      exact .offline _ ho
    | stop s =>
      simp only [take, stop_eq, ho, if_true]
      exact .offline _ ho
    | status s =>
      simp only [take, status_eq, ho, if_true]
      exact .offline _ ho
  | false =>
    cases c with
    | deploy layout i runId replace timeout =>
      simp only [take, deploy_eq, ho, Bool.false_eq_true, if_false]
      exact .deployed _ ho
    | start s timeout =>
      simp only [take, start_eq, ho, Bool.false_eq_true, if_false]
      cases hf : b.find? s.uuid with
      | none => exact .unknown _ hf
      | some current =>
        cases hr : current.isRunning with
        | true => simpa [hr] using .running _ ho hf hr
        | false => simpa [hr] using .started _ ho hf hr
    | stop s =>
      simp only [take, stop_eq, ho, Bool.false_eq_true, if_false]
      exact .stopped _ ho
    | status s =>
      simp only [take, status_eq, ho, Bool.false_eq_true, if_false]
      exact .told _ ho

end SimulatedBackend
end ServingLifecycle
