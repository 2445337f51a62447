import ServingLifecycle.Proofs.Backend.Share
import ServingLifecycle.Proofs.Slot.Running
import ServingLifecycle.Simulation.Incident
/-!
# What runs in the simulated backend

A call starts nothing at once: a service runs only when the wait for it is over. What the backend replies
tells the truth about what runs, and disturbances only stop services.
-/
namespace ServingLifecycle

/-- What the reply to a call tells a program that asked for it. -/
theorem Call.tells_of_reply {call : Call} {c : BackendCall} {a : Answer} {reply : call.Reply} {r : c.Reply}
    {offline : Option Bool} {up up' : Set Uuid} (hc : call.backendCall? = some c)
    (hr : call.reply? a = some reply) (ha : (Call.ask c).reply? a = some r)
    (told : c.Tells offline up r up') : call.Tells offline up reply up' := by
  cases call with
  | stage => cases hc
  | ask c' =>
    cases hc
    obtain rfl := Option.some.inj (ha.symm.trans hr)
    exact .asked told
  | askWithin c' deadline =>
    cases hc
    have : reply = some r := by cases c <;> cases a <;> cases ha <;> cases hr <;> rfl
    subst this
    exact .answered told

theorem Call.tells_of_late {call : Call} {reply : call.Reply} {offline : Option Bool} {up : Set Uuid}
    (hr : call.reply? .late = some reply) : call.Tells offline up reply up := by
  cases call with
  | stage => cases hr
  | ask c => cases c <;> cases hr
  | askWithin c deadline =>
    cases c <;> cases hr <;> exact .late

/-- The call tears the other services of its slot down. -/
def BackendCall.replaces : BackendCall → Bool
  | deploy _ _ _ replace _ => replace
  | _ => false

namespace SimulatedBackend

variable {b : SimulatedBackend} {service : Service} {u v : Uuid} {us : List Uuid} {i : Identity}

theorem runningIn_put (h : u ∈ runningIn (b.put service).services) :
    (u = service.uuid ∧ service.isRunning = true) ∨ (u ∈ runningIn b.services ∧ u ≠ service.uuid) := by
  obtain ⟨s, hs, rfl, hr⟩ := h
  rcases mem_put hs with rfl | ⟨hm, hne⟩
  · exact Or.inl ⟨rfl, hr⟩
  · exact Or.inr ⟨⟨s, hm, rfl, hr⟩, hne⟩

theorem runningIn_stop (h : u ∈ runningIn (b.setState v .stopped).services) :
    u ∈ runningIn b.services ∧ u ≠ v := by
  obtain ⟨s, hs, rfl, hr⟩ := h
  obtain ⟨t, ht, rfl⟩ := mem_setState hs
  split at hr
  · cases hr
  · rename_i hne
    rw [if_neg hne]
    exact ⟨⟨t, ht, rfl, hr⟩, hne⟩

theorem runningIn_without (h : u ∈ runningIn (b.without us).services) : u ∈ runningIn b.services ∧ u ∉ us := by
  obtain ⟨s, hs, rfl, hr⟩ := h
  obtain ⟨hm, hn⟩ := mem_without.mp hs
  exact ⟨⟨s, hm, rfl, hr⟩, hn⟩

theorem runningIn_share : runningIn (b.share i).services ⊆ runningIn b.services := by
  rintro u ⟨s, hs, e, hr⟩
  exact ⟨s, (mem_share.mp hs).1, e, hr⟩

/-- No id stands twice in the backend. -/
def Distinct (b : SimulatedBackend) : Prop :=
  (b.services.map Service.uuid).Nodup

theorem Distinct.map (h : b.Distinct) {f : Service → Service} (hf : ∀ s, (f s).uuid = s.uuid) :
    ({ b with services := b.services.map f } : SimulatedBackend).Distinct := by
  have hmap : (b.services.map f).map Service.uuid = b.services.map Service.uuid := by
    rw [List.map_map]
    exact List.map_congr_left fun s _ => hf s
  unfold Distinct
  rw [hmap]
  exact h

theorem Distinct.put (h : b.Distinct) (service : Service) : (b.put service).Distinct := by
  unfold SimulatedBackend.put
  split
  · refine h.map fun s => ?_
    by_cases e : s.uuid = service.uuid <;> simp [e]
  · rename_i hn
    have hnew : service.uuid ∉ b.services.map Service.uuid := by
      intro hm
      obtain ⟨s, hs, e⟩ := List.mem_map.mp hm
      exact hn (List.find?_isSome.mpr ⟨s, hs, by simpa using e⟩)
    change ((b.services ++ [service]).map Service.uuid).Nodup
    rw [List.map_append, List.nodup_append]
    refine ⟨h, by simp, fun a ha c hc e => hnew ?_⟩
    rw [List.map_singleton, List.mem_singleton] at hc
    exact hc ▸ e ▸ ha

theorem Distinct.setState (h : b.Distinct) (state : ServiceState) : (b.setState u state).Distinct := by
  refine h.map fun s => ?_
  by_cases e : s.uuid = u <;> simp [e]

theorem Distinct.without (h : b.Distinct) : (b.without us).Distinct :=
  h.sublist (List.filter_sublist.map Service.uuid)

theorem Distinct.share (h : b.Distinct) (i : Identity) : (b.share i).Distinct :=
  h.sublist (List.filter_sublist.map Service.uuid)

theorem own_setState (own : ∀ s ∈ b.services, s.identity = i) (v : Uuid) (state : ServiceState) :
    ∀ s ∈ (b.setState v state).services, s.identity = i := by
  intro s hs
  obtain ⟨t, ht, rfl⟩ := mem_setState hs
  split
  · exact own t ht
  · exact own t ht

theorem own_disturb (own : ∀ s ∈ b.services, s.identity = i) (d : Disturbance) :
    ∀ s ∈ (b.disturb d).services, s.identity = i := by
  cases d with
  | crash uuid => exact own_setState own uuid .stopped
  | _ => exact own

theorem Distinct.disturb (h : b.Distinct) (d : Disturbance) : (b.disturb d).Distinct := by
  cases d with
  | crash uuid => exact h.setState .stopped
  | _ => exact h

theorem Distinct.finish (h : b.Distinct) (st : Startup) : (b.finish st).2.Distinct := by
  cases ht : st.inTime with
  | true =>
    rw [finish_inTime ht]
    exact (h.put _).without
  | false =>
    rw [finish_late ht]
    exact h

variable {birth : Birth} {c : BackendCall} {response : Simulation.Response} {b' : SimulatedBackend}

theorem Taken.distinct (ht : Taken b birth c response b') (h : b.Distinct) : b'.Distinct := by
  cases ht with
  | offline | unknown | running | told => exact h
  | started call | deployed call => exact Distinct.put (b := b.see call) h _
  | stopped call => exact Distinct.setState (b := b.see call) h .stopped

variable {offline : Option Bool} {up up' : Set Uuid}

/-- What runs is bounded, and the backend is offline or online as it should be. -/
structure Bounded (offline : Option Bool) (up : Set Uuid) (b : SimulatedBackend) : Prop where
  running : runningIn b.services ⊆ up
  offline : ∀ o ∈ offline, b.offline = o

theorem Bounded.share (h : b.Bounded offline up) (i : Identity) : (b.share i).Bounded offline up :=
  ⟨runningIn_share.trans h.running, h.offline⟩

theorem runningIn_disturb {d : Disturbance} : runningIn (b.disturb d).services ⊆ runningIn b.services := by
  cases d with
  | crash uuid => exact fun u hu => (runningIn_stop hu).1
  | _ => exact Set.Subset.rfl

/-- What is certain stays so, unless an outage comes or goes. -/
theorem Bounded.disturb (h : b.Bounded offline up) {d : Disturbance}
    (steady : ∀ o, d = .setOffline o → offline = none) : (b.disturb d).Bounded offline up := by
  refine ⟨runningIn_disturb.trans h.running, ?_⟩
  cases d with
  | setOffline o =>
    rw [steady o rfl]
    exact fun o ho => by cases ho
  | _ => exact h.offline

theorem runningIn_launch {call : CallRecord} {timeout : Duration} (h : u ∈ runningIn ((b.see call).launch
    service us timeout).2.services) : u ∈ runningIn b.services ∧ u ≠ service.uuid := by
  rcases runningIn_put h with ⟨_, hr⟩ | hu
  · cases hr
  · exact hu

/-- Nothing runs because of a call alone. -/
theorem Taken.running_subset (ht : Taken b birth c response b') :
    runningIn b'.services ⊆ runningIn b.services := by
  cases ht with
  | offline | unknown | running | told => exact Set.Subset.rfl
  | started call | deployed call => exact fun u hu => (runningIn_launch hu).1
  | stopped call => exact fun u hu => (runningIn_stop hu).1

theorem offline_put : (b.put service).offline = b.offline := by
  unfold put
  split <;> rfl

theorem Taken.offline_eq (ht : Taken b birth c response b') : b'.offline = b.offline := by
  cases ht with
  | started call | deployed call => exact offline_put (b := b.see call)
  | _ => rfl

theorem Taken.bounded (ht : Taken b birth c response b') (h : b.Bounded offline up) : b'.Bounded offline up :=
  ⟨ht.running_subset.trans h.running, ht.offline_eq.symm ▸ h.offline⟩

theorem Bounded.online (h : b.Bounded offline up) (online : b.offline = false) : offline ≠ some true := by
  rintro rfl
  rw [h.offline true rfl] at online
  cases online

/-- The state that is told of a service is that it runs if it does. -/
theorem told_running_iff (distinct : b.Distinct) : (match b.find? u with
    | some current => current.state
    | none => .absent) = ServiceState.running ↔ u ∈ runningIn b.services := by
  cases hf : b.find? u with
  | none =>
    refine iff_of_false (fun h => by cases h) ?_
    rintro ⟨s, hs, e, _⟩
    have := List.find?_eq_none.mp hf s hs
    simp [e] at this
  | some current =>
    obtain ⟨hm, rfl⟩ := mem_of_find? hf
    constructor
    · exact fun h => ⟨current, hm, rfl, (Service.isRunning_iff _).mpr h⟩
    · exact fun h => (Service.isRunning_iff _).mp (isRunning_of_mem_runningIn distinct hm h)

theorem launch_ne_answered {call : CallRecord} {timeout : Duration} {a : Answer} :
    Simulation.Response.ofBeginning ((b.see call).launch service us timeout).1 ≠ .answered a := by
  unfold launch
  split <;> exact fun h => by cases h

/-- A reply that comes at once tells the truth. -/
theorem Bounded.answered {call : Call} {a : Answer} {reply : call.Reply} (h : b.Bounded offline up)
    (distinct : b.Distinct) (hc : call.backendCall? = some c) (ha : (b.take birth c).1 = .answered a)
    (hr : call.reply? a = some reply) :
    ∃ up', call.Tells offline up reply up' ∧ (b.take birth c).2.Bounded offline up' := by
  have ht := taken b birth c
  rw [ha] at ht
  generalize hresponse : Simulation.Response.answered a = response at ht
  generalize (b.take birth c).2 = b' at ht ⊢
  cases ht with
  | offline call' ho =>
    cases hresponse
    have hreply : (Call.ask c).reply? (Simulation.errorAnswer c.method offlineError) =
        some (.error offlineError) := by cases c <;> rfl
    refine ⟨_, Call.tells_of_reply hc hr hreply (.failed (fun s hs => by cases hs) fun _ => ?_), ?_, h.offline⟩
    · rintro rfl
      rw [h.offline false rfl] at ho
      cases ho
    · exact fun u hu => ⟨h.running hu, fun s hs => by cases hs⟩
  | unknown call' hf =>
    cases hresponse
    refine ⟨_, Call.tells_of_reply hc hr rfl (.failed (fun s hs => by cases hs) fun hm => by cases hm), ?_,
      h.offline⟩
    exact fun u hu => ⟨h.running hu, fun s hs => by cases hs⟩
  | running call' online hf hrun =>
    cases hresponse
    refine ⟨_, Call.tells_of_reply hc hr rfl (.started (h.online online) (mem_of_find? hf).2 hrun), ?_,
      h.offline⟩
    exact h.running.trans (Set.subset_insert _ _)
  | started | deployed => exact absurd hresponse.symm launch_ne_answered
  | stopped call' online =>
    cases hresponse
    refine ⟨_, Call.tells_of_reply hc hr rfl .stopped, fun u hu => ?_, h.offline⟩
    obtain ⟨hu, hne⟩ := runningIn_stop hu
    exact ⟨h.running hu, hne⟩
  | told call' online =>
    cases hresponse
    refine ⟨_, Call.tells_of_reply hc hr rfl (.told fun hs => ?_), fun u hu => ⟨h.running hu, ?_⟩, h.offline⟩
    · exact h.running ((told_running_iff distinct).mp hs)
    · rintro rfl
      exact (told_running_iff distinct).mpr hu

/-- A service of the backend on its way up, for a call that waits for it. -/
structure Underway (offline : Option Bool) (c : BackendCall) (b : SimulatedBackend) (st : Startup) : Prop where
  online : offline ≠ some true
  settled : st.service.isRunning = false
  down : st.service.uuid ∉ runningIn b.services
  same : ∀ s timeout, c = .start s timeout → st.service.uuid = s.uuid
  others : c.replaces = true → ∀ s ∈ b.services, s.uuid ≠ st.service.uuid → s.uuid ∈ st.replaced

/-- A call that waits for a service has set it on its way up. -/
theorem Bounded.underway {st : Startup} (h : b.Bounded offline up)
    (own : ∀ s ∈ b.services, s.identity = c.identity) (ha : (b.take birth c).1 = .waiting st) :
    Underway offline c (b.take birth c).2 st := by
  have ht := taken b birth c
  rw [ha] at ht
  generalize hresponse : Simulation.Response.waiting st = response at ht
  generalize (b.take birth c).2 = b' at ht ⊢
  cases ht with
  | offline | unknown | running | stopped | told => cases hresponse
  | started call online hf =>
    obtain ⟨hs, hus⟩ := of_launch_waiting hresponse.symm
    refine ⟨h.online online, by rw [hs]; rfl, fun hu => ?_, fun s timeout hc => ?_, fun hr => by cases hr⟩
    · rw [hs] at hu
      exact (runningIn_launch hu).2 rfl
    · cases hc
      rw [hs]
      exact (mem_of_find? hf).2
  | @deployed layout i runId replace timeout call online =>
    obtain ⟨hs, hus⟩ := of_launch_waiting hresponse.symm
    refine ⟨h.online online, by rw [hs]; rfl, fun hu => ?_, fun s timeout hc => ?_, fun hr s hm hne => ?_⟩
    · rw [hs] at hu
      exact (runningIn_launch hu).2 rfl
    · cases hc
    · rcases mem_put hm with rfl | ⟨hm, _⟩
      · exact absurd (congrArg Service.uuid hs.symm) hne
      · rw [hus, if_pos (show replace = true from hr)]
        exact List.mem_map_of_mem (List.mem_filter.mpr ⟨hm, decide_eq_true (own s hm)⟩)

theorem Underway.disturb {st : Startup} (h : Underway offline c b st) (d : Disturbance) :
    Underway offline c (b.disturb d) st := by
  refine ⟨h.online, h.settled, fun hu => h.down (runningIn_disturb hu), h.same, fun hr s hs => ?_⟩
  cases d with
  | crash uuid =>
    obtain ⟨t, ht, rfl⟩ := mem_setState hs
    have e : (if t.uuid = uuid then t.withState .stopped else t).uuid = t.uuid := by split <;> rfl
    rw [e]
    exact h.others hr t ht
  | _ => exact h.others hr s hs

theorem Underway.share {st : Startup} (h : Underway offline c b st) (i : Identity) :
    Underway offline c (b.share i) st :=
  ⟨h.online, h.settled, fun hu => h.down (runningIn_share hu), h.same,
    fun hr s hs => h.others hr s (mem_share.mp hs).1⟩

/-- The end of a wait tells the truth. -/
theorem Bounded.finish {call : Call} {reply : call.Reply} {st : Startup} (h : b.Bounded offline up)
    (underway : Underway offline c b st) (hc : call.backendCall? = some c)
    (hr : call.reply? (.served (b.finish st).1) = some reply) :
    ∃ up', call.Tells offline up reply up' ∧ (b.finish st).2.Bounded offline up' := by
  cases ht : st.inTime with
  | false =>
    rw [finish_late ht] at hr ⊢
    have settled : ∀ s ∈ (BackendError.startTimeout (some st.service)).handedOver, s.isRunning = false := by
      rintro s ⟨⟩
      exact underway.settled
    have running : runningIn b.services ⊆
        { u ∈ up | ∀ s ∈ (BackendError.startTimeout (some st.service)).handedOver, u ≠ s.uuid } := by
      refine fun u hu => ⟨h.running hu, ?_⟩
      rintro s ⟨⟩ rfl
      exact underway.down hu
    cases c with
    | deploy | start =>
      exact ⟨_, Call.tells_of_reply hc hr rfl (.failed settled fun hm => by cases hm), running, h.offline⟩
    | stop | status => cases call <;> cases hc <;> cases hr
  | true =>
    rw [finish_inTime ht] at hr ⊢
    have offline' : ∀ o ∈ offline, (b.put (st.service.withState .running)).offline = o := by
      rw [offline_put]
      exact h.offline
    -- the service itself, or one that ran before and is not torn down
    have running : ∀ u ∈ runningIn ((b.put (st.service.withState .running)).without st.replaced).services,
        u = st.service.uuid ∨ (u ∈ runningIn b.services ∧ u ≠ st.service.uuid ∧ u ∉ st.replaced) := by
      intro u hu
      obtain ⟨hu, hn⟩ := runningIn_without hu
      exact (runningIn_put hu).imp And.left fun hu => ⟨hu.1, hu.2, hn⟩
    cases c with
    | deploy layout i runId replace timeout =>
      refine ⟨_, Call.tells_of_reply hc hr rfl (.deployed underway.online rfl), fun u hu => ?_, offline'⟩
      split
      · rename_i hreplace
        rcases running u hu with rfl | ⟨⟨s, hs, rfl, _⟩, hne, hn⟩
        · rfl
        · exact absurd (underway.others hreplace s hs hne) hn
      · exact (running u hu).imp id fun hu => h.running hu.1
    | start s timeout =>
      refine ⟨_, Call.tells_of_reply hc hr rfl (.started underway.online (underway.same s timeout rfl) rfl),
        fun u hu => ?_, offline'⟩
      exact (running u hu).imp id fun hu => h.running hu.1
    | stop | status => cases call <;> cases hc <;> cases hr

end SimulatedBackend
end ServingLifecycle
