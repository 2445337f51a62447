import ServingLifecycle.Proofs.Backend.Calls
import ServingLifecycle.Proofs.Program.About
/-!
# The share of a slot in the backend

As long as every service of the backend is at home in its slot, what a call for a slot comes to hangs on the
services of that slot alone, and it leaves the services of every other slot as they are.
-/
namespace ServingLifecycle

/-- A service on its way up whose end concerns one slot alone. -/
structure Startup.BelongsTo (home : Uuid → Identity) (i : Identity) (st : Startup) : Prop where
  service : st.service.BelongsTo home i
  replaced : ∀ u ∈ st.replaced, home u = i

namespace SimulatedBackend

/-- Every service is of the slot that is its home. -/
def Housed (home : Uuid → Identity) (b : SimulatedBackend) : Prop :=
  ∀ s ∈ b.services, home s.uuid = s.identity

variable {home : Uuid → Identity} {i j : Identity} {b : SimulatedBackend} {u : Uuid} {service : Service}

theorem mem_share {s : Service} : s ∈ (b.share i).services ↔ s ∈ b.services ∧ s.identity = i := by
  simp [share, servicesOf]

@[simp] theorem share_see (call : CallRecord) : (b.see call).share i = b.share i := rfl

@[simp] theorem offline_share : (b.share i).offline = b.offline := rfl

theorem share_share : (b.share i).share i = b.share i := by
  simp [share, servicesOf]

theorem share_setState (state : ServiceState) : (b.setState u state).share i = (b.share i).setState u state := by
  unfold share setState servicesOf
  have hf : ((fun s : Service => decide (s.identity = i)) ∘
      fun s => if s.uuid = u then s.withState state else s) = fun s => decide (s.identity = i) := by
    funext s
    by_cases h : s.uuid = u <;> simp [h]
  simp [List.filter_map, hf]

/-- Services without the id are left alone. -/
theorem map_eq_self_of_not_mem {f : Service → Service} (h : ∀ s ∈ b.services, s.uuid ≠ u) :
    (b.services.map fun s => if s.uuid = u then f s else s) = b.services := by
  have hs : ∀ s ∈ b.services, (if s.uuid = u then f s else s) = s := fun s hs => if_neg (h s hs)
  rw [List.map_congr_left hs, List.map_id']

theorem Housed.not_mem_share (h : b.Housed home) (hu : home u = i) (hj : j ≠ i) :
    ∀ s ∈ (b.share j).services, s.uuid ≠ u := by
  intro s hs e
  obtain ⟨hm, rfl⟩ := mem_share.mp hs
  exact hj ((h s hm).symm.trans (e ▸ hu))

theorem share_setState_of_ne (h : b.Housed home) (hu : home u = i) (hj : j ≠ i)
    (state : ServiceState) : (b.setState u state).share j = b.share j := by
  rw [share_setState]
  exact congrArg (fun l => { b.share j with services := l })
    (map_eq_self_of_not_mem (h.not_mem_share hu hj))

theorem Housed.find?_share (h : b.Housed home) (hu : home u = i) : (b.share i).find? u = b.find? u := by
  unfold share find? servicesOf
  rw [List.find?_filter, ← List.head?_filter, ← List.head?_filter]
  refine congrArg List.head? (List.filter_congr fun s hs => ?_)
  have hi : s.uuid = u → s.identity = i := fun e => by rw [← h s hs, e, hu]
  by_cases e : s.uuid = u <;> simp [e, hi]

/-- Who takes the place of a service is of the same slot. -/
theorem Housed.share_replace (h : b.Housed home) (hs : service.BelongsTo home i) (j : Identity) :
    ({ b with
      services := b.services.map fun s : Service => if s.uuid = service.uuid then service else s }
        : SimulatedBackend).share j =
      { b.share j with
        services := (b.share j).services.map fun s : Service =>
          if s.uuid = service.uuid then service else s } := by
  unfold share servicesOf
  simp only [List.filter_map]
  congr 2
  refine List.filter_congr fun s hm => ?_
  by_cases e : s.uuid = service.uuid
  · have hi : s.identity = i := by rw [← h s hm, e, hs.2]
    simp [e, hi, hs.1]
  · simp [e]

theorem share_put (h : b.Housed home) (hs : service.BelongsTo home i) :
    (b.put service).share i = (b.share i).put service := by
  unfold put
  rw [h.find?_share hs.2]
  split
  · exact h.share_replace hs i
  · simp [share, servicesOf, hs.1]

theorem share_put_of_ne (h : b.Housed home) (hs : service.BelongsTo home i) (hj : j ≠ i) :
    (b.put service).share j = b.share j := by
  unfold put
  split
  · rw [h.share_replace hs j]
    exact congrArg (fun l => { b.share j with services := l })
      (map_eq_self_of_not_mem (f := fun _ => service) (h.not_mem_share hs.2 hj))
  · have : service.identity ≠ j := hs.1 ▸ hj.symm
    simp [share, servicesOf, this]

theorem Housed.put (h : b.Housed home) (hs : service.BelongsTo home i) : (b.put service).Housed home := by
  intro s hm
  rcases mem_put hm with rfl | ⟨hm, _⟩
  · rw [hs.2, hs.1]
  · exact h s hm

theorem Housed.setState (h : b.Housed home) (state : ServiceState) : (b.setState u state).Housed home := by
  intro s hm
  obtain ⟨t, ht, rfl⟩ := mem_setState hm
  split <;> exact h t ht

theorem share_without (us : List Uuid) : (b.without us).share i = (b.share i).without us := by
  simp [share, without, servicesOf, Bool.and_comm]

theorem Housed.share_without_of_ne {us : List Uuid} (h : b.Housed home) (hus : ∀ u ∈ us, home u = i)
    (hj : j ≠ i) : (b.without us).share j = b.share j := by
  have hf : (b.share j).services.filter (fun s => !us.contains s.uuid) = (b.share j).services := by
    refine List.filter_eq_self.mpr fun s hs => ?_
    have hn : s.uuid ∉ us := fun hu => h.not_mem_share (hus _ hu) hj s hs rfl
    simpa using hn
  rw [share_without, without, hf]

theorem Housed.without {us : List Uuid} (h : b.Housed home) : (b.without us).Housed home :=
  fun s hs => h s (mem_without.mp hs).1

variable {st : Startup}

theorem Housed.finish (h : b.Housed home) (hst : st.BelongsTo home i) : (b.finish st).2.Housed home := by
  cases ht : st.inTime with
  | true =>
    rw [finish_inTime ht]
    exact (h.put (hst.service.withState .running)).without
  | false =>
    rw [finish_late ht]
    exact h

/-- The end of a wait concerns the share of its slot alone. -/
theorem Housed.share_finish (h : b.Housed home) (hst : st.BelongsTo home i) :
    (b.share i).finish st = ((b.finish st).1, (b.finish st).2.share i) := by
  cases ht : st.inTime with
  | true => rw [finish_inTime ht, finish_inTime ht, share_without, share_put h (hst.service.withState .running)]
  | false => rw [finish_late ht, finish_late ht]

theorem Housed.share_finish_of_ne (h : b.Housed home) (hst : st.BelongsTo home i) (hj : j ≠ i) :
    (b.finish st).2.share j = b.share j := by
  have hs := hst.service.withState .running
  cases ht : st.inTime with
  | true => rw [finish_inTime ht, (h.put hs).share_without_of_ne hst.replaced hj, share_put_of_ne h hs hj]
  | false => rw [finish_late ht]

variable {us : List Uuid} {timeout : Duration} {birth : Birth} {c : BackendCall}

theorem Housed.belongsTo_of_find? (h : b.Housed home) (hu : home u = i) {s : Service}
    (hs : b.find? u = some s) : s.BelongsTo home i := by
  obtain ⟨hm, rfl⟩ := mem_of_find? hs
  exact ⟨(h s hm).symm.trans hu, hu⟩

theorem Housed.share_launch (h : b.Housed home) (hs : service.BelongsTo home i) (call : CallRecord) :
    (((b.share i).see call).launch service us timeout).1 = ((b.see call).launch service us timeout).1 ∧
      (((b.share i).see call).launch service us timeout).2.share i =
        ((b.see call).launch service us timeout).2.share i := by
  have hs' := hs.withState .starting
  have hshare : (b.share i).Housed home := fun s hm => h s (mem_share.mp hm).1
  have left : (((b.share i).see call).put (service.withState .starting)).share i =
      (b.share i).put (service.withState .starting) := by
    have hput := share_put (b := (b.share i).see call) hshare hs'
    rwa [share_see, share_share] at hput
  have right : ((b.see call).put (service.withState .starting)).share i =
      (b.share i).put (service.withState .starting) := share_put h hs'
  exact ⟨rfl, left.trans right.symm⟩

theorem newService_belongsTo {layout : Layout} {runId : String} (hb : home birth.uuid = i) :
    (newService birth layout i runId).BelongsTo home i :=
  ⟨rfl, hb⟩

theorem Housed.share_deploy (h : b.Housed home) (hb : home birth.uuid = i) (layout : Layout)
    (runId : String) (replace : Bool) (timeout : Duration) :
    ((b.share i).deploy birth layout i runId replace timeout).1 =
        (b.deploy birth layout i runId replace timeout).1 ∧
      ((b.share i).deploy birth layout i runId replace timeout).2.share i =
        (b.deploy birth layout i runId replace timeout).2.share i := by
  have hs : (newService birth layout i runId).BelongsTo home i := newService_belongsTo hb
  have hservices : (b.share i).servicesOf i = b.servicesOf i := by simp [share, servicesOf]
  rw [deploy_eq, deploy_eq, offline_share, hservices]
  split
  · exact ⟨rfl, share_share⟩
  · exact h.share_launch hs _

theorem Housed.share_start (h : b.Housed home) {s : Service} (hs : s.BelongsTo home i)
    (timeout : Duration) :
    ((b.share i).start s timeout).1 = (b.start s timeout).1 ∧
      ((b.share i).start s timeout).2.share i = (b.start s timeout).2.share i := by
  rw [start_eq, start_eq, offline_share, h.find?_share hs.2]
  split
  · exact ⟨rfl, share_share⟩
  · split
    · exact ⟨rfl, share_share⟩
    · rename_i current hc
      split
      · exact ⟨rfl, share_share⟩
      · exact h.share_launch (h.belongsTo_of_find? hs.2 hc) _

theorem share_stop (s : Service) : ((b.share i).stop s).1 = (b.stop s).1 ∧
    ((b.share i).stop s).2.share i = (b.stop s).2.share i := by
  rw [stop_eq, stop_eq, offline_share]
  split
  · exact ⟨rfl, share_share⟩
  · refine ⟨rfl, ?_⟩
    rw [share_setState, share_setState, share_see, share_see, share_share]

theorem Housed.share_status (h : b.Housed home) {s : Service} (hs : s.BelongsTo home i) :
    ((b.share i).status s).1 = (b.status s).1 ∧ ((b.share i).status s).2.share i = (b.status s).2.share i := by
  rw [status_eq, status_eq, offline_share, h.find?_share hs.2]
  split
  · exact ⟨rfl, share_share⟩
  · exact ⟨rfl, share_share⟩

/-- The birth that a deployment makes use of is at home in the slot. -/
def Makes (home : Uuid → Identity) (i : Identity) (birth : Birth) : BackendCall → Prop
  | .deploy .. => home birth.uuid = i
  | _ => True

/-- What a call comes to for a slot hangs on the share of the slot. -/
theorem Housed.share_take (h : b.Housed home) (hc : c.BelongsTo home i) (hb : Makes home i birth c) :
    ((b.share i).take birth c).1 = (b.take birth c).1 ∧
      ((b.share i).take birth c).2.share i = (b.take birth c).2.share i := by
  cases c with
  | deploy layout j runId replace timeout =>
    obtain rfl : j = i := hc
    have hd := h.share_deploy hb layout runId replace timeout
    exact ⟨congrArg Simulation.Response.ofBeginning hd.1, hd.2⟩
  | start s timeout =>
    have hd := h.share_start hc timeout
    exact ⟨congrArg Simulation.Response.ofBeginning hd.1, hd.2⟩
  | stop s =>
    have hd := share_stop (b := b) (i := i) s
    exact ⟨congrArg (fun r => Simulation.Response.answered (.stopped r)) hd.1, hd.2⟩
  | status s =>
    have hd := h.share_status hc
    exact ⟨congrArg (fun r => Simulation.Response.answered (.told r)) hd.1, hd.2⟩

/-- A launch concerns one slot alone. -/
theorem Housed.launch_of_ne (h : b.Housed home) (hs : service.BelongsTo home i) (call : CallRecord)
    (hj : j ≠ i) : ((b.see call).launch service us timeout).2.share j = b.share j :=
  share_put_of_ne (b := b.see call) h (hs.withState .starting) hj

variable {response : Simulation.Response} {b' : SimulatedBackend}

theorem Taken.share_of_ne (ht : Taken b birth c response b') (h : b.Housed home) (hc : c.BelongsTo home i)
    (hb : Makes home i birth c) (hj : j ≠ i) : b'.share j = b.share j := by
  cases ht with
  | offline | unknown | running | told => rfl
  | started call _ hf => exact h.launch_of_ne (h.belongsTo_of_find? hc.2 hf) call hj
  | deployed call =>
    cases hc
    exact h.launch_of_ne (newService_belongsTo hb) call hj
  | stopped call => exact share_setState_of_ne (b := b.see call) h hc.2 hj .stopped

theorem Taken.housed (ht : Taken b birth c response b') (h : b.Housed home) (hc : c.BelongsTo home i)
    (hb : Makes home i birth c) : b'.Housed home := by
  cases ht with
  | offline | unknown | running | told => exact h
  | started call _ hf =>
    exact Housed.put (b := b.see call) h ((h.belongsTo_of_find? hc.2 hf).withState .starting)
  | deployed call =>
    cases hc
    exact Housed.put (b := b.see call) h ((newService_belongsTo hb).withState .starting)
  | stopped call => exact Housed.setState (b := b.see call) h .stopped

end SimulatedBackend

/-- What a response brings now or later belongs to the slot. -/
def Simulation.Response.BelongsTo (home : Uuid → Identity) (i : Identity) : Simulation.Response → Prop
  | answered a => ∀ s ∈ a.descriptor, s.BelongsTo home i
  | waiting st => st.BelongsTo home i
  | _ => True

namespace SimulatedBackend

variable {home : Uuid → Identity} {i : Identity} {b : SimulatedBackend} {birth : Birth} {c : BackendCall}

theorem launch_belongsTo {service : Service} {us : List Uuid} {timeout : Duration}
    (hs : service.BelongsTo home i) (hus : ∀ u ∈ us, home u = i) :
    (Simulation.Response.ofBeginning (b.launch service us timeout).1).BelongsTo home i := by
  unfold launch
  split
  · trivial
  · exact ⟨hs.withState .starting, hus⟩

theorem Housed.home_of_servicesOf (h : b.Housed home) : ∀ u ∈ (b.servicesOf i).map Service.uuid, home u = i := by
  intro u hu
  obtain ⟨s, hs, rfl⟩ := List.mem_map.mp hu
  obtain ⟨hm, hi⟩ := List.mem_filter.mp hs
  exact (h s hm).trans (by simpa using hi)

theorem Taken.belongsTo {response : Simulation.Response} {b' : SimulatedBackend}
    (ht : Taken b birth c response b') (h : b.Housed home) (hc : c.BelongsTo home i)
    (hb : Makes home i birth c) : response.BelongsTo home i := by
  cases ht with
  | offline call => cases c <;> exact fun s hs => by cases hs
  | unknown call => exact fun s hs => by cases hs
  | running call _ hf =>
    rintro s ⟨⟩
    exact h.belongsTo_of_find? hc.2 hf
  | started call _ hf => exact launch_belongsTo (h.belongsTo_of_find? hc.2 hf) (by simp)
  | deployed call =>
    cases hc
    refine launch_belongsTo (newService_belongsTo hb) ?_
    split
    · exact h.home_of_servicesOf
    · simp
  | stopped call => exact fun s hs => by cases hs
  | told call => exact fun s hs => by cases hs

theorem finish_belongsTo {st : Startup} (hst : st.BelongsTo home i) :
    ∀ s ∈ (Answer.served (b.finish st).1).descriptor, s.BelongsTo home i := by
  intro s hs
  cases ht : st.inTime with
  | true =>
    rw [finish_inTime ht] at hs
    cases hs
    exact hst.service.withState .running
  | false =>
    rw [finish_late ht] at hs
    cases hs
    exact hst.service

end SimulatedBackend
end ServingLifecycle
