import ServingLifecycle.Proofs.Backend.Running
import ServingLifecycle.Proofs.Slot.Stock
/-!
# The stock in the simulated backend

What the backend replies tells of the services that it keeps, as long as calls are not cut short and nothing
crashes unseen, or as far as that does not matter.
-/
namespace ServingLifecycle

/-- What the reply to a call yields to a program that asked for it. -/
theorem Call.yields_of_reply {call : Call} {c : BackendCall} {a : Answer} {reply : call.Reply} {r : c.Reply}
    {favoured : Option Duration} {stock stock' : Stock} (hc : call.backendCall? = some c)
    (hr : call.reply? a = some reply) (ha : (Call.ask c).reply? a = some r)
    (yields : c.Yields favoured stock r stock') : call.Yields favoured stock reply stock' := by
  cases call with
  | stage => cases hc
  | ask c' =>
    cases hc
    obtain rfl := Option.some.inj (ha.symm.trans hr)
    exact .asked yields
  | askWithin c' deadline =>
    cases hc
    have : reply = some r := by cases c <;> cases a <;> cases ha <;> cases hr <;> rfl
    subst this
    exact .answered yields

theorem Call.yields_of_late {call : Call} {reply : call.Reply} {favoured : Option Duration} {stock : Stock}
    (hr : call.reply? .late = some reply) (excused : favoured = none) :
    call.Yields favoured stock reply stock := by
  cases call with
  | stage => cases hr
  | ask c => cases c <;> cases hr
  | askWithin c deadline =>
    cases c <;> cases hr <;> exact .late excused

namespace SimulatedBackend

variable {b b' : SimulatedBackend} {f : Fidelity} {stock : Stock} {service s : Service} {u v : Uuid}
  {us : List Uuid} {state : ServiceState} {i : Identity} {birth : Birth} {c : BackendCall}
  {response : Simulation.Response} {st : Startup} {favoured : Option Duration}

theorem find?_map {h : Service → Service} (hu : ∀ s, (h s).uuid = s.uuid) (l : List Service) :
    (l.map h).find? (fun s => s.uuid = u) = (l.find? fun s => s.uuid = u).map h := by
  rw [List.find?_map]
  have same : (fun s : Service => decide (s.uuid = u)) ∘ h = fun s => decide (s.uuid = u) := by
    funext s
    simp [hu s]
  rw [same]

theorem find?_setState : (b.setState v state).find? u =
    if u = v then (b.find? u).map (·.withState state) else b.find? u := by
  have hmap := find?_map (u := u) (h := fun s => if s.uuid = v then s.withState state else s)
    (fun s => by split <;> rfl) b.services
  refine hmap.trans ?_
  unfold find?
  cases hf : b.services.find? fun s => s.uuid = u with
  | none => simp
  | some t =>
    have ht : t.uuid = u := by simpa using List.find?_some hf
    by_cases hu : u = v <;> simp [ht, hu]

theorem find?_put : (b.put service).find? u = if u = service.uuid then some service else b.find? u := by
  unfold put
  split
  · rename_i hs
    have hmap := find?_map (u := u) (h := fun s => if s.uuid = service.uuid then service else s)
      (fun s => by split <;> simp_all) b.services
    refine hmap.trans ?_
    by_cases hu : u = service.uuid
    · subst hu
      obtain ⟨t, ht⟩ := Option.isSome_iff_exists.mp hs
      have hf : b.services.find? (fun s => s.uuid = service.uuid) = some t := ht
      have hu : t.uuid = service.uuid := by simpa using List.find?_some hf
      simp [hf, hu]
    · rw [if_neg hu]
      cases hf : b.services.find? fun s => s.uuid = u with
      | none => simp [find?, hf]
      | some t =>
        have ht : t.uuid = u := by simpa using List.find?_some hf
        simp [find?, hf, ht, hu]
  · rename_i hs
    unfold find?
    rw [List.find?_append]
    by_cases hu : u = service.uuid
    · subst hu
      have hf : b.services.find? (fun s => s.uuid = service.uuid) = none :=
        Option.not_isSome_iff_eq_none.mp hs
      simp [hf]
    · simp [hu, Ne.symm hu]

theorem find?_without : (b.without us).find? u = if u ∈ us then none else b.find? u := by
  unfold without find?
  rw [List.find?_filter]
  split
  · rename_i hu
    refine List.find?_eq_none.mpr fun s _ => ?_
    by_cases e : s.uuid = u <;> simp [e, hu]
  · rename_i hu
    congr 1
    funext s
    by_cases e : s.uuid = u <;> simp [e, hu]

theorem find?_of_mem (hs : s ∈ b.services) : ∃ t, b.find? s.uuid = some t :=
  Option.isSome_iff_exists.mp (List.find?_isSome.mpr ⟨s, hs, by simp⟩)

theorem find?_eq_none_iff : b.find? u = none ↔ ∀ s ∈ b.services, s.uuid ≠ u := by
  simp [find?, List.find?_eq_none]

/-- The backend has every service of the stock, as far as it is described. -/
def Covers (R : Service → Service → Prop) (stock : Stock) (b : SimulatedBackend) : Prop :=
  ∀ u x, stock u = some x → ∃ y, b.find? u = some y ∧ R x y

/-- The backend has no services but those of the stock. -/
def Spans (stock : Stock) (b : SimulatedBackend) : Prop :=
  ∀ u, stock u = none → b.find? u = none

/-- The backend holds the stock. -/
structure Holds (f : Fidelity) (stock : Stock) (b : SimulatedBackend) : Prop where
  kept : ∀ u x, stock u = some x → ∃ y, b.find? u = some y ∧ f.Agree x y
  complete : f = .exact → ∀ u, stock u = none → b.find? u = none

theorem holds_self (f : Fidelity) (b : SimulatedBackend) : Holds f b.find? b :=
  ⟨fun _ x hx => ⟨x, hx, .refl f x⟩, fun _ _ hu => hu⟩

variable {R : Service → Service → Prop}

/-- Whatever a stock could be relied on for of a backend, the next stock can be of what has become of the
backend. -/
structure Follows (stock : Stock) (b : SimulatedBackend) (stock' : Stock) (b' : SimulatedBackend) : Prop where
  covers : ∀ {R}, Faithful R → b.Covers R stock → b'.Covers R stock'
  spans : b.Spans stock → b'.Spans stock'

theorem Follows.holds (h : Follows stock b stock' b') (holds : b.Holds f stock) : b'.Holds f stock' :=
  ⟨h.covers f.faithful holds.kept, fun hf => h.spans (holds.complete hf)⟩

theorem Follows.trans {b'' : SimulatedBackend} {stock'' : Stock} (h : Follows stock b stock' b')
    (h' : Follows stock' b' stock'' b'') : Follows stock b stock'' b'' :=
  ⟨fun faithful covers => h'.covers faithful (h.covers faithful covers), fun spans => h'.spans (h.spans spans)⟩

theorem follows_congr (same : ∀ u, b'.find? u = b.find? u) : Follows stock b stock b' :=
  ⟨fun _ covers u x hx => same u ▸ covers u x hx, fun spans u hu => (same u).trans (spans u hu)⟩

theorem follows_see (call : CallRecord) : Follows stock b stock (b.see call) :=
  follows_congr fun _ => rfl

theorem follows_put (s : Service) : Follows stock b (stock.put s) (b.put s) := by
  refine ⟨fun {R} faithful covers u x hx => ?_, fun spans u hu => ?_⟩
  · rw [find?_put]
    unfold Stock.put at hx
    split at hx
    · rw [if_pos ‹_›]
      exact ⟨s, rfl, Option.some.inj hx ▸ faithful.refl s⟩
    · rw [if_neg ‹_›]
      exact covers u x hx
  · rw [find?_put]
    unfold Stock.put at hu
    split at hu
    · cases hu
    · rw [if_neg ‹_›]
      exact spans u hu

theorem follows_setState (v : Uuid) (state : ServiceState) :
    Follows stock b (stock.setState v state) (b.setState v state) := by
  refine ⟨fun {R} faithful covers u x hx => ?_, fun spans u hu => ?_⟩
  · rw [find?_setState]
    unfold Stock.setState at hx
    split at hx
    · rw [if_pos ‹_›]
      obtain ⟨x', hx', rfl⟩ := Option.map_eq_some_iff.mp hx
      obtain ⟨y, hy, agree⟩ := covers u x' hx'
      exact ⟨y.withState state, by rw [hy]; rfl, faithful.withState agree state⟩
    · rw [if_neg ‹_›]
      exact covers u x hx
  · rw [find?_setState]
    unfold Stock.setState at hu
    split at hu
    · rw [if_pos ‹_›, spans u (Option.map_eq_none_iff.mp hu)]
      rfl
    · rw [if_neg ‹_›]
      exact spans u hu

/-- A service that is found is described as it is found. -/
theorem follows_found {t : Service} (ht : b.find? u = some t) : Follows stock b (stock.put t) b := by
  obtain rfl := (mem_of_find? ht).2
  refine (follows_put t).trans (follows_congr fun u => ?_)
  rw [find?_put]
  split
  · rename_i e
    exact e ▸ ht
  · rfl

theorem follows_told : Follows stock b (stock.setState u (match b.find? u with
    | some current => current.state
    | none => .absent)) b := by
  refine ⟨fun {R} faithful covers v x hx => ?_, fun spans v hv => ?_⟩
  · unfold Stock.setState at hx
    split at hx
    · rename_i e
      subst e
      obtain ⟨x', hx', rfl⟩ := Option.map_eq_some_iff.mp hx
      obtain ⟨y, hy, agree⟩ := covers v x' hx'
      rw [hy]
      exact ⟨y, rfl, faithful.told agree⟩
    · exact covers v x hx
  · refine spans v ?_
    unfold Stock.setState at hv
    split at hv
    · exact Option.map_eq_none_iff.mp hv
    · exact hv

/-- A launch that nobody hears of changes nothing that can be relied on while calls may hang. -/
theorem Holds.unheard (h : b.Holds f stock) (inexact : f ≠ .exact)
    (down : ∀ t, b.find? service.uuid = some t → t.isRunning = false) : (b.put service).Holds f stock := by
  refine ⟨fun u x hx => ?_, fun hf => absurd hf inexact⟩
  obtain ⟨y, hy, agree⟩ := h.kept u x hx
  rw [find?_put]
  split
  · rename_i e
    refine ⟨service, rfl, ?_⟩
    have hdown := down y (e ▸ hy)
    cases f with
    | known => trivial
    | current => exact fun hr => by rw [agree hr] at hdown; cases hdown
    | exact => exact absurd rfl inexact
  · exact ⟨y, hy, agree⟩

theorem setState_of_absent (h : ∀ s ∈ b.services, s.uuid ≠ u) : b.setState u state = b := by
  have hs : (b.services.map fun s => if s.uuid = u then s.withState state else s) = b.services := by
    rw [List.map_congr_left (fun s hs => if_neg (h s hs)), List.map_id']
  exact congrArg (fun l => { b with services := l }) hs

/-- A disturbance leaves the services alone, unless it is the crash of one. -/
theorem Holds.disturb (h : b.Holds f stock) {d : Disturbance}
    (spared : ∀ u, d = .crash u → f = .known ∨ ∀ s ∈ b.services, s.uuid ≠ u) : (b.disturb d).Holds f stock := by
  cases d with
  | crash uuid =>
    change (b.setState uuid .stopped).Holds f stock
    rcases spared uuid rfl with rfl | absent
    · refine ⟨fun u x hx => ?_, fun hf => by cases hf⟩
      obtain ⟨y, hy, _⟩ := h.kept u x hx
      rw [find?_setState, hy]
      split
      · exact ⟨y.withState .stopped, rfl, trivial⟩
      · exact ⟨y, rfl, trivial⟩
    · rw [setState_of_absent absent]
      exact h
  | _ => exact ⟨h.kept, h.complete⟩

theorem share_services (own : ∀ s ∈ b.services, s.identity = i) : (b.share i).services = b.services :=
  List.filter_eq_self.mpr fun s hs => by simpa using own s hs

theorem follows_share (own : ∀ s ∈ b.services, s.identity = i) : Follows stock b stock (b.share i) := by
  refine follows_congr fun u => ?_
  unfold find?
  rw [share_services own]

theorem own_put (own : ∀ s ∈ b.services, s.identity = i) (hs : service.identity = i) :
    ∀ s ∈ (b.put service).services, s.identity = i := by
  intro s hm
  rcases mem_put hm with rfl | ⟨hm, _⟩
  · exact hs
  · exact own s hm

theorem own_launch {call : CallRecord} {timeout : Duration} (own : ∀ s ∈ b.services, s.identity = i)
    (hs : service.identity = i) : ∀ s ∈ ((b.see call).launch service us timeout).2.services, s.identity = i :=
  own_put (b := b.see call) own (show (service.withState .starting).identity = i from hs)

theorem Taken.own (ht : Taken b birth c response b') (own : ∀ s ∈ b.services, s.identity = i)
    (hc : c.identity = i) : ∀ s ∈ b'.services, s.identity = i := by
  cases ht with
  | offline | unknown | running | told => exact own
  | started call online hf => exact own_launch own (own _ (mem_of_find? hf).1)
  | deployed call => exact own_launch own hc
  | stopped call => exact own_setState (b := b.see call) own _ .stopped

theorem own_finish (own : ∀ s ∈ b.services, s.identity = i) (hs : st.service.identity = i) :
    ∀ s ∈ (b.finish st).2.services, s.identity = i := by
  cases ht : st.inTime with
  | true =>
    rw [finish_inTime ht]
    have hput := own_put own (show (st.service.withState .running).identity = i from hs)
    exact fun s hm => hput s (mem_without.mp hm).1
  | false =>
    rw [finish_late ht]
    exact own

/-- Nothing stands in the way of a call that may take so long. -/
structure Favours (b : SimulatedBackend) (time : Duration) : Prop where
  online : b.offline = false
  responsive : b.unresponsive = false
  prompt : b.startDelay ≤ time

/-- The backend is in the same mode as another. -/
structure Alike (b' b : SimulatedBackend) : Prop where
  offline : b'.offline = b.offline
  unresponsive : b'.unresponsive = b.unresponsive
  startDelay : b'.startDelay = b.startDelay

theorem Alike.favours {time : Duration} (alike : b'.Alike b) (h : b.Favours time) : b'.Favours time :=
  ⟨alike.offline.trans h.online, alike.unresponsive.trans h.responsive, alike.startDelay ▸ h.prompt⟩

theorem Alike.share (h : b'.Alike b) : (b'.share i).Alike b :=
  ⟨h.offline, h.unresponsive, h.startDelay⟩

theorem alike_put : (b.put service).Alike b := by
  unfold put
  split <;> exact ⟨rfl, rfl, rfl⟩

theorem Taken.alike (ht : Taken b birth c response b') : b'.Alike b := by
  cases ht with
  | started call | deployed call =>
    obtain ⟨offline, unresponsive, startDelay⟩ := alike_put (b := b.see call)
    exact ⟨offline, unresponsive, startDelay⟩
  | _ => exact ⟨rfl, rfl, rfl⟩

theorem alike_finish : (b.finish st).2.Alike b := by
  cases ht : st.inTime with
  | true =>
    rw [finish_inTime ht]
    obtain ⟨offline, unresponsive, startDelay⟩ := alike_put (b := b)
    exact ⟨offline, unresponsive, startDelay⟩
  | false =>
    rw [finish_late ht]
    exact ⟨rfl, rfl, rfl⟩

/-- A reply that comes at once tells of the stock as it is. -/
theorem Covers.answered {call : Call} {a : Answer} {reply : call.Reply} (h : b.Covers R stock)
    (favours : ∀ time ∈ favoured, b.Favours time) (hc : call.backendCall? = some c)
    (ha : (b.take birth c).1 = .answered a) (hr : call.reply? a = some reply) :
    ∃ stock', call.Yields favoured stock reply stock' ∧ Follows stock b stock' (b.take birth c).2 := by
  have ht := taken b birth c
  rw [ha] at ht
  generalize hresponse : Simulation.Response.answered a = response at ht
  generalize (b.take birth c).2 = b' at ht ⊢
  cases ht with
  | offline call' ho =>
    cases hresponse
    have hreply : (Call.ask c).reply? (Simulation.errorAnswer c.method offlineError) =
        some (.error offlineError) := by cases c <;> rfl
    refine ⟨stock, Call.yields_of_reply hc hr hreply (.refused rfl fun hf => ?_), follows_see _⟩
    obtain ⟨time, ht⟩ := Option.isSome_iff_exists.mp hf
    rw [(favours time ht).online] at ho
    cases ho
  | @unknown s timeout text call' hf =>
    cases hresponse
    refine ⟨stock, Call.yields_of_reply hc hr rfl (.refused rfl fun _ => ⟨s, timeout, rfl, ?_⟩), follows_see _⟩
    by_contra hk
    obtain ⟨x, hx⟩ := Option.ne_none_iff_exists'.mp hk
    obtain ⟨y, hy, _⟩ := h _ x hx
    rw [hf] at hy
    cases hy
  | running call' online hf hrun =>
    cases hresponse
    exact ⟨_, Call.yields_of_reply hc hr rfl (.started hrun), (follows_found hf).trans (follows_see _)⟩
  | started | deployed => exact absurd hresponse.symm launch_ne_answered
  | stopped call' online =>
    cases hresponse
    exact ⟨_, Call.yields_of_reply hc hr rfl .stopped, (follows_see call').trans (follows_setState _ _)⟩
  | told call' online =>
    cases hresponse
    exact ⟨_, Call.yields_of_reply hc hr rfl .told, follows_told.trans (follows_see _)⟩

theorem of_launch_inTime {timeout : Duration}
    (h : Simulation.Response.ofBeginning (b.launch service us timeout).1 = .waiting st) :
    (b.startDelay ≤ timeout → st.inTime = true) ∧ st.wait ≤ timeout := by
  unfold launch at h
  split at h
  · cases h
  · cases h
    refine ⟨fun hle => decide_eq_true hle, ?_⟩
    change (if decide (b.startDelay ≤ timeout) = true then b.startDelay else timeout).nanos ≤ timeout.nanos
    split
    · rename_i hle
      exact of_decide_eq_true hle
    · exact Nat.le_refl _

theorem of_launch_hanging {timeout : Duration}
    (h : Simulation.Response.ofBeginning (b.launch service us timeout).1 = .hanging) : b.unresponsive = true := by
  unfold launch at h
  split at h
  · assumption
  · cases h

/-- A service on its way up, as the books will have it. -/
structure Coming (favoured : Option Duration) (f : Fidelity) (c : BackendCall) (stock : Stock)
    (b : SimulatedBackend) (st : Startup) : Prop where
  holds : b.Holds f (stock.put st.service)
  own : st.service.identity = c.identity
  inTime : favoured.isSome = true → st.inTime = true
  stays : st.service.uuid ∉ st.replaced
  others : c.replaces = true → ∀ s ∈ b.services, s.uuid ≠ st.service.uuid → s.uuid ∈ st.replaced
  alone : c.replaces = false → st.replaced = []

/-- A call that waits for a service has set it on its way up. -/
theorem follows_waiting (ha : (b.take birth c).1 = .waiting st) :
    Follows stock b (stock.put st.service) (b.take birth c).2 := by
  have ht := taken b birth c
  rw [ha] at ht
  generalize hresponse : Simulation.Response.waiting st = response at ht
  generalize (b.take birth c).2 = b' at ht ⊢
  cases ht with
  | offline | unknown | running | stopped | told => cases hresponse
  | started call online hf hr | deployed call online =>
    rw [(of_launch_waiting hresponse.symm).1]
    exact (follows_see call).trans (follows_put _)

theorem Holds.coming (h : b.Holds f stock) (own : ∀ s ∈ b.services, s.identity = c.identity)
    (unused : b.Unused birth c) (favours : ∀ time ∈ favoured, b.Favours time)
    (long : ∀ timeout ∈ c.timeout?, ∀ time ∈ favoured, time ≤ timeout) (ha : (b.take birth c).1 = .waiting st) :
    Coming favoured f c stock (b.take birth c).2 st := by
  have prompt : ∀ timeout ∈ c.timeout?, favoured.isSome = true → b.startDelay ≤ timeout := by
    intro timeout ht hf
    obtain ⟨time, hm⟩ := Option.isSome_iff_exists.mp hf
    exact Nat.le_trans (favours time hm).prompt (long timeout ht time hm)
  have holds := (follows_waiting ha).holds h
  have ht := taken b birth c
  rw [ha] at ht
  generalize hresponse : Simulation.Response.waiting st = response at ht
  generalize (b.take birth c).2 = b' at ht holds ⊢
  cases ht with
  | offline | unknown | running | stopped | told => cases hresponse
  | @started s current timeout call online hf hr =>
    obtain ⟨hs, hus⟩ := of_launch_waiting hresponse.symm
    refine ⟨holds, ?_, fun hf' => (of_launch_inTime hresponse.symm).1 (prompt timeout rfl hf'), by simp [hus],
      fun hr => (by cases hr), fun _ => hus⟩
    rw [hs]
    exact own current (mem_of_find? hf).1
  | @deployed layout i runId replace timeout call online =>
    obtain ⟨hs, hus⟩ := of_launch_waiting hresponse.symm
    have hu : st.service.uuid = birth.uuid := by
      rw [hs]
      rfl
    refine ⟨holds, by rw [hs]; rfl, fun hf => (of_launch_inTime hresponse.symm).1 (prompt timeout rfl hf), ?_,
      fun hr s hm hne => ?_, fun hr => ?_⟩
    · rw [hus, hu]
      split
      · intro hm
        obtain ⟨s, hs, e⟩ := List.mem_map.mp hm
        exact unused rfl s (List.mem_filter.mp hs).1 e
      · simp
    · rcases mem_put hm with rfl | ⟨hm, _⟩
      · exact absurd (congrArg Service.uuid hs.symm) hne
      · rw [hus, if_pos (show replace = true from hr)]
        exact List.mem_map_of_mem (List.mem_filter.mpr ⟨hm, decide_eq_true (own s hm)⟩)
    · rw [hus, show replace = false from hr]
      rfl

/-- A call that is cut short is one that the backend does not answer, and nobody is told of what it has done. -/
theorem Holds.cut {call : Call} (h : b.Holds f stock) (unused : b.Unused birth c)
    (patient : call.Patient favoured) (hc : call.backendCall? = some c)
    (favours : ∀ time ∈ favoured, b.Favours time) (responsive : f = .exact → b.unresponsive = false)
    (cut : (b.take birth c).1 = .hanging ∨
      ∃ st, (b.take birth c).1 = .waiting st ∧ ∃ deadline ∈ call.deadline?, ¬ st.wait ≤ deadline) :
    (b.take birth c).2.Holds f stock ∧ favoured = none := by
  have excused : b.unresponsive = true → f ≠ .exact ∧ favoured = none := by
    intro hun
    refine ⟨fun hf => (by rw [responsive hf] at hun; cases hun), ?_⟩
    cases favoured with
    | none => rfl
    | some time =>
      rw [(favours time rfl).responsive] at hun
      cases hun
  -- whoever waits for a service waits as long as the backend may take
  have waited : ∀ {st : Startup} {timeout : Duration}, timeout ∈ c.timeout? → st.wait ≤ timeout →
      ¬ ∃ deadline ∈ call.deadline?, ¬ st.wait ≤ deadline := by
    rintro st timeout ht hle ⟨deadline, hd, hnot⟩
    obtain ⟨⟨deadline', hd', hle'⟩, _⟩ := patient c hc timeout ht
    obtain rfl := Option.some.inj ((Option.mem_def.mp hd).symm.trans hd')
    exact hnot (Nat.le_trans hle hle')
  have ht := taken b birth c
  generalize (b.take birth c).1 = response at ht cut
  generalize (b.take birth c).2 = b' at ht ⊢
  cases ht with
  | offline | unknown | running | stopped | told => obtain hc | ⟨st, hc, _⟩ := cut <;> cases hc
  | @started s current timeout call online hf hr =>
    rcases cut with hang | ⟨st, wait, short⟩
    · obtain ⟨inexact, unfavoured⟩ := excused (of_launch_hanging hang)
      refine ⟨((follows_see call).holds h).unheard inexact fun t ht => ?_, unfavoured⟩
      obtain rfl : current = t := Option.some.inj (hf.symm.trans ((mem_of_find? hf).2 ▸ ht))
      exact hr
    · exact absurd short (waited rfl (of_launch_inTime wait).2)
  | deployed call online =>
    rcases cut with hang | ⟨st, wait, short⟩
    · obtain ⟨inexact, unfavoured⟩ := excused (of_launch_hanging hang)
      refine ⟨((follows_see call).holds h).unheard inexact fun t ht => ?_, unfavoured⟩
      obtain ⟨hm, e⟩ := mem_of_find? ht
      exact absurd e (unused rfl t hm)
    · exact absurd short (waited rfl (of_launch_inTime wait).2)

theorem Coming.disturb (h : Coming favoured f c stock b st) {d : Disturbance}
    (spared : ∀ u, d = .crash u → f = .known ∨ ∀ s ∈ b.services, s.uuid ≠ u) :
    Coming favoured f c stock (b.disturb d) st := by
  refine ⟨h.holds.disturb spared, h.own, h.inTime, h.stays, fun hr s hs => ?_, h.alone⟩
  cases d with
  | crash uuid =>
    obtain ⟨t, ht, e⟩ := uuid_of_mem_setState hs
    exact e ▸ h.others hr t ht
  | _ => exact h.others hr s hs

theorem Coming.share (h : Coming favoured f c stock b st) (own : ∀ s ∈ b.services, s.identity = i) :
    Coming favoured f c stock (b.share i) st :=
  ⟨(follows_share own).holds h.holds, h.own, h.inTime, h.stays,
    fun hr s hs => h.others hr s (mem_share.mp hs).1, h.alone⟩

/-- A service that replaces the others runs alone in the end. -/
theorem Coming.replaces (h : Coming favoured f c stock b st) (hr : c.replaces = true) :
    Follows (stock.put st.service) b (Stock.only (st.service.withState .running))
      ((b.put (st.service.withState .running)).without st.replaced) := by
  refine ⟨fun {R} faithful _ u x hx => ?_, fun _ u hu => ?_⟩
  · change (if u = st.service.uuid then _ else none) = some x at hx
    split at hx
    · rename_i e
      subst e
      cases hx
      refine ⟨_, ?_, faithful.refl _⟩
      rw [find?_without, if_neg h.stays, find?_put]
      exact if_pos rfl
    · cases hx
  · change (if u = st.service.uuid then _ else none) = none at hu
    split at hu
    · cases hu
    · rename_i hne
      refine find?_eq_none_iff.mpr fun s hs e => ?_
      obtain ⟨hm, hkept⟩ := mem_without.mp hs
      rcases mem_put hm with rfl | ⟨hm, hne'⟩
      · exact hne e.symm
      · exact hkept (h.others hr s hm hne')

theorem Coming.joins (h : Coming favoured f c stock b st) (hr : c.replaces = false) :
    Follows (stock.put st.service) b (stock.put (st.service.withState .running))
      ((b.put (st.service.withState .running)).without st.replaced) := by
  have put : Follows (stock.put st.service) b _ _ := follows_put (st.service.withState .running)
  rw [Stock.put_put (show st.service.uuid = (st.service.withState .running).uuid from rfl)] at put
  refine put.trans (follows_congr fun u => ?_)
  rw [h.alone hr, find?_without, if_neg List.not_mem_nil]

/-- The end of a wait tells of the stock as it is. -/
theorem Coming.finish {call : Call} {reply : call.Reply} (h : Coming favoured f c stock b st)
    (hc : call.backendCall? = some c) (hr : call.reply? (.served (b.finish st).1) = some reply) :
    ∃ stock', call.Yields favoured stock reply stock' ∧
      Follows (stock.put st.service) b stock' (b.finish st).2 := by
  cases ht : st.inTime with
  | false =>
    rw [finish_late ht] at hr ⊢
    have excused : favoured = none := by
      refine Option.not_isSome_iff_eq_none.mp fun hf => ?_
      rw [h.inTime hf] at ht
      cases ht
    cases c with
    | deploy | start =>
      exact ⟨_, Call.yields_of_reply hc hr rfl (.overdue rfl excused), follows_congr fun _ => rfl⟩
    | stop | status => cases call <;> cases hc <;> cases hr
  | true =>
    rw [finish_inTime ht] at hr ⊢
    cases c with
    | deploy layout i runId replace timeout =>
      refine ⟨_, Call.yields_of_reply hc hr rfl (.deployed rfl), ?_⟩
      cases replace with
      | false => exact h.joins rfl
      | true => exact h.replaces rfl
    | start s timeout => exact ⟨_, Call.yields_of_reply hc hr rfl (.started rfl), h.joins rfl⟩
    | stop | status => cases call <;> cases hc <;> cases hr

end SimulatedBackend
end ServingLifecycle
