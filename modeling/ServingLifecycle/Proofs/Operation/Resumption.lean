import Mathlib.Data.List.Basic
import ServingLifecycle.Proofs.Operation.Performs
import ServingLifecycle.Proofs.Registry.History
/-!
# Resuming a stop

A stop or a deletion that fails at one of the services has stopped and recorded those before it, and has left that one
and those behind it as they were. Done once more it goes on where it failed, and if nothing fails then, it leaves what
it would have left at once: every service that was up has been stopped exactly once.
-/
namespace ServingLifecycle

namespace Service

def isUp (s : Service) : Bool :=
  !s.state.isDown

/-- The service once it is down: if it was up it has been stopped. -/
def broughtDown (s : Service) : Service :=
  if s.isUp then s.withState .stopped else s

variable {s : Service}

theorem isUp_broughtDown (s : Service) : s.broughtDown.isUp = false := by
  unfold broughtDown
  split
  · rfl
  · exact Bool.not_eq_true _ ▸ ‹_›

theorem broughtDown_of_isUp (h : s.isUp = true) : s.broughtDown = s.withState .stopped :=
  if_pos h

theorem broughtDown_of_not_isUp (h : s.isUp = false) : s.broughtDown = s :=
  if_neg (by rw [h]; exact Bool.false_ne_true)

theorem broughtDown_broughtDown (s : Service) : s.broughtDown.broughtDown = s.broughtDown :=
  broughtDown_of_not_isUp s.isUp_broughtDown

end Service

/-- The backend acknowledged the stop of a service. -/
def Access.acknowledged (s : Service) : Access :=
  .call (.ask (.stop s)) (.ok ())

/-- The stop of a service failed. -/
def Access.refused (s : Service) (error : BackendError) : Access :=
  .call (.ask (.stop s)) (.error error)

/-- The service whose stop was acknowledged. -/
def Access.stopped? : Access → Option Service
  | .call (.ask (.stop s)) (.ok _) => some s
  | _ => none

namespace Registry

/-- The services that are up are recorded as stopped, one after the other. -/
def bringDown (r : Registry) (services : List Service) : Registry :=
  services.foldl (fun r s => if s.isUp then r.record (s.withState .stopped) else r) r

variable {r : Registry} {i j : Identity} {s : Service} {services rest : List Service}

theorem bringDown_cons (r : Registry) (s : Service) (services : List Service) :
    r.bringDown (s :: services) = (if s.isUp then r.record (s.withState .stopped) else r).bringDown services :=
  rfl

theorem bringDown_append (r : Registry) (services rest : List Service) :
    r.bringDown (services ++ rest) = (r.bringDown services).bringDown rest :=
  List.foldl_append

theorem bringDown_of_down (down : ∀ s ∈ services, s.isUp = false) : r.bringDown services = r := by
  induction services with
  | nil => rfl
  | cons s services ih =>
    obtain ⟨hs, down⟩ := List.forall_mem_cons.mp down
    rw [bringDown_cons, hs]
    exact ih down

/-- Each service is recorded in its place, and those around them stay as they are. -/
theorem find_bringDown (front : List Service) (nodup : ((r.find i).map Service.uuid).Nodup)
    (newest : NewestFirst (r.find i)) (split : r.find i = front ++ services ++ rest) :
    (r.bringDown services).find i = front ++ services.map Service.broughtDown ++ rest := by
  induction services generalizing r front with
  | nil => exact split
  | cons s services ih =>
    have hs : s ∈ r.find i := by simp [split]
    rw [bringDown_cons, List.map_cons, List.append_cons front, Service.broughtDown]
    split
    · refine ih _ (nodup_find_apply nodup (.record (s.withState .stopped)))
        (newestFirst_find_apply newest (.record (s.withState .stopped))) ?_
      rw [List.append_assoc, List.append_assoc]
      rw [List.append_assoc, List.cons_append] at split
      exact find_record_of_split nodup newest split (identity_of_mem_find (s := s) hs) rfl rfl
    · exact ih _ nodup newest (by rw [split, List.append_cons front])

theorem find_bringDown_of_ne (own : ∀ s ∈ services, s.identity = i) (hne : j ≠ i) :
    (r.bringDown services).find j = r.find j := by
  induction services generalizing r with
  | nil => rfl
  | cons s services ih =>
    obtain ⟨hs, own⟩ := List.forall_mem_cons.mp own
    rw [bringDown_cons, ih own]
    split
    · exact find_apply_of_ne (c := .record (s.withState .stopped)) fun e => hne (e.trans hs)
    · rfl

end Registry

namespace Operation
open Program

variable {settings : Settings} {op : Operation} {i : Identity} {action : Action} {r r' : Registry}
  {services stopped done rest : List Service} {failing : Service} {error : BackendError} {seen : List Access}

/-- What is seen when services are brought down. -/
def bringingDown (services : List Service) : List Access :=
  services.flatMap fun s => if s.isUp then [.acknowledged s, .write (.record (s.withState .stopped))] else []

theorem bringingDown_cons (s : Service) (services : List Service) : bringingDown (s :: services) =
    (if s.isUp then [.acknowledged s, .write (.record (s.withState .stopped))] else []) ++ bringingDown services :=
  rfl

theorem refused_notMem_bringingDown : .refused failing error ∉ bringingDown services := by
  intro h
  obtain ⟨s, -, h⟩ := List.mem_flatMap.mp h
  split at h
  · rcases List.mem_cons.mp h with h | h
    · cases h
    · cases List.mem_singleton.mp h
  · cases h

theorem reachesBackend_bringingDown (services : List Service) :
    (bringingDown services).filter Access.reachesBackend = (services.filter Service.isUp).map Access.acknowledged := by
  induction services with
  | nil => rfl
  | cons s services ih =>
    rw [bringingDown_cons, List.filter_append, ih, List.filter_cons]
    split <;> rfl

theorem stopped_bringingDown (services : List Service) :
    (bringingDown services).filterMap Access.stopped? = services.filter Service.isUp := by
  induction services with
  | nil => rfl
  | cons s services ih =>
    rw [bringingDown_cons, List.filterMap_append, ih, List.filter_cons]
    split <;> rfl

theorem bringingDown_append (services rest : List Service) :
    bringingDown (services ++ rest) = bringingDown services ++ bringingDown rest :=
  List.flatMap_append

theorem stopAll_cons_of_not_isUp (h : s.isUp = false) :
    stopAll i action stopped (s :: services) = stopAll i action (stopped ++ [s]) services := by
  rw [Service.isUp, Bool.not_eq_false'] at h
  rw [stopAll, if_pos h]

theorem stopAll_cons_of_isUp (h : s.isUp = true) :
    stopAll i action stopped (s :: services) = .call (.ask (.stop s)) fun
      | .error error => .done (.error ⟨i, action, .ofBackend .zero error⟩)
      | .ok _ =>
        .write (.record (s.withState .stopped)) (stopAll i action (stopped ++ [s.withState .stopped]) services) := by
  rw [Service.isUp, Bool.not_eq_true'] at h
  rw [stopAll]
  exact if_neg (by rw [h]; exact Bool.false_ne_true)

/-- The services at the front are brought down, then come the others. -/
theorem stopAll_steps (i : Identity) (action : Action) (stopped done rest : List Service) (r : Registry) :
    Steps (stopAll i action stopped (done ++ rest)) r (bringingDown done)
      (stopAll i action (stopped ++ done.map Service.broughtDown) rest) (r.bringDown done) := by
  induction done generalizing stopped r with
  | nil =>
    rw [List.map_nil, List.append_nil]
    exact .refl _ _
  | cons s done ih =>
    rw [List.cons_append, bringingDown_cons, Registry.bringDown_cons, List.map_cons, List.append_cons stopped]
    cases hs : s.isUp with
    | false =>
      rw [stopAll_cons_of_not_isUp hs, Service.broughtDown_of_not_isUp hs]
      exact ih _ _
    | true =>
      rw [stopAll_cons_of_isUp hs, Service.broughtDown_of_isUp hs]
      exact .head (.call (c := .ask (.stop s)) (Except.ok ())) (.head .write (ih _ _))

/-- How services are brought down: all of them, or those before one whose stop fails. -/
inductive BringsDown (i : Identity) (action : Action) (stopped services : List Service) (r : Registry) :
    List Access → Except DeployError (List Service) → Registry → Prop
  | through : BringsDown i action stopped services r (bringingDown services)
      (.ok (stopped ++ services.map Service.broughtDown)) (r.bringDown services)
  | cutShort {done rest : List Service} {failing : Service} {error : BackendError}
      (split : services = done ++ failing :: rest) (up : failing.isUp = true) :
      BringsDown i action stopped services r (bringingDown done ++ [.refused failing error])
        (.error ⟨i, action, .ofBackend .zero error⟩) (r.bringDown done)

/-- First those at the front, then the others. -/
theorem BringsDown.append (done : List Service) {result : Except DeployError (List Service)}
    (h : BringsDown i action (stopped ++ done.map Service.broughtDown) rest (r.bringDown done) seen result r') :
    BringsDown i action stopped (done ++ rest) r (bringingDown done ++ seen) result r' := by
  cases h with
  | through =>
    rw [List.append_assoc, ← List.map_append, ← bringingDown_append, ← Registry.bringDown_append]
    exact .through
  | cutShort split up =>
    rw [← List.append_assoc, ← bringingDown_append, ← Registry.bringDown_append]
    exact .cutShort (by rw [split, List.append_assoc]) up

theorem stopAll_steps_iff {result : Except DeployError (List Service)} :
    Steps (stopAll i action stopped services) r seen (.done result) r'
      ↔ BringsDown i action stopped services r seen result r' := by
  constructor
  · intro h
    induction services generalizing stopped r seen with
    | nil =>
      obtain ⟨rfl, e, rfl⟩ := h.of_done
      cases e
      have brought : BringsDown i action stopped [] r' _ _ _ := .through
      rwa [List.map_nil, List.append_nil] at brought
    | cons s services ih =>
      -- whether or not the first service is stopped, the others come behind it as they are brought down
      have front (more : List Access)
          (h : Steps (stopAll i action (stopped ++ [s.broughtDown]) services) (r.bringDown [s]) more
            (.done result) r') :
          BringsDown i action stopped (s :: services) r (bringingDown [s] ++ more) result r' :=
        .append [s] (ih h)
      cases hs : s.isUp with
      | false =>
        rw [stopAll_cons_of_not_isUp hs] at h
        simp only [Service.broughtDown_of_not_isUp hs, bringingDown_cons, Registry.bringDown_cons, hs] at front
        exact front seen h
      | true =>
        rw [stopAll_cons_of_isUp hs] at h
        cases h with | head first rest =>
        cases first with
        | breakOff text => exact absurd rest not_steps_of_abort
        | call reply =>
          cases reply with
          | error error =>
            obtain ⟨rfl, e, rfl⟩ := rest.of_done
            cases e
            exact @BringsDown.cutShort _ _ _ _ _ [] services s error rfl hs
          | ok u =>
            cases rest with | head first rest =>
            cases first with | write =>
            simp only [Service.broughtDown_of_isUp hs, bringingDown_cons, Registry.bringDown_cons, hs] at front
            exact front _ rest
  · intro h
    cases h with
    | through =>
      have := stopAll_steps i action stopped services [] r
      rwa [List.append_nil] at this
    | @cutShort done rest failing error split up =>
      have front := stopAll_steps i action stopped done (failing :: rest) r
      rw [stopAll_cons_of_isUp up] at front
      rw [split]
      exact front.snoc (.call (c := .ask (.stop failing)) (Except.error error))

/-! ### Stopping and deleting -/

/-- What an operation tries on a slot that holds nothing. -/
def attempt : Operation → Action
  | deploy _ => .deploy
  | start .. => .start
  | stop _ => .stop
  | delete _ => .delete
  | refresh _ => .reuse

/-- What an operation does to the registry once the services are down. -/
def closing : Operation → List Registry.Change
  | delete i => [.forget i]
  | _ => []

/-- What an operation answers once the services are down. -/
def answer (services : List Service) : Operation → Outcome
  | delete _ => .deleted
  | _ => .services services

/-- How a stop or a deletion goes on from what came of the services. -/
def conclude (op : Operation) : Except DeployError (List Service) → Program Verdict
  | .error error => .done ⟨op.attempt, .error error⟩
  | .ok services => op.closing.foldr .write (.done ⟨op.attempt, .ok (op.answer services)⟩)

theorem writes_steps_iff {α : Type} {a b : α} {changes : List Registry.Change} :
    Steps (changes.foldr .write (.done a)) r seen (.done b) r'
      ↔ seen = changes.map .write ∧ b = a ∧ r' = changes.foldl Registry.apply r := by
  induction changes generalizing r seen with
  | nil =>
    constructor
    · intro h
      obtain ⟨rfl, e, rfl⟩ := h.of_done
      cases e
      exact ⟨rfl, rfl, rfl⟩
    · rintro ⟨rfl, rfl, rfl⟩
      exact .refl _ _
  | cons change changes ih =>
    constructor
    · intro h
      cases h with | head first rest =>
      cases first with | write =>
      obtain ⟨rfl, rfl, rfl⟩ := ih.mp rest
      exact ⟨rfl, rfl, rfl⟩
    · rintro ⟨rfl, rfl, rfl⟩
      exact .head .write (ih.mpr ⟨rfl, rfl, rfl⟩)

theorem performs_iff_steps {result : Except DeployError Outcome} (ends : op = .stop i ∨ op = .delete i)
    (recorded : r.find i ≠ []) : op.Performs settings r seen r' result ↔
      ∃ more verdict, seen = .read i (r.find i) :: more
        ∧ Steps ((stopAll i op.attempt [] (r.find i)).bind op.conclude) r more (.done verdict) r'
        ∧ verdict.result = result := by
  have program : ∃ next, op.program settings = .read i next
      ∧ next (r.find i) = (stopAll i op.attempt [] (r.find i)).bind op.conclude := by
    rcases ends with rfl | rfl
    · refine ⟨_, rfl, ?_⟩
      rw [if_neg (by simpa using recorded)]
      refine congrArg (Program.bind _) (funext fun result => ?_)
      cases result <;> rfl
    · refine ⟨_, rfl, congrArg (Program.bind _) (funext fun result => ?_)⟩
      cases result <;> rfl
  obtain ⟨next, program, after⟩ := program
  rw [← after]
  constructor
  · rintro (h | ⟨-, steps⟩)
    · rcases ends with rfl | rfl <;> cases h
    · rw [program] at steps
      cases steps with | head first rest =>
      cases first with | read =>
      exact ⟨_, _, rfl, rest, rfl⟩
  · rintro ⟨more, verdict, rfl, steps, rfl⟩
    refine .performed (by rcases ends with rfl | rfl <;> rfl) ?_
    rw [program]
    exact .head .read steps

/-- How a stop or a deletion of a slot that holds services goes. -/
inductive Course (op : Operation) (i : Identity) (r : Registry) :
    List Access → Except DeployError Outcome → Registry → Prop
  | through : Course op i r (.read i (r.find i) :: (bringingDown (r.find i) ++ op.closing.map .write))
      (.ok (op.answer ((r.find i).map Service.broughtDown)))
      (op.closing.foldl Registry.apply (r.bringDown (r.find i)))
  | cutShort {done rest : List Service} {failing : Service} {error : BackendError}
      (split : r.find i = done ++ failing :: rest) (up : failing.isUp = true) :
      Course op i r (.read i (r.find i) :: (bringingDown done ++ [.refused failing error]))
        (.error ⟨i, op.attempt, .ofBackend .zero error⟩) (r.bringDown done)

theorem performs_iff_course {result : Except DeployError Outcome} (ends : op = .stop i ∨ op = .delete i)
    (recorded : r.find i ≠ []) : op.Performs settings r seen r' result ↔ op.Course i r seen result r' := by
  rw [performs_iff_steps ends recorded]
  constructor
  · rintro ⟨more, verdict, rfl, steps, rfl⟩
    obtain ⟨outcome, first, last, r₁, brought, concluded, rfl⟩ := steps.of_bind
    cases stopAll_steps_iff.mp brought with
    | through =>
      obtain ⟨rfl, rfl, rfl⟩ := writes_steps_iff.mp concluded
      exact .through
    | cutShort split up =>
      obtain ⟨rfl, e, rfl⟩ := concluded.of_done
      cases e
      rw [List.append_nil]
      exact .cutShort split up
  · intro h
    cases h with
    | through =>
      exact ⟨_, _, rfl, ((stopAll_steps_iff.mpr .through).bind op.conclude).trans
        (writes_steps_iff.mpr ⟨rfl, rfl, rfl⟩), rfl⟩
    | cutShort split up =>
      exact ⟨_, _, rfl, (stopAll_steps_iff.mpr (.cutShort split up)).bind op.conclude, rfl⟩

/-- No stop of a service failed. -/
def Unrefused (seen : List Access) : Prop :=
  ∀ s error, .refused s error ∉ seen

theorem refused_notMem_writes {changes : List Registry.Change} :
    .refused failing error ∉ changes.map Access.write := by
  simp [Access.refused]

/-- What is seen of services that are brought down is no failure. -/
theorem refused_mem_iff {last : List Access} : .refused failing error ∈ .read i services :: (bringingDown done ++ last)
    ↔ .refused failing error ∈ last := by
  rw [List.mem_cons, List.mem_append, or_iff_right nofun, or_iff_right refused_notMem_bringingDown]

/-- Nothing is left open once it is said which service it is that fails. -/
theorem course_refused_iff {result : Except DeployError Outcome} (nodup : (r.find i).Nodup)
    (split : r.find i = done ++ failing :: rest) (up : failing.isUp = true) :
    op.Course i r seen result r' ∧ .refused failing error ∈ seen
      ↔ seen = .read i (r.find i) :: (bringingDown done ++ [.refused failing error])
        ∧ result = .error ⟨i, op.attempt, .ofBackend .zero error⟩ ∧ r' = r.bringDown done := by
  constructor
  · rintro ⟨h, failed⟩
    cases h with
    | through => exact absurd (refused_mem_iff.mp failed) refused_notMem_writes
    | @cutShort done' rest' failing' error' split' up' =>
      cases List.mem_singleton.mp (refused_mem_iff.mp failed)
      rw [split, List.nodup_middle, List.nodup_cons, List.mem_append, not_or] at nodup
      obtain ⟨rfl, -, -⟩ := (List.append_cons_inj_of_notMem nodup.1.1 nodup.1.2).mp (split.symm.trans split')
      exact ⟨rfl, rfl, rfl⟩
  · rintro ⟨rfl, rfl, rfl⟩
    exact ⟨.cutShort split up, refused_mem_iff.mpr List.mem_cons_self⟩

theorem course_unrefused_iff {result : Except DeployError Outcome} :
    op.Course i r seen result r' ∧ Unrefused seen
      ↔ seen = .read i (r.find i) :: (bringingDown (r.find i) ++ op.closing.map .write)
        ∧ result = .ok (op.answer ((r.find i).map Service.broughtDown))
        ∧ r' = op.closing.foldl Registry.apply (r.bringDown (r.find i)) := by
  constructor
  · rintro ⟨h, unrefused⟩
    cases h with
    | through => exact ⟨rfl, rfl, rfl⟩
    | cutShort split up => exact absurd (refused_mem_iff.mpr List.mem_cons_self) (unrefused _ _)
  · rintro ⟨rfl, rfl, rfl⟩
    exact ⟨.through, fun s error failed => refused_notMem_writes (refused_mem_iff.mp failed)⟩

theorem reachesBackend_course {last : List Access} :
    (Access.read i services :: (bringingDown done ++ last)).filter Access.reachesBackend
      = (done.filter Service.isUp).map Access.acknowledged ++ last.filter Access.reachesBackend := by
  rw [List.filter_cons_of_neg Bool.false_ne_true, List.filter_append, reachesBackend_bringingDown]

theorem stopped_course {last : List Access} :
    (Access.read i services :: (bringingDown done ++ last)).filterMap Access.stopped?
      = done.filter Service.isUp ++ last.filterMap Access.stopped? := by
  rw [List.filterMap_cons_none rfl, List.filterMap_append, stopped_bringingDown]

theorem reachesBackend_writes (changes : List Registry.Change) :
    (changes.map Access.write).filter Access.reachesBackend = [] := by
  simp [Access.reachesBackend]

theorem stopped_writes (changes : List Registry.Change) :
    (changes.map Access.write).filterMap Access.stopped? = [] := by
  simp [Access.stopped?]

/-- A stop or a deletion fails in one way at each service that is up: it stopped those before it that were up, in
their order, recorded that, and left everything else as it was. Done again without a failure it stops that one and the
others behind it that are up. Each service that was up has then been stopped once, and the operation has left and
answered what it does if nothing fails from the beginning. -/
theorem resumes_where_it_failed (settings : Settings) (changes : List Registry.Change) (error : BackendError)
    (ends : op = .stop i ∨ op = .delete i)
    (split : (Registry.after changes).find i = done ++ failing :: rest) (up : failing.isUp = true) :
    ∃ seen₁ r₁ seen₂ r₂ seen₃ outcome,
      (∀ seen r' result, op.Performs settings (.after changes) seen r' result ∧ .refused failing error ∈ seen
          ↔ seen = seen₁ ∧ result = .error ⟨i, op.attempt, .ofBackend .zero error⟩ ∧ r' = r₁)
        ∧ seen₁.filter Access.reachesBackend
            = (done.filter Service.isUp).map Access.acknowledged ++ [.refused failing error]
        ∧ r₁.find i = done.map Service.broughtDown ++ failing :: rest
        ∧ (∀ j, j ≠ i → r₁.find j = (Registry.after changes).find j)
        ∧ (∀ seen r' result, op.Performs settings r₁ seen r' result ∧ Unrefused seen
          ↔ seen = seen₂ ∧ result = .ok outcome ∧ r' = r₂)
        ∧ seen₂.filter Access.reachesBackend = ((failing :: rest).filter Service.isUp).map Access.acknowledged
        ∧ (seen₁ ++ seen₂).filterMap Access.stopped? = ((Registry.after changes).find i).filter Service.isUp
        ∧ (∀ seen r' result, op.Performs settings (.after changes) seen r' result ∧ Unrefused seen
          ↔ seen = seen₃ ∧ result = .ok outcome ∧ r' = r₂) := by
  have nodup := Registry.distinct_after changes i
  have newest := Registry.newestFirst_find_after changes i
  have own : ∀ s ∈ done, s.identity = i := fun s hs =>
    Registry.identity_of_mem_find (r := .after changes) (by rw [split]; exact List.mem_append_left _ hs)
  generalize Registry.after changes = r at *
  have found : (r.bringDown done).find i = done.map Service.broughtDown ++ failing :: rest :=
    Registry.find_bringDown [] nodup newest split
  have down : ∀ s ∈ done.map Service.broughtDown, s.isUp = false := by
    intro s hs
    obtain ⟨t, -, rfl⟩ := List.mem_map.mp hs
    exact t.isUp_broughtDown
  have live : ((r.bringDown done).find i).filter Service.isUp = (failing :: rest).filter Service.isUp := by
    rw [found, List.filter_append, List.filter_eq_nil_iff.mpr fun s hs => by rw [down s hs]; exact Bool.false_ne_true,
      List.nil_append]
  -- the services that are down already are passed over
  have left : (r.bringDown done).bringDown ((r.bringDown done).find i) = r.bringDown (r.find i) := by
    rw [found, Registry.bringDown_append, Registry.bringDown_of_down down, split, Registry.bringDown_append]
  have answered : ((r.bringDown done).find i).map Service.broughtDown = (r.find i).map Service.broughtDown := by
    rw [found, split, List.map_append, List.map_append, List.map_map]
    exact congrArg (· ++ _) (List.map_congr_left fun s _ => s.broughtDown_broughtDown)
  have recorded : r.find i ≠ [] := by simp [split]
  have recorded' : (r.bringDown done).find i ≠ [] := by simp [found]
  refine ⟨.read i (r.find i) :: (bringingDown done ++ [.refused failing error]), r.bringDown done,
    .read i ((r.bringDown done).find i) :: (bringingDown ((r.bringDown done).find i) ++ op.closing.map .write),
    op.closing.foldl Registry.apply (r.bringDown (r.find i)),
    .read i (r.find i) :: (bringingDown (r.find i) ++ op.closing.map .write),
    op.answer ((r.find i).map Service.broughtDown), fun seen r' result => ?_, reachesBackend_course, found,
    fun j hne => Registry.find_bringDown_of_ne own hne, fun seen r' result => ?_, ?_, ?_, fun seen r' result => ?_⟩
  · rw [performs_iff_course ends recorded]
    exact course_refused_iff (List.Nodup.of_map _ nodup) split up
  · rw [performs_iff_course ends recorded', ← left, ← answered]
    exact course_unrefused_iff
  · rw [reachesBackend_course, live, reachesBackend_writes, List.append_nil]
  · rw [List.filterMap_append, stopped_course, stopped_course, live, stopped_writes, split, List.filter_append,
      List.append_nil]
    exact congrArg (· ++ _) (List.append_nil _)
  · rw [performs_iff_course ends recorded]
    exact course_unrefused_iff

/-- Two services of a slot run, and the backend is away when it comes to the second. -/
theorem resumes_at_second : ∃ seen₁ r₁ seen₂ r₂ outcome,
    (stop ⟨"iris", "train", "classifier"⟩).Performs .default
        (.after [.record (.sample 2 .running), .record (.sample 1 .running)]) seen₁ r₁
        (.error ⟨⟨"iris", "train", "classifier"⟩, .stop, .backendUnavailable "offline"⟩)
      ∧ seen₁.filter Access.reachesBackend
        = [.acknowledged (.sample 2 .running), .refused (.sample 1 .running) (.unavailable "offline")]
      ∧ r₁.find ⟨"iris", "train", "classifier"⟩ = [.sample 2 .stopped, .sample 1 .running]
      ∧ (stop ⟨"iris", "train", "classifier"⟩).Performs .default r₁ seen₂ r₂ (.ok outcome)
      ∧ seen₂.filter Access.reachesBackend = [.acknowledged (.sample 1 .running)] := by
  have both : (Registry.after [.record (.sample 2 .running), .record (.sample 1 .running)]).find
      ⟨"iris", "train", "classifier"⟩ = [.sample 2 .running] ++ [.sample 1 .running] := by
    rw [Registry.after_pair (a := .sample 2 .running) (b := .sample 1 .running) (by decide) rfl (by decide)]
    rfl
  obtain ⟨seen₁, r₁, seen₂, r₂, -, outcome, failed, calls₁, found, -, again, calls₂, -⟩ :=
    resumes_where_it_failed .default [.record (.sample 2 .running), .record (.sample 1 .running)]
      (.unavailable "offline") (.inl (.refl (stop ⟨"iris", "train", "classifier"⟩))) both rfl
  exact ⟨seen₁, r₁, seen₂, r₂, outcome, ((failed _ _ _).mpr ⟨rfl, rfl, rfl⟩).1, calls₁, found,
    ((again _ _ _).mpr ⟨rfl, rfl, rfl⟩).1, calls₂⟩

end Operation
end ServingLifecycle
