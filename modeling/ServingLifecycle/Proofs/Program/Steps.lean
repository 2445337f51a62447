import ServingLifecycle.Program
/-!
# The steps of a program

A program goes step by step over a registry, and every step is an access that can be watched: a read, a
change, a call with its answer, or a call that broke off. Storage and backend answer as they like. An
answer is faithful if the descriptor in it is of the slot that the call was about.
`Ensures post` says how a program ends whatever is answered faithfully, and `ensures_bind` takes it apart
along the program.
-/
namespace ServingLifecycle

/-- The service that a failure hands over. -/
def BackendError.handedOver : BackendError → Option Service
  | startTimeout service => service
  | _ => none

theorem BackendError.eq_startTimeout {error : BackendError} {s : Service} (h : s ∈ error.handedOver) :
    error = .startTimeout (some s) := by
  cases error with
  | startTimeout service => exact congrArg startTimeout h
  | _ => cases h

/-- The descriptor that a reply hands over, of a service that runs or is still starting. -/
def BackendCall.descriptor : (c : BackendCall) → c.Reply → Option Service
  | deploy .., .ok service => some service
  | deploy .., .error e => e.handedOver
  | start .., .ok service => some service
  | start .., .error e => e.handedOver
  | _, _ => none

namespace Call

/-- The slot of a call to the backend. -/
def slot : Call → Option Identity
  | stage .. => none
  | ask c => some c.identity
  | askWithin c _ => some c.identity

def descriptor : (c : Call) → c.Reply → Option Service
  | stage .., _ => none
  | ask c, reply => c.descriptor reply
  | askWithin c _, some reply => c.descriptor reply
  | askWithin .., none => none

end Call

/-- What can be seen of one step of a program. -/
inductive Access
  | read (identity : Identity) (services : List Service)
  | write (change : Registry.Change)
  | call (c : Call) (reply : c.Reply)
  | brokenOff (c : Call) (text : String)

namespace Access

/-- The slot that is read, changed or called for. -/
def slot : Access → Option Identity
  | read i _ => some i
  | write change => some change.identity
  | call c _ => c.slot
  | brokenOff c _ => c.slot

/-- The descriptor that an answer hands over. -/
def descriptor : Access → Option Service
  | call c reply => c.descriptor reply
  | _ => none

/-- A descriptor that is handed over is of the slot of the call. -/
def Faithful (a : Access) : Prop :=
  ∀ s ∈ a.descriptor, a.slot = some s.identity

theorem faithful_of_descriptor {a : Access} (h : a.descriptor = none) : a.Faithful := by
  intro s hs
  rw [h] at hs
  cases hs

/-- The backend was called. -/
def reachesBackend : Access → Bool
  | call (.stage ..) _ => false
  | brokenOff (.stage ..) _ => false
  | call .. => true
  | brokenOff .. => true
  | _ => false

end Access

namespace Program

variable {α β : Type}

inductive Step : Program α → Registry → Access → Program α → Registry → Prop
  | read {i : Identity} {next : List Service → Program α} {r : Registry} :
      Step (read i next) r (.read i (r.find i)) (next (r.find i)) r
  | write {change : Registry.Change} {next : Program α} {r : Registry} :
      Step (write change next) r (.write change) next (r.apply change)
  | call {c : Call} {next : c.Reply → Program α} {r : Registry} (reply : c.Reply) :
      Step (call c next) r (.call c reply) (next reply) r
  | breakOff {c : Call} {next : c.Reply → Program α} {r : Registry} (text : String) :
      Step (call c next) r (.brokenOff c text) (abort (.backend text)) r

/-- Any number of steps, with what can be seen of them. -/
inductive Steps : Program α → Registry → List Access → Program α → Registry → Prop
  | refl (p : Program α) (r : Registry) : Steps p r [] p r
  | head {p q p' : Program α} {r r₁ r' : Registry} {a : Access} {as : List Access}
      (first : Step p r a q r₁) (rest : Steps q r₁ as p' r') : Steps p r (a :: as) p' r'

/-- A service is recorded. -/
theorem Step.record {next : Program α} {r r' : Registry} {s : Service} (h : r.record s = r') :
    Step (Program.write (.record s) next) r (.write (.record s)) next r' := by
  rw [← h]
  exact .write

theorem Steps.trans {p q p' : Program α} {r r₁ r' : Registry} {as bs : List Access} (h : Steps p r as q r₁)
    (h' : Steps q r₁ bs p' r') : Steps p r (as ++ bs) p' r' := by
  induction h with
  | refl p r => exact h'
  | head first _ ih => exact .head first (ih h')

theorem Steps.snoc {p q p' : Program α} {r r₁ r' : Registry} {a : Access} {as : List Access}
    (h : Steps p r as q r₁) (last : Step q r₁ a p' r') : Steps p r (as ++ [a]) p' r' :=
  h.trans (.head last (.refl _ _))

theorem Step.bind {p q : Program α} {r r' : Registry} {a : Access} (h : Step p r a q r') (f : α → Program β) :
    Step (p.bind f) r a (q.bind f) r' := by
  cases h with
  | read => exact .read
  | write => exact .write
  | call reply => exact .call reply
  | breakOff text => exact .breakOff text

theorem Steps.bind {p q : Program α} {r r' : Registry} {as : List Access} (h : Steps p r as q r')
    (f : α → Program β) : Steps (p.bind f) r as (q.bind f) r' := by
  induction h with
  | refl p r => exact .refl _ _
  | head first _ ih => exact .head (first.bind f) ih

/-- What is done and done with is no more to be stepped. -/
theorem Steps.of_done {a : α} {q : Program α} {r r' : Registry} {as : List Access} (h : Steps (done a) r as q r') :
    as = [] ∧ q = done a ∧ r' = r := by
  cases h with
  | refl => exact ⟨rfl, rfl, rfl⟩
  | head first _ => cases first

/-- A program that broke off comes to no answer. -/
theorem not_steps_of_abort {fault : Fault} {a : α} {r r' : Registry} {as : List Access} :
    ¬Steps (abort fault) r as (done a) r' := by
  intro h
  cases h with
  | head first _ => cases first

/-- A composed program that came to its end came to that of its first part before. -/
theorem Steps.of_bind {p : Program α} {f : α → Program β} {b : β} {r r' : Registry} {as : List Access}
    (h : Steps (p.bind f) r as (done b) r') :
    ∃ a first last r₁, Steps p r first (done a) r₁ ∧ Steps (f a) r₁ last (done b) r' ∧ as = first ++ last := by
  induction p generalizing r as with
  | done a => exact ⟨a, [], as, r, .refl _ _, h, rfl⟩
  | abort fault => exact absurd h not_steps_of_abort
  | read i next ih =>
    cases h with | head step rest =>
    cases step with | read =>
    obtain ⟨a, first, last, r₁, hp, hf, rfl⟩ := ih _ rest
    exact ⟨a, _, last, r₁, .head .read hp, hf, rfl⟩
  | write change next ih =>
    cases h with | head step rest =>
    cases step with | write =>
    obtain ⟨a, first, last, r₁, hp, hf, rfl⟩ := ih rest
    exact ⟨a, _, last, r₁, .head .write hp, hf, rfl⟩
  | call c next ih =>
    cases h with | head step rest =>
    cases step with
    | call reply =>
      obtain ⟨a, first, last, r₁, hp, hf, rfl⟩ := ih reply rest
      exact ⟨a, _, last, r₁, .head (.call reply) hp, hf, rfl⟩
    | breakOff text => exact absurd rest not_steps_of_abort

/-- No step is left. -/
def isOver : Program α → Bool
  | done _ => true
  | abort _ => true
  | _ => false

/-- No program takes steps for ever, so what passes from all that may come next to a program holds of every one. -/
theorem step_induction {motive : Program α → Prop}
    (step : ∀ p, (∀ {r a q r'}, Step p r a q r' → motive q) → motive p) (p : Program α) : motive p := by
  have ended : ∀ p : Program α, p.isOver = true → motive p := by
    intro p hp
    refine step p fun h => ?_
    cases h <;> cases hp
  induction p with
  | done a => exact ended _ rfl
  | abort fault => exact ended _ rfl
  | read i next ih =>
    refine step _ fun h => ?_
    cases h with | read =>
    exact ih _
  | write change next ih =>
    refine step _ fun h => ?_
    cases h with | write =>
    exact ih
  | call c next ih =>
    refine step _ fun h => ?_
    cases h with
    | call reply => exact ih reply
    | breakOff text => exact ended _ rfl

/-- However the calls are answered, as long as it is faithfully, the program ends in `post`, which is told
of the result, of everything that was seen and of the registry. -/
def Ensures (post : α → List Access → Registry → Prop) : Program α → List Access → Registry → Prop
  | done a, seen, r => post a seen r
  | abort _, _, _ => True
  | read i next, seen, r => (next (r.find i)).Ensures post (seen ++ [.read i (r.find i)]) r
  | write change next, seen, r => next.Ensures post (seen ++ [.write change]) (r.apply change)
  | call c next, seen, r =>
    ∀ reply, Access.Faithful (.call c reply) → (next reply).Ensures post (seen ++ [.call c reply]) r

theorem Ensures.mono {post post' : α → List Access → Registry → Prop}
    (h : ∀ a seen r, post a seen r → post' a seen r) {p : Program α} {seen : List Access} {r : Registry}
    (hp : p.Ensures post seen r) : p.Ensures post' seen r := by
  induction p generalizing seen r with
  | done a => exact h a seen r hp
  | abort fault => trivial
  | read i next ih => exact ih _ hp
  | write change next ih => exact ih hp
  | call c next ih => exact fun reply hf => ih reply (hp reply hf)

theorem ensures_of_forall {post : α → List Access → Registry → Prop} (h : ∀ a seen r, post a seen r)
    {p : Program α} {seen : List Access} {r : Registry} : p.Ensures post seen r := by
  induction p generalizing seen r with
  | done a => exact h a seen r
  | abort fault => trivial
  | read i next ih => exact ih _
  | write change next ih => exact ih
  | call c next ih => exact fun reply _ => ih reply

theorem ensures_bind {post : β → List Access → Registry → Prop} {p : Program α} {f : α → Program β}
    {seen : List Access} {r : Registry} :
    (p.bind f).Ensures post seen r ↔ p.Ensures (fun a seen r => (f a).Ensures post seen r) seen r := by
  induction p generalizing seen r with
  | done a => exact Iff.rfl
  | abort fault => exact Iff.rfl
  | read i next ih => exact ih _
  | write change next ih => exact ih
  | call c next ih => exact forall_congr' fun reply => imp_congr_right fun _ => ih reply

theorem ensures_map {post : β → List Access → Registry → Prop} {p : Program α} {f : α → β}
    {seen : List Access} {r : Registry} :
    (p.map f).Ensures post seen r ↔ p.Ensures (fun a seen r => post (f a) seen r) seen r :=
  ensures_bind

theorem Ensures.step {post : α → List Access → Registry → Prop} {p q : Program α} {seen : List Access}
    {r r' : Registry} {a : Access} (h : p.Ensures post seen r) (step : Step p r a q r')
    (faithful : a.Faithful) : q.Ensures post (seen ++ [a]) r' := by
  cases step with
  | read => exact h
  | write => exact h
  | call reply => exact h reply faithful
  | breakOff text => trivial

/-- A program that ends does so as ensured. -/
theorem Ensures.of_steps {post : α → List Access → Registry → Prop} {p : Program α}
    {seen as : List Access} {r r' : Registry} {a : α} (h : p.Ensures post seen r)
    (steps : Steps p r as (done a) r') (faithful : ∀ x ∈ as, x.Faithful) : post a (seen ++ as) r' := by
  generalize he : done a = q at steps
  induction steps generalizing seen with
  | refl p r =>
    subst he
    simpa [Ensures] using h
  | @head _ _ _ _ _ _ x as first _ ih =>
    have := ih (h.step first (faithful x List.mem_cons_self))
      (fun y hy => faithful y (List.mem_cons_of_mem _ hy)) he
    simpa using this

end Program
end ServingLifecycle
