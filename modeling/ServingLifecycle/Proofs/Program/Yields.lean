import ServingLifecycle.Proofs.Program.Steps
import ServingLifecycle.Proofs.Registry.Entries
/-!
# What programs yield amid others

Amid other tasks a program may find any services of a slot whenever it reads it. `Yields post` says how the
program ends whatever it finds and whatever is answered, told of all that was seen of it.
-/
namespace ServingLifecycle.Program

variable {α β : Type}

def Yields (post : α → List Access → Prop) : Program α → List Access → Prop
  | done a, seen => post a seen
  | abort _, _ => True
  | read i next, seen => ∀ services, (∀ s ∈ services, s.identity = i) →
    (next services).Yields post (seen ++ [.read i services])
  | write change next, seen => next.Yields post (seen ++ [.write change])
  | call c next, seen => ∀ reply, (next reply).Yields post (seen ++ [.call c reply])

variable {post post' : α → List Access → Prop} {p q : Program α} {seen : List Access}

theorem Yields.mono (hp : p.Yields post seen) (h : ∀ a seen', seen <+: seen' → post a seen' → post' a seen') :
    p.Yields post' seen := by
  induction p generalizing seen with
  | done a => exact h a seen (List.prefix_refl seen) hp
  | abort fault => trivial
  | read i next ih =>
    exact fun services hs => ih services (hp services hs) fun a _ more =>
      h a _ ((List.prefix_append _ _).trans more)
  | write change next ih => exact ih hp fun a _ more => h a _ ((List.prefix_append _ _).trans more)
  | call c next ih =>
    exact fun reply => ih reply (hp reply) fun a _ more => h a _ ((List.prefix_append _ _).trans more)

theorem yields_bind {post : β → List Access → Prop} {f : α → Program β} :
    (p.bind f).Yields post seen ↔ p.Yields (fun a seen => (f a).Yields post seen) seen := by
  induction p generalizing seen with
  | done a => exact Iff.rfl
  | abort fault => exact Iff.rfl
  | read i next ih => exact forall_congr' fun services => imp_congr_right fun _ => ih services
  | write change next ih => exact ih
  | call c next ih => exact forall_congr' fun reply => ih reply

theorem yields_map {post : β → List Access → Prop} {f : α → β} :
    (p.map f).Yields post seen ↔ p.Yields (fun a seen => post (f a) seen) seen :=
  yields_bind

/-- What is left of a program still yields what the whole does. -/
theorem Yields.step {r r' : Registry} {a : Access} (h : p.Yields post seen) (step : Step p r a q r') :
    q.Yields post (seen ++ [a]) := by
  cases step with
  | read => exact h _ fun _ => Registry.identity_of_mem_find
  | write => exact h
  | call reply => exact h reply
  | breakOff text => trivial

end ServingLifecycle.Program
