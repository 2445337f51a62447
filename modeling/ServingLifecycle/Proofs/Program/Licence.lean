import ServingLifecycle.Proofs.Program.Steps
/-!
# Licensed programs

A licence says what a program may do next to the registry and to the world outside, from all that was seen of
it before. `Respects` says that a program stays within its licence as long as the answers to its calls can be
trusted as far as `trusted` says. It is taken apart along the program, like `Ensures`.
-/
namespace ServingLifecycle

/-- What may be done next, after what was seen and over the registry as it is. -/
structure Licence where
  change : List Access → Registry → Registry.Change → Prop
  call : List Access → Registry → Call → Prop

/-- The call that was made, whether it was answered or broke off. -/
def Access.asked : Access → Option Call
  | call c _ => some c
  | brokenOff c _ => some c
  | _ => none

namespace Program

variable {α β : Type} {trusted : Access → Prop} {licence : Licence}

/-- However the calls are answered, as long as it is in a trusted way, the program keeps to its licence and
ends in `post`. -/
def Respects (trusted : Access → Prop) (licence : Licence) (post : α → List Access → Registry → Prop) :
    Program α → List Access → Registry → Prop
  | done a, seen, r => post a seen r
  | abort _, _, _ => True
  | read i next, seen, r =>
    (next (r.find i)).Respects trusted licence post (seen ++ [.read i (r.find i)]) r
  | write change next, seen, r =>
    licence.change seen r change ∧ next.Respects trusted licence post (seen ++ [.write change]) (r.apply change)
  | call c next, seen, r =>
    licence.call seen r c ∧ ∀ reply, trusted (.call c reply) →
      (next reply).Respects trusted licence post (seen ++ [.call c reply]) r

variable {post post' : α → List Access → Registry → Prop} {p q : Program α} {seen as : List Access}
  {r r' : Registry} {a : Access}

theorem Respects.mono (h : ∀ a seen r, post a seen r → post' a seen r)
    (hp : p.Respects trusted licence post seen r) : p.Respects trusted licence post' seen r := by
  induction p generalizing seen r with
  | done a => exact h a seen r hp
  | abort fault => trivial
  | read i next ih => exact ih _ hp
  | write change next ih => exact ⟨hp.1, ih hp.2⟩
  | call c next ih => exact ⟨hp.1, fun reply ht => ih reply (hp.2 reply ht)⟩

theorem respects_bind {post : β → List Access → Registry → Prop} {f : α → Program β} :
    (p.bind f).Respects trusted licence post seen r ↔
      p.Respects trusted licence (fun a seen r => (f a).Respects trusted licence post seen r) seen r := by
  induction p generalizing seen r with
  | done a => exact Iff.rfl
  | abort fault => exact Iff.rfl
  | read i next ih => exact ih _
  | write change next ih => exact and_congr_right fun _ => ih
  | call c next ih =>
    exact and_congr_right fun _ => forall_congr' fun reply => imp_congr_right fun _ => ih reply

theorem respects_map {post : β → List Access → Registry → Prop} {f : α → β} :
    (p.map f).Respects trusted licence post seen r ↔
      p.Respects trusted licence (fun a seen r => post (f a) seen r) seen r :=
  respects_bind

theorem Respects.step (h : p.Respects trusted licence post seen r) (step : Step p r a q r') (ha : trusted a) :
    q.Respects trusted licence post (seen ++ [a]) r' := by
  cases step with
  | read => exact h
  | write => exact h.2
  | call reply => exact h.2 reply ha
  | breakOff text => trivial

theorem Respects.steps (h : p.Respects trusted licence post seen r) (steps : Steps p r as q r')
    (ha : ∀ a ∈ as, trusted a) : q.Respects trusted licence post (seen ++ as) r' := by
  induction steps generalizing seen with
  | refl p r => simpa using h
  | @head p q _ r r₁ _ x as first rest ih =>
    have := ih (h.step first (ha x List.mem_cons_self)) fun y hy => ha y (List.mem_cons_of_mem _ hy)
    simpa using this

/-- What every licensed change establishes holds of the registry all along. -/
theorem Respects.invariant (inv : Registry → Prop) (h : p.Respects trusted licence post seen r)
    (licensed : ∀ {seen r change}, licence.change seen r change → inv r → inv (r.apply change)) (hr : inv r)
    (steps : Steps p r as q r') (ha : ∀ a ∈ as, trusted a) : inv r' := by
  induction steps generalizing seen with
  | refl p r => exact hr
  | @head p q _ r r₁ _ x as first rest ih =>
    have ht := ha x List.mem_cons_self
    refine ih (h.step first ht) ?_ fun y hy => ha y (List.mem_cons_of_mem _ hy)
    cases first with
    | write => exact licensed h.1 hr
    | _ => exact hr

/-- Every call that was made was licensed when it was made. -/
theorem Respects.licensed (h : p.Respects trusted licence post seen r) (steps : Steps p r as q r')
    (ha : ∀ a ∈ as, trusted a) (hm : a ∈ as) {c : Call} (hc : a.asked = some c) :
    ∃ seen r, licence.call seen r c := by
  induction steps generalizing seen with
  | refl p r => cases hm
  | @head p q _ r r₁ _ x as first rest ih =>
    rcases List.mem_cons.mp hm with rfl | hm
    · cases first with
      | read => cases hc
      | write => cases hc
      | call reply =>
        cases hc
        exact ⟨seen, r, h.1⟩
      | breakOff text =>
        cases hc
        exact ⟨seen, r, h.1⟩
    · exact ih (h.step first (ha x List.mem_cons_self)) (fun y hy => ha y (List.mem_cons_of_mem _ hy)) hm

end Program
end ServingLifecycle
