import ServingLifecycle.Proofs.Program.Licence
/-!
# Overdue services

Any call to the backend may fail because a service did not start in time, and the failure may carry a descriptor
of that overdue service. A program heeds such failures if it calls and reads no more after one: it concludes by
itself, and what it ends in is told of the call, the service and the registry at the time.
-/
namespace ServingLifecycle

/-- The service that a failed call reports as overdue. -/
def BackendCall.overdue (c : BackendCall) (reply : c.Reply) : Option Service :=
  match reply with
  | .ok _ => none
  | .error e => e.handedOver

def Call.overdue : (c : Call) → c.Reply → Option Service
  | stage .., _ => none
  | ask c, reply => c.overdue reply
  | askWithin c _, some reply => c.overdue reply
  | askWithin .., none => none

namespace Program

variable {α β : Type}

/-- The program only changes the registry any more, and ends in `post`. -/
def Concludes (post : α → Registry → Prop) : Program α → Registry → Prop
  | done a, r => post a r
  | write change next, r => next.Concludes post (r.apply change)
  | _, _ => False

theorem Concludes.mono {post post' : α → Registry → Prop} (h : ∀ a r, post a r → post' a r)
    {p : Program α} {r : Registry} (hp : p.Concludes post r) : p.Concludes post' r := by
  induction p generalizing r with
  | done a => exact h a r hp
  | write change next ih => exact ih hp
  | _ => exact hp.elim

theorem concludes_bind {post : β → Registry → Prop} {p : Program α} {f : α → Program β} {r : Registry}
    (h : p.Concludes (fun a r => (f a).Concludes post r) r) : (p.bind f).Concludes post r := by
  induction p generalizing r with
  | done a => exact h
  | write change next ih => exact ih h
  | _ => exact h.elim

theorem Concludes.step {post : α → Registry → Prop} {p q : Program α} {r r' : Registry} {a : Access}
    (h : p.Concludes post r) (step : Step p r a q r') : a.asked = none ∧ q.Concludes post r' := by
  cases step with
  | write => exact ⟨rfl, h⟩
  | _ => exact h.elim

/-- A program that concludes asks for nothing on its way. -/
theorem Concludes.steps {post : α → Registry → Prop} {p q : Program α} {r r' : Registry} {as : List Access}
    (h : p.Concludes post r) (steps : Steps p r as q r') :
    (∀ a ∈ as, a.asked = none) ∧ q.Concludes post r' := by
  induction steps with
  | refl p r => exact ⟨by simp, h⟩
  | head first rest ih =>
    obtain ⟨silent, hq⟩ := h.step first
    obtain ⟨later, hp⟩ := ih hq
    exact ⟨List.forall_mem_cons.mpr ⟨silent, later⟩, hp⟩

/-- After an overdue service was reported the program concludes in what `heeded` says of the call, the service
and the registry at the time. -/
def Heeds (heeded : Call → Service → Registry → α → Registry → Prop) : Program α → Registry → Prop
  | done _, _ => True
  | abort _, _ => True
  | read i next, r => (next (r.find i)).Heeds heeded r
  | write change next, r => next.Heeds heeded (r.apply change)
  | call c next, r => ∀ reply,
    (∀ s ∈ c.overdue reply, (next reply).Concludes (heeded c s r) r)
      ∧ (c.overdue reply = none → (next reply).Heeds heeded r)

variable {heeded : Call → Service → Registry → α → Registry → Prop}

theorem Heeds.bind {heeded' : Call → Service → Registry → β → Registry → Prop} {p : Program α}
    {f : α → Program β} {r : Registry} (hp : p.Heeds heeded r) (hf : ∀ a r, (f a).Heeds heeded' r)
    (concluded : ∀ c s r₁ a r, heeded c s r₁ a r → (f a).Concludes (heeded' c s r₁) r) :
    (p.bind f).Heeds heeded' r := by
  induction p generalizing r with
  | done a => exact hf a r
  | abort fault => trivial
  | read i next ih => exact ih _ hp
  | write change next ih => exact ih hp
  | call c next ih =>
    intro reply
    obtain ⟨overdue, other⟩ := hp reply
    exact ⟨fun s hs => concludes_bind ((overdue s hs).mono fun a r => concluded c s _ a r),
      fun none => ih reply (other none)⟩

/-- After each step the program heeds failures as before, or is about to conclude. -/
theorem Heeds.step {p q : Program α} {r r' : Registry} {a : Access} (h : p.Heeds heeded r)
    (step : Step p r a q r') : q.Heeds heeded r' ∨ ∃ post, q.Concludes post r' := by
  cases step with
  | read => exact .inl h
  | write => exact .inl h
  | @call c next r reply =>
    cases hc : c.overdue reply with
    | none => exact .inl ((h reply).2 hc)
    | some s => exact .inr ⟨_, (h reply).1 s hc⟩
  | breakOff text => exact .inl trivial

/-- Wherever an overdue service was reported along a run, the program was about to conclude from there. -/
theorem Heeds.concludes {p q : Program α} {r r' : Registry} {as : List Access} {c : Call} {reply : c.Reply}
    {s : Service} (h : p.Heeds heeded r) (steps : Steps p r as q r') (reported : .call c reply ∈ as)
    (hs : s ∈ c.overdue reply) :
    ∃ earlier p₁ r₁ later, as = earlier ++ .call c reply :: later ∧ Steps p r earlier p₁ r₁
      ∧ q.Concludes (heeded c s r₁) r' := by
  induction steps with
  | refl p r => cases reported
  | @head p q _ r r₁ _ x as first rest ih =>
    rcases List.mem_cons.mp reported with rfl | later
    · cases first with | call =>
      exact ⟨[], _, r, as, rfl, .refl _ _, (((h reply).1 s hs).steps rest).2⟩
    · rcases h.step first with hq | ⟨post, hq⟩
      · obtain ⟨earlier, p₁, r₂, after, rfl, before, concludes⟩ := ih hq later
        exact ⟨x :: earlier, p₁, r₂, after, rfl, .head first before, concludes⟩
      · have silent := (hq.steps rest).1 _ later
        cases silent

end Program
end ServingLifecycle
