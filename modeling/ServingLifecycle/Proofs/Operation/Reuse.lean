import ServingLifecycle.Proofs.Operation.Continuity
/-!
# Reuse of a running service

Over a slot that holds one service, and that one running, a start and a deployment with a negative decision have
nothing to do: they read the slot, find that service and answer with it. `Consults` says so of a program: it reads
one slot and asks for nothing, as long as it finds there what it should.
-/
namespace ServingLifecycle
namespace Program

variable {α β : Type}

/-- The program reads the slot and does nothing else. If it finds `services` each time, it ends in `post`. -/
def Consults (i : Identity) (services : List Service) (post : α → Prop) : Program α → Prop
  | done a => post a
  | read j next => j = i ∧ (next services).Consults i services post
  | _ => False

variable {i : Identity} {services : List Service} {p q : Program α} {r r' : Registry} {a : Access}

theorem Consults.mono {post post' : α → Prop} (h : ∀ a, post a → post' a) (hp : p.Consults i services post) :
    p.Consults i services post' := by
  induction p with
  | done a => exact h a hp
  | read j next ih => exact ⟨hp.1, ih _ hp.2⟩
  | _ => exact hp.elim

theorem consults_bind {post : β → Prop} {f : α → Program β}
    (h : p.Consults i services fun a => (f a).Consults i services post) : (p.bind f).Consults i services post := by
  induction p with
  | done a => exact h
  | read j next ih => exact ⟨h.1, ih _ h.2⟩
  | _ => exact h.elim

theorem Consults.map {post : β → Prop} {f : α → β} (h : p.Consults i services fun a => post (f a)) :
    (p.map f).Consults i services post :=
  consults_bind h

/-- Each step reads the slot, and leaves the registry as it is. -/
theorem Consults.step {post : α → Prop} (h : p.Consults i services post) (step : Step p r a q r')
    (found : r.find i = services) : a = .read i services ∧ r' = r ∧ q.Consults i services post := by
  subst found
  cases step with
  | read =>
    obtain ⟨rfl, h⟩ := h
    exact ⟨rfl, rfl, h⟩
  | _ => exact h.elim

/-- A program that consults does not break off. -/
theorem Consults.done_of_isOver {post : α → Prop} (h : p.Consults i services post) (ended : p.isOver = true) :
    ∃ a, p = done a ∧ post a := by
  cases p with
  | done a => exact ⟨a, rfl, h⟩
  | abort fault => exact h.elim
  | _ => cases ended

end Program

namespace Operation
open Program

variable {d : Service} {action : Action}

/-- Where a service is alone there is nothing to retire. -/
theorem retireOthers_consults : (retireOthers d action).Consults d.identity [d] (· = .ok d) := by
  refine ⟨rfl, ?_⟩
  simp [Consults]

theorem ensureRunning_consults {grace timeout : Duration} (running : d.isRunning = true) :
    (ensureRunning grace d timeout action).Consults d.identity [d] (· = .ok d) := by
  rw [ensureRunning, if_pos running]
  exact retireOthers_consults

/-- An operation that keeps the newest service consults a slot that one running service has to itself, and answers
with that service. -/
theorem program_consults {settings : Settings} {op : Operation} (keeps : op.keepsNewest = true)
    (own : d.identity = op.identity) (running : d.isRunning = true) :
    (op.program settings).Consults op.identity [d] fun verdict => verdict.result = .ok (.service d) := by
  rw [← own]
  cases op with
  | deploy request =>
    have negative : request.decision = false := by simpa [keepsNewest] using keeps
    refine ⟨own.symm, ?_⟩
    rw [negative]
    exact Consults.map ((ensureRunning_consults running).mono fun result h => by rw [h]; rfl)
  | start i timeout =>
    refine ⟨own.symm, ?_⟩
    exact Consults.map ((ensureRunning_consults running).mono fun result h => by rw [h]; rfl)
  | _ => cases keeps

end Operation
end ServingLifecycle
