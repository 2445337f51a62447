import ServingLifecycle.Proofs.Backend.Stock
import ServingLifecycle.Proofs.Slot.Outlook
/-!
# How far up the services of the simulated backend are

No service of the backend is further up than the replies tell, or than a deadline that is over leaves it to be
expected. Disturbances bring services down, never up.
-/
namespace ServingLifecycle

theorem Call.shows_of_late {c : Call} {w : Outlook} {reply : c.Reply} (hr : c.reply? .late = some reply) :
    c.Shows w reply (c.unheard w) := by
  cases c with
  | stage => cases hr
  | ask c => cases c <;> cases hr
  | askWithin c deadline => cases c <;> cases hr <;> exact .unheard

namespace SimulatedBackend

variable {R : Service → Service → Prop} {b : SimulatedBackend} {stock : Stock} {birth : Birth}

theorem Covers.disturb (h : b.Covers Service.Bounds stock) (d : Disturbance) :
    (b.disturb d).Covers Service.Bounds stock := by
  cases d with
  | crash uuid =>
    intro u x hx
    obtain ⟨y, hy, le⟩ := h u x hx
    change ∃ z, (b.setState uuid .stopped).find? u = some z ∧ _
    rw [find?_setState, hy]
    split
    · exact ⟨y.withState .stopped, rfl, Nat.zero_le _⟩
    · exact ⟨y, rfl, le⟩
  | _ => exact h

/-- A start that is not answered at once has set its service on its way up. -/
theorem follows_start {s : Service} {timeout : Duration}
    (unanswered : ∀ a, (b.take birth (.start s timeout)).1 ≠ .answered a) :
    Follows stock b (stock.setState s.uuid .starting) (b.take birth (.start s timeout)).2 := by
  have ht := taken b birth (.start s timeout)
  generalize (b.take birth (.start s timeout)).1 = response at ht unanswered
  generalize (b.take birth (.start s timeout)).2 = b' at ht ⊢
  cases ht with
  | offline | unknown | running => exact absurd rfl (unanswered _)
  | @started _ current _ call online hf hr =>
    refine (follows_setState s.uuid .starting).trans (follows_congr fun u => ?_)
    change ((b.see call).put (current.withState .starting)).find? u = _
    rw [find?_put, find?_setState, Service.uuid_withState, (mem_of_find? hf).2]
    split
    · rename_i hu
      rw [hu, hf]
      rfl
    · rfl

/-- A deployment leaves the services that are known alone as long as it waits. -/
theorem Covers.deploy {layout : Layout} {i : Identity} {runId : String} {replace : Bool} {timeout : Duration}
    (h : b.Covers R stock) (unused : b.Unused birth (.deploy layout i runId replace timeout)) :
    (b.take birth (.deploy layout i runId replace timeout)).2.Covers R stock := by
  have ht := taken b birth (.deploy layout i runId replace timeout)
  generalize (b.take birth (.deploy layout i runId replace timeout)).1 = response at ht
  generalize (b.take birth (.deploy layout i runId replace timeout)).2 = b' at ht ⊢
  cases ht with
  | offline => exact h
  | deployed call online =>
    intro u x hx
    obtain ⟨y, hy, rel⟩ := h u x hx
    obtain ⟨hm, rfl⟩ := mem_of_find? hy
    refine ⟨y, ?_, rel⟩
    change ((b.see call).put ((newService birth layout i runId).withState .starting)).find? y.uuid = _
    rw [find?_put]
    exact (if_neg (unused rfl y hm)).trans hy

/-- A call that is cut short leaves its service on its way up, if it is one that is known. -/
theorem Covers.cut {call : Call} {c : BackendCall} {w : Outlook} {reply : call.Reply}
    (h : b.Covers Service.Bounds w.stock) (unused : b.Unused birth c) (hc : call.backendCall? = some c)
    (unanswered : ∀ a, (b.take birth c).1 ≠ .answered a) (hr : call.reply? .late = some reply) :
    (b.take birth c).2.Covers Service.Bounds (call.unheard w).stock := by
  cases call with
  | stage => cases hc
  | ask c => cases c <;> cases hr
  | askWithin c deadline =>
    cases hc
    cases c with
    | deploy => exact h.deploy unused
    | start => exact (follows_start unanswered).covers faithful_bounds h
    | stop | status => exact absurd rfl (unanswered _)

end SimulatedBackend
end ServingLifecycle
