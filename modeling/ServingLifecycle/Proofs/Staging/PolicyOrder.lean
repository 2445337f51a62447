import Mathlib.Data.List.Induction
import ServingLifecycle.Proofs.Staging.Extent
import ServingLifecycle.Staging.Configured
/-!
# The order of configured policies

Of the policies that are set for a kind the last one counts. So the order in which configured policies are set
makes no difference exactly if no two of them are for one kind and yet different. Keys that differ as texts can be
for one kind: a kind is told neither by letter case nor by blanks around it.
-/
namespace ServingLifecycle

namespace PolicyTable

variable {t : PolicyTable} {policies order : List (String × StagingPolicy)} {kind : PredictorKind}
  {entry : String × StagingPolicy}

/-- No two policies are for one kind and yet different. -/
def Agree (policies : List (String × StagingPolicy)) : Prop :=
  ∀ a ∈ policies, ∀ b ∈ policies, PredictorKind.ofText a.1 = PredictorKind.ofText b.1 → a.2 = b.2

theorem Agree.perm (h : Agree policies) (perm : order.Perm policies) : Agree order :=
  fun a ha b hb => h a (perm.subset ha) b (perm.subset hb)

/-- What is set last for a kind is its policy. -/
theorem policy_setAll_concat : (t.setAll (policies ++ [entry])).policy kind =
    if kind = .ofText entry.1 then entry.2 else (t.setAll policies).policy kind := by
  rw [setAll, List.foldl_append]
  exact policy_set ..

theorem policy_setAll_of_notMem (h : ∀ e ∈ policies, kind ≠ .ofText e.1) :
    (t.setAll policies).policy kind = t.policy kind := by
  induction policies using List.reverseRecOn with
  | nil => rfl
  | append_singleton policies last ih =>
    rw [policy_setAll_concat, if_neg (h last (by simp))]
    exact ih fun e he => h e (List.mem_append_left _ he)

/-- Where the policies agree, every one of them is the policy of its kind. -/
theorem policy_setAll_of_mem (agree : Agree policies) (he : entry ∈ policies) :
    (t.setAll policies).policy (.ofText entry.1) = entry.2 := by
  induction policies using List.reverseRecOn with
  | nil => cases he
  | append_singleton policies last ih =>
    rw [policy_setAll_concat]
    split
    · rename_i same
      exact agree last (by simp) entry he same.symm
    · rename_i other
      rcases List.mem_append.mp he with he | he
      · exact ih (fun a ha b hb => agree a (List.mem_append_left _ ha) b (List.mem_append_left _ hb)) he
      · rw [List.mem_singleton.mp he] at other
        exact absurd rfl other

theorem policy_setAll_perm (agree : Agree policies) (perm : order.Perm policies) (kind : PredictorKind) :
    (t.setAll order).policy kind = (t.setAll policies).policy kind := by
  by_cases h : ∃ e ∈ policies, kind = .ofText e.1
  · obtain ⟨e, he, rfl⟩ := h
    rw [policy_setAll_of_mem agree he, policy_setAll_of_mem (agree.perm perm) (perm.symm.subset he)]
  · have none : ∀ e ∈ policies, kind ≠ .ofText e.1 := fun e he same => h ⟨e, he, same⟩
    rw [policy_setAll_of_notMem none, policy_setAll_of_notMem fun e he => none e (perm.subset he)]

/-- A policy can be set as the last of all. -/
theorem exists_perm_setAll (he : entry ∈ policies) : ∃ order, order.Perm policies
    ∧ (t.setAll order).policy (.ofText entry.1) = entry.2 := by
  refine ⟨policies.erase entry ++ [entry], ?_, by rw [policy_setAll_concat, if_pos rfl]⟩
  exact (List.perm_append_singleton entry _).trans (List.perm_cons_erase he).symm

end PolicyTable

namespace Locator

variable {σ : Type} {l l' : Locator σ} {kind : PredictorKind}

/-- Of the policies of a locator staging asks for that of the kind alone. -/
theorem locate_congr (storage : l.storage = l'.storage) (policy : l.policies.policy kind = l'.policies.policy kind)
    (uri root : String) : l.locate uri kind root = l'.locate uri kind root := by
  unfold locate
  rw [storage, policy]

/-- The order of the configured policies makes no difference, neither to the policy of any kind nor to what is
staged, exactly if no two of them are for one kind and yet different. -/
theorem configured_order_irrelevant_iff (disk : Filesystem σ) (s : Settings) :
    (∀ order : List (String × StagingPolicy), order.Perm s.policies → ∀ kind,
      (ofSettings disk { s with policies := order }).policies.policy kind = (ofSettings disk s).policies.policy kind
        ∧ ∀ uri root, (ofSettings disk { s with policies := order }).locate uri kind root
          = (ofSettings disk s).locate uri kind root)
    ↔ ∀ a ∈ s.policies, ∀ b ∈ s.policies, PredictorKind.ofText a.1 = PredictorKind.ofText b.1 → a.2 = b.2 := by
  constructor
  · intro h a ha b hb same
    obtain ⟨first, perm, hfirst⟩ := PolicyTable.exists_perm_setAll (t := .builtin) ha
    obtain ⟨second, perm', hsecond⟩ := PolicyTable.exists_perm_setAll (t := .builtin) hb
    have e := (h first perm (.ofText a.1)).1.trans (h second perm' (.ofText a.1)).1.symm
    rw [← hfirst, ← hsecond, ← same]
    exact e
  · intro agree order perm kind
    have policy := PolicyTable.policy_setAll_perm (t := .builtin) agree perm kind
    exact ⟨policy, locate_congr rfl policy⟩

/-- Settings with a policy for each of two keys of one kind. -/
def twoSpellings : Settings :=
  { Settings.default with policies := [("custom", .passthrough), ("Custom", .singleFile "model" "model.bin")] }

/-- Two keys that differ by letter case alone: which of the two policies holds is up to the order, and so is whether
anything is staged. -/
theorem order_decides_policy : twoSpellings.Valid ∧ (twoSpellings.policies.map Prod.fst).Nodup
    ∧ twoSpellings.policies.reverse.Perm twoSpellings.policies
    ∧ (ofSettings localFilesystem twoSpellings).policies.policy (.ofText "custom") = .singleFile "model" "model.bin"
    ∧ (ofSettings localFilesystem { twoSpellings with policies := twoSpellings.policies.reverse }).policies.policy
        (.ofText "custom") = .passthrough
    ∧ ((ofSettings localFilesystem twoSpellings).locate "art" (.ofText "custom") "served" .shelf).2.get?
        ["served", "model.bin"] = some (.file [119])
    ∧ ((ofSettings localFilesystem { twoSpellings with policies := twoSpellings.policies.reverse }).locate "art"
        (.ofText "custom") "served" .shelf).2 = .shelf := by
  have local' (policies : List (String × StagingPolicy)) : ofSettings localFilesystem
      { twoSpellings with policies := policies } =
        ⟨⟨[⟨LocalFilesystem.scheme, Storage.defaultPriority, 0, localFilesystem⟩,
            ⟨"", Storage.defaultPriority, 0, localFilesystem⟩], 1⟩, PolicyTable.builtin.setAll policies⟩ :=
    congrArg (Locator.mk · _) Storage.ofFilesystem_local
  refine ⟨by decide, by decide, List.reverse_perm _, ?_, ?_, ?_, ?_⟩
  · decide +kernel
  · decide +kernel
  · rw [show twoSpellings = { twoSpellings with policies := twoSpellings.policies } from rfl, local']
    decide +kernel
  · rw [local']
    rfl

end Locator
end ServingLifecycle
