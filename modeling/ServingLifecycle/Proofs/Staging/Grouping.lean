import Mathlib.Data.List.DropRight
import ServingLifecycle.Proofs.Path.Names
import ServingLifecycle.Settings
/-!
# Joining in groups

It makes no difference at which end of a text slashes are dropped first, and a text of slashes alone vanishes between its
neighbours. So joining is associative, and a uri that is made of several parts is the same however they are grouped.
-/
namespace ServingLifecycle.Uri

theorem stem_eq_nil_iff {cs : List Char} : stem cs = [] ↔ ∀ c ∈ cs, c = '/' := by
  simp [stem]

theorem leaf_eq_nil_iff {cs : List Char} : leaf cs = [] ↔ ∀ c ∈ cs, c = '/' := by
  simp [leaf]

theorem stem_stem (cs : List Char) : stem (stem cs) = stem cs :=
  List.rdropWhile_idempotent _ cs

theorem leaf_leaf (cs : List Char) : leaf (leaf cs) = leaf cs :=
  List.dropWhile_idempotent _ cs

theorem leaf_slash (cs : List Char) : leaf ('/' :: cs) = leaf cs :=
  rfl

theorem leaf_cons_of_ne {c : Char} (h : c ≠ '/') (cs : List Char) : leaf (c :: cs) = c :: cs :=
  List.dropWhile_cons_of_neg (by simpa using h)

theorem leaf_append {a : List Char} (h : leaf a ≠ []) (b : List Char) : leaf (a ++ b) = leaf a ++ b := by
  rw [leaf, List.dropWhile_append, ← leaf, if_neg (by rwa [List.isEmpty_iff])]

theorem leaf_slashes_append {slashes : List Char} (h : ∀ c ∈ slashes, c = '/') (cs : List Char) :
    leaf (slashes ++ cs) = leaf cs := by
  rw [leaf, List.dropWhile_append_of_pos, leaf]
  intro c hc
  simp [h c hc]

theorem stem_cons (c : Char) (cs : List Char) :
    stem (c :: cs) = if c = '/' ∧ stem cs = [] then [] else c :: stem cs := by
  by_cases hs : stem cs = []
  · have vanishes : stem (c :: cs) = stem [c] := stem_append_slashes [c] (stem_eq_nil_iff.mp hs)
    rw [vanishes, hs]
    by_cases hc : c = '/' <;> simp [stem, hc]
  · rw [if_neg fun h => hs h.2]
    exact stem_append (a := [c]) hs

theorem stem_leaf (cs : List Char) : stem (leaf cs) = leaf (stem cs) := by
  induction cs with
  | nil => rfl
  | cons c cs ih =>
    rw [stem_cons]
    by_cases hc : c = '/'
    · subst hc
      rw [leaf_slash, ih]
      by_cases hs : stem cs = []
      · rw [if_pos ⟨rfl, hs⟩, hs]
      · rw [if_neg fun h => hs h.2]
        exact (leaf_slash _).symm
    · rw [if_neg fun h => hc h.1, leaf_cons_of_ne hc, leaf_cons_of_ne hc, stem_cons, if_neg fun h => hc h.1]

theorem join_assoc (a b c : String) : join (join a b) c = join a (join b c) := by
  rw [← String.toList_inj]
  simp only [toList_join]
  -- either nothing of the middle text is left, or both ways trim it at both ends
  by_cases middle : leaf (stem b.toList) = []
  · have base : stem (stem a.toList ++ '/' :: leaf b.toList) = stem a.toList := by
      rw [stem_append_slashes, stem_stem]
      exact List.forall_mem_cons.mpr ⟨rfl, stem_eq_nil_iff.mp ((stem_leaf _).trans middle)⟩
    have child : leaf (stem b.toList ++ '/' :: leaf c.toList) = leaf c.toList := by
      rw [leaf_slashes_append (leaf_eq_nil_iff.mp middle)]
      exact leaf_leaf _
    rw [base, child]
  · have base : stem (stem a.toList ++ '/' :: leaf b.toList) = stem a.toList ++ '/' :: leaf (stem b.toList) := by
      have kept : stem (leaf b.toList) ≠ [] := fun h => middle ((stem_leaf _).symm.trans h)
      rw [List.append_cons, stem_append kept, stem_leaf, ← List.append_cons]
    rw [base, leaf_append middle, List.append_assoc, List.cons_append]

/-- Parts of a uri in their order, grouped in some way. -/
inductive Grouping
  | part (text : String)
  | joined (base child : Grouping)

namespace Grouping

/-- The parts one after the other. -/
def parts : Grouping → List String
  | part text => [text]
  | joined base child => base.parts ++ child.parts

/-- The uri that the parts make when each group is joined first. -/
def uri : Grouping → String
  | part text => text
  | joined base child => join base.uri child.uri

theorem exists_parts (g : Grouping) : ∃ first rest, g.parts = first :: rest := by
  induction g with
  | part text => exact ⟨text, [], rfl⟩
  | joined base child hbase _ =>
    obtain ⟨first, rest, e⟩ := hbase
    exact ⟨first, rest ++ child.parts, by rw [parts, e, List.cons_append]⟩

/-- A group may be joined part by part. -/
theorem foldl_join_parts (g : Grouping) (base : String) : g.parts.foldl join base = join base g.uri := by
  induction g generalizing base with
  | part text => rfl
  | joined left right hleft hright => rw [parts, List.foldl_append, hleft, hright, uri, join_assoc]

theorem uri_eq_foldl {first : String} {rest : List String} (g : Grouping) (h : g.parts = first :: rest) :
    g.uri = rest.foldl join first := by
  induction g generalizing rest with
  | part text =>
    cases h
    rfl
  | joined base child hbase _ =>
    obtain ⟨text, front, e⟩ := base.exists_parts
    rw [parts, e, List.cons_append] at h
    obtain ⟨rfl, rfl⟩ := List.cons.inj h
    rw [uri, List.foldl_append, ← hbase e, foldl_join_parts]

end Grouping

/-- Joining is associative, so parts in one order make one uri however they are grouped. In particular, where a run is
staged does not depend on which of the staging root, the segments and the run id are joined first. -/
theorem parts_join_in_any_groups :
    (∀ a b c : String, join (join a b) c = join a (join b c))
    ∧ (∀ g g' : Grouping, g.parts = g'.parts → g.uri = g'.uri)
    ∧ ∀ (s : Settings) (i : Identity) (runId : String) (g : Grouping),
      g.parts = [s.stagingRoot, i.pipeline, i.step, i.model, runId] → g.uri = s.servedRoot i runId := by
  refine ⟨join_assoc, fun g g' same => ?_, fun s i runId g h => ?_⟩
  · obtain ⟨first, rest, h⟩ := g'.exists_parts
    rw [g.uri_eq_foldl (same.trans h), g'.uri_eq_foldl h]
  · rw [g.uri_eq_foldl h]
    simp only [List.foldl_cons, List.foldl_nil, Settings.servedRoot]

/-- Middle parts that vanish, and a run joined from its end below a root that is nothing but slashes. -/
theorem parts_join_in_any_groups_slashes :
    join (join (join "s3://b//" "//") "") "/m/" = join (join "s3://b//" (join "//" "")) "/m/"
    ∧ join (join "//" "p") (join "s" (join "m" "/1"))
      = { Settings.default with stagingRoot := "//" }.servedRoot ⟨"p", "s", "m"⟩ "/1" :=
  ⟨parts_join_in_any_groups.2.1
      (.joined (.joined (.joined (.part "s3://b//") (.part "//")) (.part "")) (.part "/m/"))
      (.joined (.joined (.part "s3://b//") (.joined (.part "//") (.part ""))) (.part "/m/")) rfl,
    parts_join_in_any_groups.2.2 { Settings.default with stagingRoot := "//" } ⟨"p", "s", "m"⟩ "/1"
      (.joined (.joined (.part "//") (.part "p")) (.joined (.part "s") (.joined (.part "m") (.part "/1")))) rfl⟩

end ServingLifecycle.Uri
