import Mathlib.Data.List.Nodup
import ServingLifecycle.Proofs.Path.Names
/-!
# Disks as trees

On a disk that is a tree every entry lies in a directory, under a name that such an entry can have.
`d.Keeps d'` says that whatever is on `d` is on `d'` too, where only the content of files may be another.
Making a directory where nothing is and writing a file where no directory or link is do both.
-/
namespace ServingLifecycle

/-- What may have become of a node in the meantime: a file may have other content. -/
def Node.Remains (node node' : Node) : Prop :=
  node' = node ∨ ∃ content content', node = .file content ∧ node' = .file content'

theorem Node.remains_file (content content' : Bytes) : (Node.file content).Remains (.file content') :=
  Or.inr ⟨content, content', rfl, rfl⟩

theorem Node.Remains.refl (node : Node) : node.Remains node :=
  Or.inl rfl

theorem Node.Remains.symm {node node' : Node} (h : node.Remains node') : node'.Remains node := by
  rcases h with rfl | ⟨content, content', rfl, rfl⟩
  · exact .refl node'
  · exact Node.remains_file content' content

theorem Node.Remains.eq_directory {node : Node} (h : Node.directory.Remains node) : node = .directory := by
  rcases h with rfl | ⟨_, _, ⟨⟩, -⟩
  rfl

namespace Disk

structure IsTree (d : Disk) : Prop where
  nodup : (d.entries.map Prod.fst).Nodup
  proper : ∀ {loc : Location} {name : String} {node : Node}, d.get? (loc ++ [name]) = some node →
    Path.IsProper name
  parent : ∀ {loc : Location} {name : String} {node : Node}, d.get? (loc ++ [name]) = some node →
    d.get? loc = some .directory
  home : d.get? d.home = some .directory

structure Keeps (d d' : Disk) : Prop where
  home : d'.home = d.home
  limits : d'.limits = d.limits
  remains : ∀ {loc : Location} {node : Node}, d.get? loc = some node →
    ∃ node', d'.get? loc = some node' ∧ node.Remains node'

variable {d d' d'' : Disk} {loc parent : Location} {name : String} {node : Node}

theorem get?_nil (d : Disk) : d.get? [] = some .directory := rfl

namespace Keeps

theorem refl (d : Disk) : d.Keeps d :=
  ⟨rfl, rfl, fun h => ⟨_, h, Or.inl rfl⟩⟩

theorem directory (h : d.Keeps d') (hd : d.get? loc = some .directory) : d'.get? loc = some .directory := by
  obtain ⟨node, hn, rfl | ⟨_, _, ⟨⟩, _⟩⟩ := h.remains hd
  exact hn

/-- What was there and is a directory now was one. -/
theorem was_directory (h : d.Keeps d') (old : d.get? loc = some node) (now : d'.get? loc = some .directory) :
    d.get? loc = some .directory := by
  obtain ⟨node', hn, remains⟩ := h.remains old
  rw [now] at hn
  cases hn
  rw [old, remains.symm.eq_directory]

theorem link (h : d.Keeps d') {target : String} (hd : d.get? loc = some (.link target)) :
    d'.get? loc = some (.link target) := by
  obtain ⟨node, hn, rfl | ⟨_, _, ⟨⟩, _⟩⟩ := h.remains hd
  exact hn

theorem file (h : d.Keeps d') {content : Bytes} (hd : d.get? loc = some (.file content)) :
    ∃ content', d'.get? loc = some (.file content') := by
  obtain ⟨node, hn, rfl | ⟨_, content', _, rfl⟩⟩ := h.remains hd
  · exact ⟨content, hn⟩
  · exact ⟨content', hn⟩

theorem trans (h : d.Keeps d') (h' : d'.Keeps d'') : d.Keeps d'' where
  home := h'.home.trans h.home
  limits := h'.limits.trans h.limits
  remains := by
    intro loc node hn
    cases node with
    | directory => exact ⟨_, h'.directory (h.directory hn), Or.inl rfl⟩
    | link target => exact ⟨_, h'.link (h.link hn), Or.inl rfl⟩
    | file content =>
      obtain ⟨content', hn'⟩ := h.file hn
      obtain ⟨content'', hn''⟩ := h'.file hn'
      exact ⟨_, hn'', Or.inr ⟨content, content'', rfl, rfl⟩⟩

/-- Nothing is there that was not there before, or else it was missing. -/
theorem get?_eq_none (h : d.Keeps d') (hn : d'.get? loc = none) : d.get? loc = none := by
  cases hd : d.get? loc with
  | none => rfl
  | some node =>
    obtain ⟨node', hn', _⟩ := h.remains hd
    rw [hn] at hn'
    cases hn'

theorem start (h : d.Keeps d') (path : String) : d'.start path = d.start path := by
  unfold Disk.start
  rw [h.home]

theorem nameExceeds (h : d.Keeps d') (name : String) : d'.nameExceeds name = d.nameExceeds name := by
  unfold Disk.nameExceeds
  rw [h.limits]

theorem pathFault? (h : d.Keeps d') (path : String) : d'.pathFault? path = d.pathFault? path := by
  unfold Disk.pathFault?
  rw [h.limits]

/-- A node may be put where it is what may have become of the one that was there. -/
theorem put (hne : loc ≠ []) (h : ∀ old, d.get? loc = some old → old.Remains node) : d.Keeps (d.put loc node) where
  home := rfl
  limits := rfl
  remains := by
    intro l old hl
    rw [get?_put hne]
    split
    · subst l
      exact ⟨node, rfl, h old hl⟩
    · exact ⟨old, hl, Or.inl rfl⟩

end Keeps

theorem map_fst_place (es : List (Location × Node)) : (put.place loc node es).map Prod.fst =
    if loc ∈ es.map Prod.fst then es.map Prod.fst else es.map Prod.fst ++ [loc] := by
  induction es with
  | nil => simp [put.place]
  | cons e es ih =>
    obtain ⟨k, n⟩ := e
    unfold put.place
    by_cases h : k = loc
    · simp [h]
    · rw [if_neg h, List.map_cons, ih]
      by_cases hm : loc ∈ es.map Prod.fst <;> simp [hm, Ne.symm h]

theorem lookup_of_mem {es : List (Location × Node)} (h : (es.map Prod.fst).Nodup) (hm : (loc, node) ∈ es) :
    es.lookup loc = some node := by
  induction es with
  | nil => cases hm
  | cons e es ih =>
    obtain ⟨k, n⟩ := e
    rw [List.map_cons, List.nodup_cons] at h
    rcases List.mem_cons.mp hm with e | later
    · cases e
      simp
    · have hne : loc ≠ k := fun e => h.1 (List.mem_map.mpr ⟨(loc, node), later, e⟩)
      rw [List.lookup_cons, beq_false_of_ne hne]
      exact ih h.2 later

/-- Whether a disk is a tree can be told from its entries. -/
theorem isTree_of_entries (nodup : (d.entries.map Prod.fst).Nodup)
    (entries : ∀ entry ∈ d.entries, ∀ name ∈ entry.1.getLast?,
      Path.IsProper name ∧ d.get? entry.1.dropLast = some .directory)
    (home : d.get? d.home = some .directory) : d.IsTree := by
  have below {loc : Location} {name : String} {node : Node} (hn : d.get? (loc ++ [name]) = some node) :
      Path.IsProper name ∧ d.get? loc = some .directory := by
    unfold get? at hn
    rw [if_neg (by simp)] at hn
    obtain ⟨before, after, e, -⟩ := List.lookup_eq_some_iff.mp hn
    have := entries (loc ++ [name], node) (by simp [e]) name (by simp)
    rwa [List.dropLast_concat] at this
  exact ⟨nodup, fun hn => (below hn).1, fun hn => (below hn).2, home⟩

namespace IsTree

/-- What a directory lists is in it. -/
theorem get?_of_mem_children (h : d.IsTree) (hm : (name, node) ∈ d.children loc) :
    d.get? (loc ++ [name]) = some node := by
  obtain ⟨⟨l, n⟩, he, hc⟩ := List.mem_filterMap.mp hm
  unfold childOf at hc
  split at hc
  · rename_i last hlast
    split at hc
    · rename_i hdrop
      cases hc
      have hl : loc ++ [name] = l := by
        rw [← hdrop]
        exact List.dropLast_append_getLast? name hlast
      rw [hl]
      unfold get?
      rw [if_neg (by rw [← hl]; simp)]
      exact lookup_of_mem h.nodup he
    · cases hc
  · cases hc

theorem dropLast (h : d.IsTree) (hd : d.get? loc = some .directory) : d.get? loc.dropLast = some .directory := by
  rcases List.eq_nil_or_concat loc with rfl | ⟨front, name, rfl⟩
  · exact hd
  · rw [List.concat_eq_append] at hd ⊢
    rw [List.dropLast_concat]
    exact h.parent hd

theorem start (h : d.IsTree) (path : String) : d.get? (d.start path) = some .directory := by
  unfold Disk.start
  split
  · exact get?_nil d
  · exact h.home

theorem put (h : d.IsTree) (hname : Path.IsProper name) (hparent : d.get? parent = some .directory)
    (hold : ∀ old, d.get? (parent ++ [name]) = some old → old.Remains node) :
    (d.put (parent ++ [name]) node).IsTree where
  nodup := by
    have : ((d.put (parent ++ [name]) node).entries).map Prod.fst = _ := map_fst_place d.entries
    rw [this]
    split
    · exact h.nodup
    · rename_i fresh
      refine List.nodup_append.mpr ⟨h.nodup, List.nodup_singleton _, fun a ha b hb e => fresh ?_⟩
      rw [← List.mem_singleton.mp hb, ← e]
      exact ha
  proper := by
    intro l n node' hn
    rw [get?_put (by simp)] at hn
    split at hn
    · rename_i e
      rw [(List.append_inj' e rfl).2 |> List.singleton_inj.mp]
      exact hname
    · exact h.proper hn
  parent := by
    intro l n node' hn
    refine (Keeps.put (by simp) hold).directory ?_
    rw [get?_put (by simp)] at hn
    split at hn
    · rename_i e
      rw [(List.append_inj' e rfl).1]
      exact hparent
    · exact h.parent hn
  home := (Keeps.put (by simp) hold).directory h.home

end IsTree

end Disk
end ServingLifecycle
