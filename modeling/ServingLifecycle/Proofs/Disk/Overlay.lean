import ServingLifecycle.Proofs.Disk.Agenda
/-!
# Overlays

What a disk holds once the content of one directory has been laid over another place: there the nodes of the directory,
on the way to it directories where nothing was, and everywhere else what was there. A disk on which part of that has
been done already, each file with whatever content, gives the same overlay.
-/
namespace ServingLifecycle

namespace Disk
open ServingLifecycle.Path

variable {d d' d₁ : Disk} {loc l root : Location} {names : List String} {node : Node} {source target : String}

/-- The same content, in whatever order it is listed. -/
structure Alike (d d' : Disk) : Prop where
  tree : d'.IsTree
  home : d'.home = d.home
  limits : d'.limits = d.limits
  get? : ∀ l, d'.get? l = d.get? l

theorem Alike.refl (h : d.IsTree) : d.Alike d :=
  ⟨h, rfl, rfl, fun _ => rfl⟩

theorem Alike.keeps (h : d.Alike d') : d.Keeps d' where
  home := h.home
  limits := h.limits
  remains there := ⟨_, (h.get? _).trans there, .refl _⟩

namespace Way

/-- The node of a source that belongs at a place, if there is one. -/
def laid (way : d.Way loc names) (root l : Location) : Option Node :=
  if way.goal <+: l then d.get? (root ++ l.drop way.goal.length) else none

/-- What is at a place once a source has been laid over the goal. -/
def overlay (way : d.Way loc names) (root l : Location) : Option Node :=
  (way.laid root l).or (way.made l)

theorem laid_append (way : d.Way loc names) (root : Location) (names' : List String) :
    way.laid root (way.goal ++ names') = d.get? (root ++ names') := by
  unfold laid
  rw [if_pos (List.prefix_append _ _), List.drop_left]

theorem laid_eq_some {way : d.Way loc names} (h : way.laid root l = some node) :
    ∃ names', l = way.goal ++ names' ∧ d.get? (root ++ names') = some node := by
  unfold laid at h
  split at h
  · rename_i hp
    obtain ⟨names', rfl⟩ := hp
    rw [List.drop_left] at h
    exact ⟨names', rfl, h⟩
  · cases h

/-- A disk on which part of a source has been laid over the goal. -/
structure Leftover (way : d.Way loc names) (root : Location) (d₁ : Disk) : Prop where
  tree : d₁.IsTree
  keeps : d.Keeps d₁
  between : ∀ l, d₁.get? l = d.get? l ∨ d₁.get? l = way.made l
    ∨ ∃ node now, way.laid root l = some node ∧ d₁.get? l = some now ∧ node.Remains now

end Way

/-- What it takes to lay the content of one directory over another place. -/
structure Overlayable (d : Disk) (source target : String) (root : Location) (way : d.Way loc names) : Prop where
  tree : d.IsTree
  /-- the way is the one to the target -/
  start : d.start target = loc
  moving : moves (named target) = names
  located : d.locate source = .ok root
  directory : d.get? root = some .directory
  /-- the source consists of directories and files -/
  plain : ∀ names link, d.get? (root ++ names) ≠ some (.link link)
  /-- neither of the two places lies inside the other -/
  apart : ¬root <+: way.goal ∧ ¬way.goal <+: root
  /-- nor is anything missing inside the source on the way to the target -/
  around : ∀ l, root <+: l → way.made l = d.get? l
  /-- nothing of the source meets something else than a directory or a file like itself -/
  agree : ∀ names node old, d.get? (root ++ names) = some node → way.made (way.goal ++ names) = some old →
    old.Remains node
  /-- names and paths are as short as the system wants them -/
  fits : ∀ names node, d.get? (root ++ names) = some node → (∀ name ∈ names, d.nameExceeds name = false)
    ∧ d.pathFault? (Path.below source names) = none
    ∧ (Path.below target names = "" ∨ d.pathFault? (Path.below target names) = none)
  /-- a target that ends in a dot is there already -/
  dot : (named target).getLast? = some "." → d.get? way.goal = some .directory

namespace Overlayable

variable {way : d.Way loc names}

/-- No part of the source is anywhere else than below the goal. -/
theorem laid_source (ready : d.Overlayable source target root way) (names : List String) :
    way.laid root (root ++ names) = none := by
  unfold Way.laid
  rw [if_neg]
  intro inside
  rcases List.prefix_or_prefix_of_prefix inside (List.prefix_append root names) with h | h
  · exact ready.apart.2 h
  · exact ready.apart.1 h

/-- Where the source has a directory nothing else is on the way. -/
theorem laid_of_mem_places (ready : d.Overlayable source target root way) (hl : l ∈ way.places)
    (h : way.laid root l = some node) : node = .directory := by
  obtain ⟨names, rfl, there⟩ := Way.laid_eq_some h
  exact (ready.agree names node .directory there (way.made_of_mem hl)).eq_directory

/-- Nothing changes in the source. -/
theorem source_same (ready : d.Overlayable source target root way) (left : way.Leftover root d₁) (names : List String) :
    d₁.get? (root ++ names) = d.get? (root ++ names) := by
  rcases left.between (root ++ names) with same | made | ⟨node, now, laid, -⟩
  · exact same
  · exact made.trans (ready.around _ (List.prefix_append _ _))
  · rw [ready.laid_source names] at laid
    cases laid

theorem places_same (ready : d.Overlayable source target root way) (left : way.Leftover root d₁) :
    ∀ l ∈ way.places, d₁.get? l = d.get? l ∨ d₁.get? l = some .directory := by
  intro l hl
  rcases left.between l with same | made | ⟨node, now, laid, here, remains⟩
  · exact Or.inl same
  · exact Or.inr (made.trans (way.made_of_mem hl))
  · obtain rfl := ready.laid_of_mem_places hl laid
    rw [here, remains.eq_directory]
    exact Or.inr rfl

/-- At every other place the disk is as it was, or a directory on the way has been made. -/
theorem grown (left : way.Leftover root d₁) (h : way.laid root l = none) :
    d₁.get? l = d.get? l ∨ d₁.get? l = way.made l := by
  rcases left.between l with same | made | ⟨node, now, laid, -⟩
  · exact Or.inl same
  · exact Or.inr made
  · rw [h] at laid
    cases laid

/-- What is left when a copy was interrupted can be laid over again. -/
theorem again (ready : d.Overlayable source target root way) (left : way.Leftover root d₁) :
    d₁.Overlayable source target root (way.carry left.keeps (ready.places_same left)) where
  tree := left.tree
  start := (left.keeps.start target).trans ready.start
  moving := ready.moving
  located := left.keeps.locate ready.located
  directory := left.keeps.directory ready.directory
  plain names link := by
    rw [ready.source_same left]
    exact ready.plain names link
  apart := ready.apart
  around l inside := by
    obtain ⟨names, rfl⟩ := inside
    rw [ready.source_same left, Way.made_carry (Or.inl (ready.source_same left names))]
    exact ready.around _ (List.prefix_append _ _)
  agree names node old there meets := by
    rw [ready.source_same left] at there
    rw [Way.goal_carry] at meets
    rcases left.between (way.goal ++ names) with same | made | ⟨node', now, laid, here, remains⟩
    · rw [Way.made_carry (Or.inl same)] at meets
      exact ready.agree names node old there meets
    · rw [Way.made_carry (Or.inr made)] at meets
      exact ready.agree names node old there meets
    · rw [way.laid_append, there] at laid
      cases laid
      have meets' := Way.made_of_some (way.carry left.keeps (ready.places_same left)) here
      rw [meets] at meets'
      cases meets'
      exact remains.symm
  fits names node there := by
    rw [ready.source_same left] at there
    obtain ⟨short, sourceText, targetText⟩ := ready.fits names node there
    rw [left.keeps.pathFault?, left.keeps.pathFault?]
    exact ⟨fun name hn => (left.keeps.nameExceeds name).trans (short name hn), sourceText, targetText⟩
  dot h := left.keeps.directory (ready.dot h)

theorem overlay_again (ready : d.Overlayable source target root way) (left : way.Leftover root d₁) (l : Location) :
    (way.carry left.keeps (ready.places_same left)).overlay root l = way.overlay root l := by
  have laid : (way.carry left.keeps (ready.places_same left)).laid root l = way.laid root l := by
    unfold Way.laid
    rw [ready.source_same left]
    rfl
  unfold Way.overlay
  rw [laid]
  cases h : way.laid root l with
  | some node => rfl
  | none => rw [Way.made_carry (grown left h)]

end Overlayable
end Disk
end ServingLifecycle
