import Mathlib.Data.List.Perm.Subperm
import ServingLifecycle.Proofs.Disk.Copying
import ServingLifecycle.Proofs.Disk.Way
/-!
# The agenda of a copy

A copy told by names alone: what it has dealt with and what it still has to deal with, as the names that lead there
from its source and, the same ones, from its target. None of what is still to come lies above or below another such
place or above one that has been dealt with, so nothing is ever dealt with twice, and the number of steps is
bounded by the number of the places.
-/
namespace ServingLifecycle

namespace Disk

variable {d : Disk} {loc q : Location} {name path : String} {node : Node} {entries : List (String × Node)}
  {names : List String}

theorem mem_entries_of_get? (h : d.get? loc = some node) (hne : loc ≠ []) : (loc, node) ∈ d.entries := by
  unfold get? at h
  rw [if_neg hne] at h
  obtain ⟨before, after, e, -⟩ := List.lookup_eq_some_iff.mp h
  simp [e]

theorem IsTree.mem_children_iff (h : d.IsTree) :
    (name, node) ∈ d.children loc ↔ d.get? (loc ++ [name]) = some node := by
  refine ⟨h.get?_of_mem_children, fun there => ?_⟩
  refine List.mem_filterMap.mpr ⟨(loc ++ [name], node), mem_entries_of_get? there (by simp), ?_⟩
  simp [childOf]

/-- No two entries of a directory have one name. -/
theorem IsTree.children_nodup (h : d.IsTree) (loc : Location) : ((d.children loc).map Prod.fst).Nodup := by
  have entry {e : Location × Node} {child : String × Node} (hc : childOf loc e = some child) :
      e.1 = loc ++ [child.1] := by
    unfold childOf at hc
    split at hc
    · rename_i last hlast
      split at hc
      · rename_i hdrop
        cases hc
        rw [← hdrop]
        exact (List.dropLast_append_getLast? last hlast).symm
      · cases hc
    · cases hc
  refine List.pairwise_map.mpr (List.pairwise_filterMap.mpr ?_)
  refine (List.pairwise_map.mp h.nodup).imp fun {e e'} hne child hc child' hc' same => hne ?_
  rw [entry hc, entry hc', same]

theorem list_eq_ok (listed : d.list path = .ok entries) :
    ∃ q, d.locate path = .ok q ∧ d.get? q = some .directory ∧ entries = d.children q := by
  unfold list at listed
  split at listed
  · cases listed
  · rename_i q hlocate
    split at listed
    · rename_i hdir
      cases listed
      exact ⟨q, hlocate, hdir, rfl⟩
    · cases listed

/-- What is listed of a directory below a base that was reached is what is in it. -/
theorem IsTree.entries_of_list_below {source : String} (h : d.IsTree)
    (there : d.Reaches (d.start source) (Path.named source) q) (hdir : d.get? (q ++ names) = some .directory)
    (listed : d.list (Path.below source names) = .ok entries) : entries = d.children (q ++ names) := by
  obtain ⟨q', hlocate, hdir', rfl⟩ := list_eq_ok listed
  have proper := h.proper_of_append hdir
  have isName : ∀ name ∈ names, Path.IsName name := fun name hn => (proper name hn).toIsName
  have whole := h.reaches_of_leadsTo (locate_eq_ok_iff.mp hlocate).2 hdir'
  rw [Path.named_below source isName, start_congr (Path.isAbsolute_below source isName)] at whole
  rcases h.reaches_down (h.start source) there proper hdir with down | ⟨-, lost⟩
  · rw [whole.unique down]
  · exact absurd ⟨q', whole⟩ lost

/-- There are no more places than entries, the root apart. -/
theorem length_le_entries {places : List (List String)} (nodup : places.Nodup)
    (there : ∀ names ∈ places, d.get? (q ++ names) ≠ none) : places.length ≤ d.entries.length + 1 := by
  have distinct : (places.map (q ++ ·)).Nodup := nodup.map (List.append_right_injective q)
  have among : places.map (q ++ ·) ⊆ [] :: d.entries.map Prod.fst := by
    intro l hl
    obtain ⟨names, hn, rfl⟩ := List.mem_map.mp hl
    obtain ⟨node, hnode⟩ := Option.ne_none_iff_exists'.mp (there names hn)
    by_cases e : q ++ names = []
    · rw [e]
      exact List.mem_cons_self
    · exact List.mem_cons_of_mem _ (List.mem_map_of_mem (mem_entries_of_get? hnode e))
  simpa using (List.subperm_of_subset distinct among).length_le

end Disk

namespace TreeCopy
open ServingLifecycle.Path

/-! ### Steps without a bound -/

/-- The copy and the disk after so many steps. A copy that has failed takes no further ones. -/
def after (c : TreeCopy) (d : Disk) : Nat → Except StorageError TreeCopy × Disk
  | 0 => (.ok c, d)
  | n + 1 =>
    match after c d n with
    | (.ok c, d) => c.step d
    | failed => failed

/-- The directory that the next step takes from the stack. -/
def next? (c : TreeCopy) : Option String :=
  match c.opened, c.pending with
  | none, (source, _) :: _ => some source
  | _, _ => none

/-- The directories taken from the stack in so many steps. -/
def taken (c : TreeCopy) (d : Disk) : Nat → List String
  | 0 => []
  | n + 1 => taken c d n ++ ((after c d n).1.toOption.bind next?).toList

variable {c c' : TreeCopy} {d d' : Disk} {n steps : Nat} {error : StorageError} {source target : String}

theorem after_succ_ok (at' : after c d n = (.ok c', d')) : after c d (n + 1) = c'.step d' := by
  rw [after, at']

theorem after_succ_error (at' : after c d n = (.error error, d')) : after c d (n + 1) = (.error error, d') := by
  rw [after, at']

theorem step_of_isDone (h : c.isDone = true) : c.step d = (.ok c, d) := by
  obtain ⟨_ | _, _ | _⟩ := c
  · rfl
  all_goals cases h

theorem after_of_isDone (h : c.isDone = true) (d : Disk) (n : Nat) : after c d n = (.ok c, d) := by
  induction n with
  | zero => rfl
  | succ n ih => rw [after_succ_ok ih, step_of_isDone h]

/-- The first step and then the others. -/
theorem after_succ (c : TreeCopy) (d : Disk) (n : Nat) : after c d (n + 1) =
    match c.step d with
    | (.ok c, d) => after c d n
    | failed => failed := by
  induction n with
  | zero =>
    change c.step d = _
    generalize c.step d = result
    obtain ⟨_ | _, _⟩ := result <;> rfl
  | succ n ih =>
    rw [after, ih]
    generalize c.step d = result
    obtain ⟨_ | _, _⟩ := result <;> rfl

/-- A run that is allowed enough steps ends where the copy is done. -/
theorem run_of_after (at' : after c d n = (.ok c', d')) (done : c'.isDone = true) (enough : n ≤ steps) :
    run steps c d = (.ok (), d') := by
  induction steps generalizing c d n with
  | zero =>
    obtain rfl := Nat.le_zero.mp enough
    cases at'
    rw [run, if_pos done]
  | succ steps ih =>
    rw [run]
    split
    · rename_i ended
      rw [after_of_isDone ended] at at'
      cases at'
      rfl
    · rename_i going
      cases n with
      | zero =>
        cases at'
        exact absurd done going
      | succ n =>
        rw [after_succ] at at'
        generalize c.step d = result at at' ⊢
        obtain ⟨_ | c₁, d₁⟩ := result
        · cases at'
        · exact ih at' (Nat.le_of_succ_le_succ enough)

theorem after_fills (h : d.IsTree) (source target : String) (n : Nat) :
    Fills source target d (after (start source target) d n).2
      ∧ ∀ c, (after (start source target) d n).1 = .ok c → c.Within source target := by
  induction n with
  | zero =>
    refine ⟨.refl h, ?_⟩
    rintro _ ⟨⟩
    exact within_start
  | succ n ih =>
    obtain ⟨fills, within⟩ := ih
    rw [after]
    generalize after (start source target) d n = result at fills within ⊢
    obtain ⟨error | c, d'⟩ := result
    · exact ⟨fills, nofun⟩
    · obtain ⟨fills', within'⟩ := step_fills fills.tree (within c rfl)
      exact ⟨fills.trans fills', within'⟩

/-! ### Agendas -/

/-- A copy told by names. -/
structure Agenda where
  /-- the directories taken from the stack -/
  taken : List (List String)
  /-- what has been copied as a file -/
  copied : List (List String)
  /-- the directories on the stack, next first -/
  pending : List (List String)
  /-- the directory that was taken last, with those of its entries that are still to be dealt with -/
  opened : Option (List String × List (String × Node))

namespace Agenda

def start : Agenda :=
  ⟨[], [], [[]], none⟩

/-- The copy from one path to another that has this agenda. -/
def copy (source target : String) (a : Agenda) : TreeCopy where
  pending := a.pending.map fun names => (below source names, below target names)
  opened := a.opened.map fun dir => ⟨below source dir.1, below target dir.1, dir.2⟩

/-- What has been dealt with. -/
def past (a : Agenda) : List (List String) :=
  a.taken ++ a.copied

/-- What is still to be dealt with, except for what will be found below. -/
def ahead (a : Agenda) : List (List String) :=
  a.pending ++ a.opened.elim [] fun dir => dir.2.map fun entry => dir.1 ++ [entry.1]

/-- What one step of a copy does. -/
inductive Step (source target : String) : Agenda → Disk → Agenda → Disk → Prop
  | take {taken copied names pending d d' entries} (made : d.makeDirectories (below target names) = (.ok (), d'))
      (listed : d'.list (below source names) = .ok entries) :
      Step source target ⟨taken, copied, names :: pending, none⟩ d
        ⟨taken ++ [names], copied, pending, some (names, entries)⟩ d'
  | push {taken copied pending names name rest d} :
      Step source target ⟨taken, copied, pending, some (names, (name, .directory) :: rest)⟩ d
        ⟨taken, copied, (names ++ [name]) :: pending, some (names, rest)⟩ d
  | file {taken copied pending names name node rest d d'} (other : node ≠ .directory)
      (done : d.copyFile (below source (names ++ [name])) (below target (names ++ [name])) = .ok d') :
      Step source target ⟨taken, copied, pending, some (names, (name, node) :: rest)⟩ d
        ⟨taken, copied ++ [names ++ [name]], pending, some (names, rest)⟩ d'
  | close {taken copied pending names d} :
      Step source target ⟨taken, copied, pending, some (names, [])⟩ d ⟨taken, copied, pending, none⟩ d

variable {a a' : Agenda}

theorem isDone_iff : (a.copy source target).isDone = true ↔ a.pending = [] ∧ a.opened = none := by
  simp [isDone, copy]

theorem Step.step_eq (s : Step source target a d a' d') :
    (a.copy source target).step d = (.ok (a'.copy source target), d') := by
  cases s with
  | take made listed => simp [step, copy, openNext, made, listed]
  | push => simp [step, copy, copyEntry, below_append]
  | file other done =>
    rw [below_append, below_append] at done
    simp [step, copy, copyEntry, other, done]
  | close => simp [step, copy]

/-- A step that succeeds goes from one agenda to another. -/
theorem step_cases (going : (a.copy source target).isDone = false)
    (stepped : (a.copy source target).step d = (.ok c', d')) :
    ∃ a', c' = a'.copy source target ∧ Step source target a d a' d' := by
  obtain ⟨taken, copied, pending, opened⟩ := a
  cases opened with
  | none =>
    cases pending with
    | nil => cases going
    | cons names pending =>
      simp only [step, copy, Option.map_none, List.map_cons, openNext] at stepped
      split at stepped
      · cases stepped
      · rename_i made
        split at stepped
        · cases stepped
        · rename_i listed
          cases stepped
          exact ⟨_, rfl, .take made listed⟩
  | some dir =>
    obtain ⟨names, _ | ⟨⟨name, node⟩, rest⟩⟩ := dir
    · cases stepped
      exact ⟨_, rfl, .close⟩
    · simp only [step, copy, Option.map_some, copyEntry, ← below_append] at stepped
      split at stepped
      · rename_i isDir
        subst isDir
        cases stepped
        exact ⟨_, rfl, .push⟩
      · rename_i other
        split at stepped
        · cases stepped
        · rename_i done
          cases stepped
          exact ⟨_, rfl, .file other done⟩

/-! ### Nothing twice -/

/-- Neither leads on to the other. -/
def Apart (names names' : List String) : Prop :=
  ¬names <+: names' ∧ ¬names' <+: names

/-- What is ahead is apart from each other and does not lead on to anything that has been dealt with. -/
structure Fresh (past ahead : List (List String)) : Prop where
  apart : ahead.Pairwise Apart
  new : ∀ names ∈ ahead, ∀ names' ∈ past, ¬names <+: names'
  once : past.Nodup

variable {names names' found : List String} {name : String} {past past' ahead ahead' : List (List String)}
  {d₁ : Disk} {root : Location}

theorem Apart.symm (h : Apart names names') : Apart names' names :=
  ⟨h.2, h.1⟩

theorem Apart.child (h : Apart names names') (name : String) : Apart (names ++ [name]) names' := by
  refine ⟨fun p => h.1 ((List.prefix_append _ _).trans p), fun p => ?_⟩
  rcases List.prefix_concat_iff.mp p with rfl | p
  · exact h.1 (List.prefix_append _ _)
  · exact h.2 p

theorem apart_of_ne {name' : String} (h : name ≠ name') : Apart (names ++ [name]) (names ++ [name']) := by
  have same {x y : String} (p : names ++ [x] <+: names ++ [y]) : x = y := by
    rw [List.prefix_append_right_inj] at p
    simpa using p
  exact ⟨fun p => h (same p), fun p => h (same p).symm⟩

namespace Fresh

theorem start : Fresh start.past start.ahead :=
  ⟨List.pairwise_singleton _ _, fun _ _ _ none => absurd none List.not_mem_nil, List.nodup_nil⟩

theorem perm (fresh : Fresh past ahead) (hp : past.Perm past') (ha : ahead.Perm ahead') : Fresh past' ahead' where
  apart := (ha.pairwise_iff Apart.symm).mp fresh.apart
  new names hn names' hn' := fresh.new names (ha.mem_iff.mpr hn) names' (hp.mem_iff.mpr hn')
  once := hp.nodup_iff.mp fresh.once

/-- What is dealt with is new, and so is what is found below it. -/
theorem deal (fresh : Fresh past (names :: ahead)) (nodup : found.Nodup) :
    Fresh (names :: past) (found.map (names ++ [·]) ++ ahead) where
  apart := by
    obtain ⟨apart, rest⟩ := List.pairwise_cons.mp fresh.apart
    refine List.pairwise_append.mpr ⟨List.pairwise_map.mpr (nodup.imp apart_of_ne), rest, fun below hb other ho => ?_⟩
    obtain ⟨name, -, rfl⟩ := List.mem_map.mp hb
    exact (apart other ho).child name
  new := by
    obtain ⟨apart, -⟩ := List.pairwise_cons.mp fresh.apart
    intro later hlater
    rcases List.mem_append.mp hlater with below | other
    · obtain ⟨name, -, rfl⟩ := List.mem_map.mp below
      refine List.forall_mem_cons.mpr ⟨fun p => absurd p.length_le (by simp), fun old ho p => ?_⟩
      exact fresh.new names List.mem_cons_self old ho ((List.prefix_append _ _).trans p)
    · exact List.forall_mem_cons.mpr ⟨(apart later other).2, fresh.new later (List.mem_cons_of_mem _ other)⟩
  once := List.nodup_cons.mpr
    ⟨fun old => fresh.new names List.mem_cons_self names old (List.prefix_refl _), fresh.once⟩

/-- What has been dealt with and what is ahead are places that differ. -/
theorem nodup (fresh : Fresh past ahead) : (past ++ ahead).Nodup := by
  have distinct : ahead.Nodup := by
    refine fresh.apart.imp ?_
    rintro names _ apart rfl
    exact apart.1 (List.prefix_refl names)
  refine List.nodup_append.mpr ⟨fresh.once, distinct, ?_⟩
  rintro old ho names hn rfl
  exact fresh.new old hn old ho (List.prefix_refl _)

end Fresh

/-- A step leaves what has been dealt with and what is ahead as they are, or it deals with something that was ahead.
Of a directory it finds the entries, and below anything else there is nothing to find. -/
theorem Step.shift (s : Step source target a d a' d') : a.past.Perm a'.past ∧ a.ahead.Perm a'.ahead
    ∨ ∃ names found rest, a.ahead.Perm (names :: rest) ∧ (names :: a.past).Perm a'.past
      ∧ (found.map (names ++ [·]) ++ rest).Perm a'.ahead
      ∧ ((∃ entries, names ∈ a.pending ∧ names ∈ a'.taken ∧ d'.list (below source names) = .ok entries
          ∧ found = entries.map Prod.fst)
        ∨ found = [] ∧ ∃ dir name node others, a.opened = some (dir, (name, node) :: others) ∧ node ≠ .directory
          ∧ names = dir ++ [name]) := by
  cases s with
  | @take taken copied names pending _ _ entries made listed =>
    refine Or.inr ⟨names, entries.map Prod.fst, pending, ?_, ?_, ?_, Or.inl ⟨entries, ?_, ?_, listed, rfl⟩⟩
    · simp [ahead]
    · simp only [past, List.append_assoc, List.singleton_append]
      exact List.perm_middle.symm
    · simp only [ahead, Option.elim_some, List.map_map]
      exact List.perm_append_comm
    · exact List.mem_cons_self
    · exact List.mem_concat_self
  | push =>
    refine Or.inl ⟨.refl _, ?_⟩
    simp only [ahead, Option.elim_some, List.map_cons, List.cons_append]
    exact List.perm_middle
  | @file taken copied pending names name node rest _ _ other done =>
    refine Or.inr ⟨names ++ [name], [], pending ++ rest.map fun entry => names ++ [entry.1], ?_, ?_, .refl _,
      Or.inr ⟨rfl, names, name, node, rest, rfl, other, rfl⟩⟩
    · simp only [ahead, Option.elim_some, List.map_cons]
      exact List.perm_middle
    · simp only [past, ← List.append_assoc]
      exact (List.perm_append_singleton _ _).symm
  | close => exact Or.inl ⟨.refl _, by simp [ahead]⟩

theorem Step.taken_subset (s : Step source target a d a' d') : a.taken ⊆ a'.taken := by
  cases s <;> simp

theorem Step.fresh (s : Step source target a d a' d') (tree : d'.IsTree) (fresh : Fresh a.past a.ahead) :
    Fresh a'.past a'.ahead := by
  rcases s.shift with ⟨hp, ha⟩ | ⟨names, found, rest, before, hp, ha, what⟩
  · exact fresh.perm hp ha
  · have nodup : found.Nodup := by
      rcases what with ⟨entries, -, -, listed, rfl⟩ | ⟨rfl, -⟩
      · obtain ⟨q, -, -, rfl⟩ := Disk.list_eq_ok listed
        exact tree.children_nodup q
      · exact List.nodup_nil
    exact ((fresh.perm (.refl _) before).deal nodup).perm hp ha

/-! ### Where the directories come from -/

/-- The directories on an agenda were in the source when the copy began. -/
structure Original (d : Disk) (root : Location) (a : Agenda) : Prop where
  directories : ∀ names ∈ a.taken ++ a.pending, d.get? (root ++ names) = some .directory
  found : ∀ names entries, a.opened = some (names, entries) →
    ∀ entry ∈ entries, entry.2 = .directory → d.get? (root ++ (names ++ [entry.1])) = some .directory

theorem Original.start (h : d.get? root = some .directory) : start.Original d root :=
  ⟨by simpa [Agenda.start] using h, nofun⟩

theorem Original.step (h : a.Original d root) (s : Step source target a d₁ a' d') (tree : d'.IsTree)
    (keeps : d.Keeps d') (there : d.Reaches (d.start source) (named source) root)
    (kept : ∀ loc, root <+: loc → d'.get? loc = some .directory → d.get? loc = some .directory) :
    a'.Original d root := by
  cases s with
  | @take taken copied names pending _ _ entries made listed =>
    have hdir : d.get? (root ++ names) = some .directory := h.directories names (by simp)
    refine ⟨fun other ho => h.directories other (by simp at ho ⊢; tauto), ?_⟩
    rintro _ _ ⟨⟩ ⟨name, node⟩ he rfl
    have there' := keeps.reaches there
    rw [← keeps.start] at there'
    rw [tree.entries_of_list_below there' (keeps.directory hdir) listed, tree.mem_children_iff, List.append_assoc] at he
    exact kept _ (List.prefix_append _ _) he
  | @push taken copied pending names name rest =>
    have hname : d.get? (root ++ (names ++ [name])) = some .directory := h.found _ _ rfl _ List.mem_cons_self rfl
    refine ⟨fun other ho => ?_, ?_⟩
    · simp only [List.mem_append, List.mem_cons] at ho
      rcases ho with ho | rfl | ho
      · exact h.directories other (by simp [ho])
      · exact hname
      · exact h.directories other (by simp [ho])
    · rintro _ _ ⟨⟩ entry he
      exact h.found _ _ rfl entry (List.mem_cons_of_mem _ he)
  | file other done =>
    refine ⟨h.directories, ?_⟩
    rintro _ _ ⟨⟩ entry he
    exact h.found _ _ rfl entry (List.mem_cons_of_mem _ he)
  | close => exact ⟨h.directories, nofun⟩

/-- What a step costs is paid by what it deals with: a place dealt with is good for three steps, one on the stack for
one less than when it is not there, and a directory that is open has still to be closed. -/
theorem Step.cost (s : Step source target a d a' d') :
    a'.opened.isSome.toNat + 3 * a.past.length + a.pending.length + 1
      ≤ a.opened.isSome.toNat + 3 * a'.past.length + a'.pending.length := by
  cases s
  all_goals simp only [past, List.length_append, List.length_cons, List.length_nil, Option.isSome_some,
    Option.isSome_none, Bool.toNat_true, Bool.toNat_false]
  all_goals omega

end Agenda
end TreeCopy
end ServingLifecycle
