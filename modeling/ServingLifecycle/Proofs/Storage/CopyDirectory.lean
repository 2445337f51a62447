import ServingLifecycle.Proofs.Disk.Laying
/-!
# Copying a directory of the local filesystem

The run of a copy that nothing hinders comes to its end with the content of the source laid over its target, and so
does the run after one that was stopped at any point.
-/
namespace ServingLifecycle

namespace TreeCopy
open ServingLifecycle.Path Disk

variable {d d₁ d₂ : Disk} {loc root : Location} {source target : String} {names : List String} {a : Agenda}
  {way : d.Way loc names}

/-! ### The whole run -/

namespace Laying

/-- However far the copy is, it has not failed, and it has not taken more steps than what it dealt with is good for. -/
theorem reached (ready : d.Overlayable source target root way) (n : Nat) : ∃ a d₁,
    after (TreeCopy.start source target) d n = (.ok (a.copy source target), d₁) ∧ Laying d root way a d₁
      ∧ ((a.copy source target).isDone = true
        ∨ n + a.opened.isSome.toNat + 1 ≤ 3 * a.past.length + a.pending.length) := by
  induction n with
  | zero => exact ⟨.start, d, rfl, .start ready, Or.inr (by simp [Agenda.start, Agenda.past])⟩
  | succ n ih =>
    obtain ⟨a, d₁, at', laying, count⟩ := ih
    cases going : (a.copy source target).isDone with
    | true => exact ⟨a, d₁, by rw [after_succ_ok at', step_of_isDone going], laying, Or.inl going⟩
    | false =>
      obtain ⟨a', d', s, next⟩ := laying.step ready going
      have cost := s.cost
      have count := count.resolve_left (by simp [going])
      exact ⟨a', d', by rw [after_succ_ok at', s.step_eq], next, Or.inr (by omega)⟩

/-- What has been dealt with and what is on the stack are different places of the source. -/
theorem length_le (laying : Laying d root way a d₁) : a.past.length + a.pending.length ≤ d.entries.length + 1 := by
  have nodup : (a.past ++ a.pending).Nodup :=
    laying.survey.fresh.nodup.sublist ((List.Sublist.refl _).append (List.sublist_append_left _ _))
  rw [← List.length_append]
  refine length_le_entries (q := root) nodup fun names' hn => ?_
  rcases List.mem_append.mp hn with hn | hn
  · exact (laying.done names' hn).1
  · rw [laying.survey.original.directories names' (List.mem_append_right _ hn)]
    nofun

/-- When nothing is left to do the disk is the overlay. -/
theorem overlay_of_isDone (laying : Laying d root way a d₁) (ready : d.Overlayable source target root way)
    (done : (a.copy source target).isDone = true) (l : Location) : d₁.get? l = way.overlay root l := by
  obtain ⟨hpending, hopened⟩ := Agenda.isDone_iff.mp done
  have ahead : a.ahead = [] := by simp [Agenda.ahead, hpending, hopened]
  have all {names' : List String} {node : Node} (there : d.get? (root ++ names') = some node) : names' ∈ a.past := by
    rcases laying.survey.covers names' node there with old | ⟨first, hfirst, -⟩
    · exact old
    · simp [ahead] at hfirst
  unfold Way.overlay
  cases h : way.laid root l with
  | some node =>
    obtain ⟨names', rfl, there⟩ := Way.laid_eq_some h
    rw [(laying.done names' (all there)).2, there]
    rfl
  | none =>
    have begun : a.past ≠ [] := List.ne_nil_of_mem (all (by rw [List.append_nil]; exact ready.directory))
    rw [laying.rest begun l h]
    rfl

end Laying

theorem copyTree_overlays (ready : d.Overlayable source target root way) :
    ∃ d', d.copyTree source target = (.ok (), d') ∧ ∀ l, d'.get? l = way.overlay root l := by
  obtain ⟨a, d', at', laying, count⟩ := Laying.reached ready (3 * (d.entries.length + 1))
  have done : (a.copy source target).isDone = true := by
    have bound := laying.length_le
    rcases count with done | count
    · exact done
    · -- so many steps are more than the places are good for
      omega
  have enough : 3 * (d.entries.length + 1) ≤ stepBound d := by
    unfold stepBound
    have two : 2 ≤ d.limits.path.getD 0 + 2 := Nat.le_add_left 2 _
    calc 3 * (d.entries.length + 1) ≤ 4 * (d.entries.length + 2) * 2 := by omega
      _ ≤ 4 * (d.entries.length + 2) * (d.limits.path.getD 0 + 2) := Nat.mul_le_mul_left _ two
  exact ⟨d', run_of_after at' done enough, laying.overlay_of_isDone ready done⟩

/-! ### Copies that were stopped -/

/-- The disk as a copy leaves it that is stopped before its next step or within it. -/
inductive Cut (c : TreeCopy) (d : Disk) : Disk → Prop
  | between : Cut c d d
  /-- of the directories on the way to the target the first ones are made -/
  | making {from' to' rest front} (next : c = ⟨(from', to') :: rest, none⟩) (some : front <+: moves (named to')) :
      Cut c d (makeAncestors (d.start to') front.reverse d).2
  /-- the file is there, with whatever has been written of it -/
  | writing {from' to' name node rest loc} (next : c.opened = some ⟨from', to', (name, node) :: rest⟩)
      (other : node ≠ .directory) (spot : d.writeTarget (child to' name) = .ok loc) (part : Bytes) :
      Cut c d (d.put loc (.file part))

/-- The disk as a copy from one path to another may leave it when it is stopped at any point. -/
def Interrupted (source target : String) (d d' : Disk) : Prop :=
  ∃ n c d₁, after (start source target) d n = (.ok c, d₁) ∧ Cut c d₁ d'

/-- A directory is half made: of the places on the way to it some may be directories now. -/
theorem Laying.leftover_of_making {taken copied pending : List (List String)} {names' front : List String}
    (ready : d.Overlayable source target root way)
    (laying : Laying d root way ⟨taken, copied, names' :: pending, none⟩ d₁)
    (some : front <+: moves (named (below target names'))) :
    way.Leftover root (makeAncestors (d₁.start (below target names')) front.reverse d₁).2 := by
  have moving : ∀ name ∈ moves (named (below target names')), IsName name ∧ name ≠ "." := fun name hn =>
    ⟨isName_of_mem_moves_named hn, (of_mem_moves hn).2⟩
  rcases List.eq_nil_or_concat names' with rfl | ⟨parent, name, e⟩
  · obtain ⟨-, rfl⟩ := laying.first
    have hstart := ready.tree.start target
    rw [ready.start] at hstart
    have onWay : moves (named (below target [])) = names := ready.moving
    rw [onWay] at some moving
    obtain ⟨d', made, tree, keeps, only⟩ := way.makeAncestors_front ready.tree hstart moving some
    have start : d₁.start (below target []) = loc := ready.start
    rw [start, made]
    exact ⟨tree, keeps, fun l => (only l).imp_right Or.inl⟩
  · rw [List.concat_eq_append] at e
    subst e
    obtain ⟨-, inSource, proper, short, there, spot⟩ := laying.due ready
    obtain ⟨tree, keeps, -⟩ := laying.left
    rw [below_append] at some moving ⊢
    obtain ⟨way', into⟩ := tree.exists_way_child there proper short spot
    obtain ⟨d', made, tree', keeps', only⟩ := way'.makeAncestors_front tree (tree.start _) moving some
    rw [made]
    exact (Laying.lays_directory inSource tree' keeps' fun l => into l ▸ only l).leftover laying.left

/-- A file is half written. -/
theorem Laying.leftover_of_writing {taken copied pending : List (List String)} {names' : List String} {name : String}
    {node : Node} {rest : List (String × Node)} {spot : Location} (ready : d.Overlayable source target root way)
    (laying : Laying d root way ⟨taken, copied, pending, some (names', (name, node) :: rest)⟩ d₁)
    (other : node ≠ .directory) (target' : d₁.writeTarget (child (below target names') name) = .ok spot)
    (part : Bytes) : way.Leftover root (d₁.put spot (.file part)) := by
  obtain ⟨-, proper, hdir, ⟨content, rfl⟩, old, written⟩ := laying.written ready other
  have inSource := laying.survey.found _ _ rfl (name, .file content) List.mem_cons_self
  rw [below_append, target'] at written
  cases written
  obtain ⟨tree, keeps, between⟩ := laying.left
  have remains : ∀ node, d₁.get? (way.goal ++ names' ++ [name]) = some node → node.Remains (.file part) := by
    intro node hnode
    obtain ⟨content', rfl⟩ := old node hnode
    exact Node.remains_file content' part
  refine ⟨tree.put proper hdir remains, keeps.trans (Keeps.put (by simp) remains), fun l => ?_⟩
  rw [get?_put (by simp)]
  split
  · rename_i e
    refine Or.inr (Or.inr ⟨.file content, .file part, ?_, rfl, Node.remains_file content part⟩)
    rw [e, List.append_assoc, way.laid_append, inSource]
  · exact between l

theorem Laying.leftover_of_cut (ready : d.Overlayable source target root way) (laying : Laying d root way a d₁)
    (cut : Cut (a.copy source target) d₁ d₂) : way.Leftover root d₂ := by
  obtain ⟨taken, copied, pending, opened⟩ := a
  cases cut with
  | between => exact laying.left
  | making next some =>
    rcases pending with _ | ⟨names', pending⟩ <;> rcases opened with _ | dir <;> cases next
    exact laying.leftover_of_making ready some
  | writing next other spot part =>
    rcases opened with _ | ⟨names', entries⟩ <;> cases next
    exact laying.leftover_of_writing ready other spot part

theorem leftover_of_interrupted (ready : d.Overlayable source target root way)
    (interrupted : Interrupted source target d d₂) : way.Leftover root d₂ := by
  obtain ⟨n, c, d₁, at', cut⟩ := interrupted
  obtain ⟨a, d₁', at'', laying, -⟩ := Laying.reached ready n
  rw [at'] at at''
  cases at''
  exact laying.leftover_of_cut ready cut

end TreeCopy

/-! ### A disk to copy on -/

/-- A disk with a directory to be copied and one that has some of its entries and another. -/
def Disk.depot : Disk where
  entries := [(["src"], .directory), (["src", "sub"], .directory), (["src", "sub", "f"], .file [1]),
    (["dst"], .directory), (["dst", "sub"], .directory), (["dst", "sub", "f"], .file [2]), (["dst", "own"], .file [3])]
  home := []
  limits := ⟨some 255, some 4096⟩

namespace LocalFilesystem
open Disk

theorem isTree_depot : depot.IsTree :=
  isTree_of_entries (by decide) (by decide) rfl

/-- The way to the target, which is there. -/
def toTarget : depot.Way [] ["dst"] where
  front := []
  back := ["dst"]
  base := []
  parts := rfl
  reached := reaches_nil
  short := by decide
  clear passed hp := by
    rcases List.prefix_concat_iff.mp (show passed <+: [] ++ ["dst"] from hp) with rfl | hp
    · exact Or.inr rfl
    · rw [List.prefix_nil.mp hp]
      exact Or.inr rfl

theorem source_depot {names : List String} {node : Node} (there : depot.get? (["src"] ++ names) = some node) :
    (names, node) ∈ [([], .directory), (["sub"], .directory), (["sub", "f"], Node.file [1])] := by
  unfold get? at there
  rw [if_neg (by simp)] at there
  obtain ⟨before, after, e, -⟩ := List.lookup_eq_some_iff.mp there
  have mem : (["src"] ++ names, node) ∈ depot.entries := by simp [e]
  simpa [depot] using mem

theorem overlayable_depot : depot.Overlayable "src" "dst" ["src"] toTarget where
  tree := isTree_depot
  start := rfl
  moving := by decide
  located := rfl
  directory := rfl
  plain names link there := by simpa using source_depot there
  apart := by decide
  around l inside := by
    obtain ⟨names, rfl⟩ := inside
    refine toTarget.made_of_notMem fun on => ?_
    simp [Way.places, toTarget, along] at on
  agree names node old there meets := by
    have mem := source_depot there
    simp only [List.mem_cons, Prod.mk.injEq, List.not_mem_nil, or_false] at mem
    rcases mem with ⟨rfl, rfl⟩ | ⟨rfl, rfl⟩ | ⟨rfl, rfl⟩
    · cases meets; exact .refl _
    · cases meets; exact .refl _
    · cases meets; exact Node.remains_file _ _
  fits names node there := by
    have mem := source_depot there
    simp only [List.mem_cons, Prod.mk.injEq, List.not_mem_nil, or_false] at mem
    rcases mem with ⟨rfl, rfl⟩ | ⟨rfl, rfl⟩ | ⟨rfl, rfl⟩ <;> decide
  dot := by decide

variable {d d₁ : Disk} {loc root : Location} {names : List String} {way : d.Way loc names}

/-- Copying lays the source over the target, whatever the order in which the directories list their entries, and also
where the same copy has been stopped at any point before. -/
theorem copyDirectory_overlays (source target : String) (ready : d.Overlayable (path source) (path target) root way)
    (alike : d.Alike d₁) :
    (∃ d', copyDirectory source target d₁ = (.ok (), d') ∧ ∀ l, d'.get? l = way.overlay root l)
      ∧ ∀ d₂, TreeCopy.Interrupted (path source) (path target) d₁ d₂ →
          ∃ d', copyDirectory source target d₂ = (.ok (), d') ∧ ∀ l, d'.get? l = way.overlay root l := by
  have left : way.Leftover root d₁ := ⟨alike.tree, alike.keeps, fun l => Or.inl (alike.get? l)⟩
  have again := ready.again left
  refine ⟨?_, fun d₂ interrupted => ?_⟩
  · obtain ⟨d', copied, overlay⟩ := TreeCopy.copyTree_overlays again
    exact ⟨d', copied, fun l => (overlay l).trans (ready.overlay_again left l)⟩
  · have left' := TreeCopy.leftover_of_interrupted again interrupted
    obtain ⟨d', copied, overlay⟩ := TreeCopy.copyTree_overlays (again.again left')
    exact ⟨d', copied, fun l => ((overlay l).trans (again.overlay_again left' l)).trans (ready.overlay_again left l)⟩

/-- Copied over a directory, one takes the place of the files that it has itself; the others stay. The same comes of it
after a copy that was stopped. -/
theorem copyDirectory_overlays_depot : (∃ d', copyDirectory "src" "dst" depot = (.ok (), d')
      ∧ d'.get? ["dst", "sub", "f"] = some (.file [1]) ∧ d'.get? ["dst", "own"] = some (.file [3]))
    ∧ ∀ d₂, TreeCopy.Interrupted "src" "dst" depot d₂ → ∃ d', copyDirectory "src" "dst" d₂ = (.ok (), d')
      ∧ d'.get? ["dst", "sub", "f"] = some (.file [1]) ∧ d'.get? ["dst", "own"] = some (.file [3]) := by
  obtain ⟨⟨d', copied, overlay⟩, again⟩ := copyDirectory_overlays "src" "dst" overlayable_depot (.refl isTree_depot)
  refine ⟨⟨d', copied, overlay _, overlay _⟩, fun d₂ interrupted => ?_⟩
  obtain ⟨d'', copied', overlay'⟩ := again d₂ interrupted
  exact ⟨d'', copied', overlay' _, overlay' _⟩

/-- A target is made if it is missing, but not when a dot is written behind it. -/
theorem copyDirectory_misses_dot : (copyDirectory "src" "new" depot).1 = .ok ()
    ∧ copyDirectory "src" "new/." depot = (.error (.notFound "new/."), depot) :=
  ⟨rfl, rfl⟩

end LocalFilesystem
end ServingLifecycle
