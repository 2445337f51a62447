import ServingLifecycle.Proofs.Disk.Overlay
/-!
# Laying a directory over another place

The run of a copy that nothing hinders. Every step succeeds, deals with what it should and changes no other place, and
once nothing is left to do the disk is the overlay.
-/
namespace ServingLifecycle

namespace Disk
open ServingLifecycle.Path

variable {d d₁ : Disk} {loc q root : Location} {source target : String} {names front : List String} {node : Node}

/-! ### Paths into the two directories -/

namespace Overlayable

variable {way : d.Way loc names} {names' : List String}

theorem proper (ready : d.Overlayable source target root way) (there : d.get? (root ++ names') = some node) :
    ∀ name ∈ names', Path.IsProper name :=
  ready.tree.proper_of_append there

theorem isName (ready : d.Overlayable source target root way) (there : d.get? (root ++ names') = some node) :
    ∀ name ∈ names', Path.IsName name := fun name hn =>
  (ready.proper there name hn).toIsName

/-- From where the source or the goal was reached the directories of the source are reached, or those like them. -/
theorem reaches_below (ready : d.Overlayable source target root way) (h : d₁.IsTree) (keeps : d.Keeps d₁)
    {start : Location} (hstart : d₁.get? start = some .directory) (there : d₁.Reaches start front q)
    (inSource : d.get? (root ++ names') = some node) (hdir : d₁.get? (q ++ names') = some .directory) :
    d₁.Reaches start (front ++ names') (q ++ names') := by
  rcases h.reaches_down hstart there (ready.proper inSource) hdir with down | ⟨⟨name, hn, long⟩, -⟩
  · exact down
  · rw [keeps.nameExceeds, (ready.fits names' node inSource).1 name hn] at long
    cases long

theorem reached (ready : d.Overlayable source target root way) : d.Reaches (d.start source) (named source) root :=
  ready.tree.reaches_of_leadsTo (locate_eq_ok_iff.mp ready.located).2 ready.directory

theorem reaches_source (ready : d.Overlayable source target root way)
    (there : d.get? (root ++ names') = some .directory) :
    d.Reaches (d.start source) (named source ++ names') (root ++ names') :=
  ready.reaches_below ready.tree (.refl d) (ready.tree.start source) ready.reached there there

/-- The path of a node of the source leads there. -/
theorem locate_below (ready : d.Overlayable source target root way) (there : d.get? (root ++ names') = some node) :
    d.locate (Path.below source names') = .ok (root ++ names') := by
  rcases List.eq_nil_or_concat names' with rfl | ⟨parent, name, e⟩
  · rw [List.append_nil]
    exact ready.located
  · rw [List.concat_eq_append] at e
    subst e
    obtain ⟨short, text, -⟩ := ready.fits _ node there
    have isName := ready.isName there
    rw [← List.append_assoc] at there
    refine locate_eq_ok_iff.mpr ⟨text, ?_⟩
    unfold LeadsTo walked
    rw [names_below source (by simp) isName, start_congr (isAbsolute_below source isName), ← List.append_assoc,
      ← List.append_assoc]
    refine ready.tree.follow_entry (ready.tree.start source) (ready.reaches_source (ready.tree.parent there))
      (ready.tree.proper there) (short name (by simp)) there fun link e => ?_
    subst e
    rw [List.append_assoc] at there
    exact ready.plain _ link there

/-- A directory of the source lists its entries. -/
theorem list_below (ready : d.Overlayable source target root way) (keeps : d.Keeps d₁)
    (there : d.get? (root ++ names') = some .directory) :
    d₁.list (Path.below source names') = .ok (d₁.children (root ++ names')) := by
  unfold Disk.list
  rw [keeps.locate (ready.locate_below there)]
  dsimp only
  rw [if_pos (keeps.directory there)]

/-- A directory like one of the source is reached by the path below the target. -/
theorem reaches_target (ready : d.Overlayable source target root way) (h : d₁.IsTree) (keeps : d.Keeps d₁)
    (there : d₁.Reaches loc names way.goal) (inSource : d.get? (root ++ names') = some node)
    (hdir : d₁.get? (way.goal ++ names') = some .directory) :
    d₁.Reaches (d₁.start (Path.below target names')) (named (Path.below target names')) (way.goal ++ names') := by
  have start : d₁.start (Path.below target names') = loc := by
    rw [start_congr (isAbsolute_below target (ready.isName inSource)), keeps.start, ready.start]
  have moving : moves (named (Path.below target names')) = names ++ names' := by
    rw [named_below target (ready.isName inSource), moves_append, ready.moving,
      moves_eq_self fun name hn => ⟨(ready.proper inSource name hn).ne_empty, (ready.proper inSource name hn).ne_dot⟩]
  have hstart : d₁.get? loc = some .directory := ready.start ▸ keeps.directory (ready.tree.start target)
  rw [start, ← h.reaches_moves hstart, moving]
  exact ready.reaches_below h keeps hstart there inSource hdir

/-- What has been there where a node of the source goes is of its kind. -/
theorem meets (ready : d.Overlayable source target root way) (left : way.Leftover root d₁) {old : Node}
    (inSource : d.get? (root ++ names') = some node) (there : d₁.get? (way.goal ++ names') = some old) :
    old.Remains node := by
  rcases left.between (way.goal ++ names') with same | made | ⟨node', now, laid, here, remains⟩
  · exact ready.agree names' node old inSource (way.made_of_some (same.symm.trans there))
  · exact ready.agree names' node old inSource (made.symm.trans there)
  · rw [way.laid_append, inSource] at laid
    rw [there] at here
    cases laid
    cases here
    exact remains.symm

end Overlayable

end Disk

namespace TreeCopy
open ServingLifecycle.Path Disk

variable {d d₁ d' : Disk} {loc root : Location} {source target : String} {names : List String} {a a' : Agenda}
  {way : d.Way loc names}

/-! ### What is on the agenda -/

namespace Agenda

/-- Whatever is in the source has been dealt with, or it is ahead or will be found below something that is. -/
def Covers (d : Disk) (root : Location) (past ahead : List (List String)) : Prop :=
  ∀ names node, d.get? (root ++ names) = some node → names ∈ past ∨ ∃ first ∈ ahead, first <+: names

section
variable {past past' ahead ahead' : List (List String)} {names found : List String} {entries : List (String × Node)}

theorem Covers.perm (covers : Covers d root past ahead) (hp : past.Perm past') (ha : ahead.Perm ahead') :
    Covers d root past' ahead' := by
  intro names node there
  refine (covers names node there).imp hp.mem_iff.mp ?_
  rintro ⟨first, hfirst, hpre⟩
  exact ⟨first, ha.mem_iff.mp hfirst, hpre⟩

/-- Something is dealt with, and all that is in it is found. -/
theorem Covers.deal (covers : Covers d root past (names :: ahead)) (tree : d.IsTree)
    (all : ∀ name node, d.get? (root ++ (names ++ [name])) = some node → name ∈ found) :
    Covers d root (names :: past) (found.map (names ++ [·]) ++ ahead) := by
  intro names' node there
  rcases covers names' node there with old | ⟨first, hfirst, rest, rfl⟩
  · exact Or.inl (List.mem_cons_of_mem _ old)
  · rcases List.mem_cons.mp hfirst with rfl | later
    · cases rest with
      | nil =>
        rw [List.append_nil]
        exact Or.inl List.mem_cons_self
      | cons name rest =>
        have next : root ++ (first ++ name :: rest) = root ++ (first ++ [name]) ++ rest := by simp
        rw [next] at there
        obtain ⟨node', inner⟩ := tree.exists_of_append there
        have mem : first ++ [name] ∈ found.map (first ++ [·]) := List.mem_map_of_mem (all name node' inner)
        exact Or.inr ⟨first ++ [name], List.mem_append_left _ mem, rest, by simp⟩
    · exact Or.inr ⟨first, List.mem_append_right _ later, List.prefix_append _ _⟩

/-- What a directory lists is what the source had in it. -/
theorem Original.mem_entries (original : a.Original d root) (tree : d₁.IsTree) (keeps : d.Keeps d₁)
    (there : d.Reaches (d.start source) (named source) root)
    (same : ∀ names, d₁.get? (root ++ names) = d.get? (root ++ names)) (hn : names ∈ a.pending)
    (listed : d₁.list (below source names) = .ok entries) {name : String} {node : Node} :
    (name, node) ∈ entries ↔ d.get? (root ++ (names ++ [name])) = some node := by
  have there' := keeps.reaches there
  rw [← keeps.start] at there'
  have hdir := keeps.directory (original.directories names (List.mem_append_right _ hn))
  rw [tree.entries_of_list_below there' hdir listed, tree.mem_children_iff, List.append_assoc, same]

end

/-- An agenda on which everything in the source stands, with the place where it will be met. -/
structure Survey (d : Disk) (root : Location) (a : Agenda) : Prop where
  original : a.Original d root
  fresh : Fresh a.past a.ahead
  found : ∀ names entries, a.opened = some (names, entries) →
    ∀ entry ∈ entries, d.get? (root ++ (names ++ [entry.1])) = some entry.2
  above : ∀ names ∈ a.ahead, names = [] ∨ ∃ parent name, names = parent ++ [name] ∧ parent ∈ a.taken
  covers : Covers d root a.past a.ahead

namespace Survey

theorem start (h : d.get? root = some .directory) : Agenda.start.Survey d root where
  original := .start h
  fresh := .start
  found := nofun
  above names hn := Or.inl (by simpa [ahead, Agenda.start] using hn)
  covers names node _ := Or.inr ⟨[], by simp [ahead, Agenda.start], List.nil_prefix⟩

theorem step (h : a.Survey d root) (s : Step source target a d₁ a' d') (tree : d.IsTree) (tree' : d'.IsTree)
    (keeps : d.Keeps d') (there : d.Reaches (d.start source) (named source) root)
    (same : ∀ names, d'.get? (root ++ names) = d.get? (root ++ names)) : a'.Survey d root where
  original := h.original.step s tree' keeps there fun l inside hdir => by
    obtain ⟨names, rfl⟩ := inside
    rwa [same] at hdir
  fresh := s.fresh tree' h.fresh
  found := by
    cases s with
    | take made listed =>
      rintro _ _ ⟨⟩ entry he
      exact (h.original.mem_entries tree' keeps there same List.mem_cons_self listed).mp he
    | push | file =>
      rintro _ _ ⟨⟩ entry he
      exact h.found _ _ rfl entry (List.mem_cons_of_mem _ he)
    | close => rintro _ _ ⟨⟩
  above := by
    intro names' hn
    have onward (ahead : names' ∈ a.ahead) :
        names' = [] ∨ ∃ parent name, names' = parent ++ [name] ∧ parent ∈ a'.taken := by
      refine (h.above names' ahead).imp_right ?_
      rintro ⟨parent, name, e, hparent⟩
      exact ⟨parent, name, e, s.taken_subset hparent⟩
    rcases s.shift with ⟨-, ha⟩ | ⟨names, found, rest, before, -, ha, what⟩
    · exact onward (ha.mem_iff.mpr hn)
    · rcases List.mem_append.mp (ha.mem_iff.mpr hn) with new | old
      · obtain ⟨name, hname, rfl⟩ := List.mem_map.mp new
        rcases what with ⟨-, -, taken, -⟩ | ⟨rfl, -⟩
        · exact Or.inr ⟨names, name, rfl, taken⟩
        · cases hname
      · exact onward (before.mem_iff.mpr (List.mem_cons_of_mem _ old))
  covers := by
    rcases s.shift with ⟨hp, ha⟩ | ⟨names, found, rest, before, hp, ha, what⟩
    · exact h.covers.perm hp ha
    · refine ((h.covers.perm (.refl _) before).deal tree fun name node inner => ?_).perm hp ha
      rcases what with ⟨entries, hn, -, listed, rfl⟩ | ⟨rfl, dir, file, node', others, opened, other, rfl⟩
      · exact List.mem_map_of_mem ((h.original.mem_entries tree' keeps there same hn listed).mpr inner)
      · -- nothing lies in a file
        rw [← List.append_assoc] at inner
        have hdir := tree.parent inner
        rw [h.found dir _ opened _ List.mem_cons_self] at hdir
        exact absurd (Option.some.inj hdir) other

end Survey
end Agenda

/-! ### What is on the disk -/

/-- A copy on the way: what it has dealt with is laid over the goal, and at all the places where the source has
nothing to put the directories on the way are made. Before the first directory is taken nothing has been done. -/
structure Laying (d : Disk) (root : Location) (way : d.Way loc names) (a : Agenda) (d₁ : Disk) : Prop where
  survey : a.Survey d root
  left : way.Leftover root d₁
  untouched : a.past = [] → d₁ = d
  there : a.past ≠ [] → d₁.Reaches loc names way.goal
  rest : a.past ≠ [] → ∀ l, way.laid root l = none → d₁.get? l = way.made l
  done : ∀ names' ∈ a.past, d.get? (root ++ names') ≠ none ∧ d₁.get? (way.goal ++ names') = d.get? (root ++ names')

/-- A change that puts at some places what the source has for them. -/
structure Lays (root : Location) (way : d.Way loc names) (d₁ d' : Disk) : Prop where
  tree : d'.IsTree
  keeps : d₁.Keeps d'
  only : ∀ l, d'.get? l = d₁.get? l ∨ way.laid root l ≠ none ∧ d'.get? l = way.laid root l

theorem Lays.leftover (lays : Lays root way d₁ d') (left : way.Leftover root d₁) : way.Leftover root d' := by
  refine ⟨lays.tree, left.keeps.trans lays.keeps, fun l => ?_⟩
  rcases lays.only l with e | ⟨some, e⟩
  · rw [e]
    exact left.between l
  · obtain ⟨node, hnode⟩ := Option.ne_none_iff_exists'.mp some
    exact Or.inr (Or.inr ⟨node, node, hnode, e.trans hnode, .refl node⟩)

theorem Lays.source_same (lays : Lays root way d₁ d') (ready : d.Overlayable source target root way)
    (left : way.Leftover root d₁) (names' : List String) : d'.get? (root ++ names') = d.get? (root ++ names') := by
  rcases lays.only (root ++ names') with e | ⟨some, -⟩
  · rw [e, ready.source_same left]
  · exact absurd (ready.laid_source names') some

namespace Laying

theorem start (ready : d.Overlayable source target root way) : Laying d root way .start d where
  survey := .start ready.directory
  left := ⟨ready.tree, .refl d, fun _ => Or.inl rfl⟩
  untouched _ := rfl
  there := nofun
  rest := nofun
  done := nofun

theorem grow (laying : Laying d root way a d₁) (lays : Lays root way d₁ d') (survey : a'.Survey d root)
    (begun : a.past ≠ []) (still : a'.past ≠ [])
    (past : ∀ names' ∈ a'.past, names' ∈ a.past
      ∨ d.get? (root ++ names') ≠ none ∧ d'.get? (way.goal ++ names') = d.get? (root ++ names')) :
    Laying d root way a' d' where
  survey := survey
  left := lays.leftover laying.left
  untouched none := absurd none still
  there _ := lays.keeps.reaches (laying.there begun)
  rest _ l none := by
    rcases lays.only l with e | ⟨some, -⟩
    · rw [e]
      exact laying.rest begun l none
    · exact absurd none some
  done names' hn := by
    rcases past names' hn with old | new
    · obtain ⟨inSource, e⟩ := laying.done names' old
      refine ⟨inSource, ?_⟩
      rcases lays.only (way.goal ++ names') with same | ⟨-, same⟩
      · rw [same, e]
      · rw [same, way.laid_append]
    · exact new

/-- A step that leaves the disk alone and deals with nothing. -/
theorem still (ready : d.Overlayable source target root way) (laying : Laying d root way a d₁)
    (s : Agenda.Step source target a d₁ a' d₁) (past : a'.past = a.past) :
    Laying d root way a' d₁ where
  survey := laying.survey.step s ready.tree laying.left.tree laying.left.keeps ready.reached
    (ready.source_same laying.left)
  left := laying.left
  untouched := past ▸ laying.untouched
  there := past ▸ laying.there
  rest := past ▸ laying.rest
  done := past ▸ laying.done

variable {taken copied pending : List (List String)} {name : String} {node : Node} {rest : List (String × Node)}

/-- What is met below a directory lies in one that has been laid over the goal. -/
theorem parent (ready : d.Overlayable source target root way) (laying : Laying d root way a d₁) {names' : List String}
    (next : names' ++ [name] ∈ a.ahead) (inSource : d.get? (root ++ (names' ++ [name])) = some node) :
    a.past ≠ [] ∧ d.get? (root ++ names') = some .directory ∧ d₁.get? (way.goal ++ names') = some .directory
      ∧ d₁.Reaches (d₁.start (below target names')) (named (below target names')) (way.goal ++ names') := by
  rcases laying.survey.above _ next with e | ⟨parent, name', e, hparent⟩
  · simp at e
  · obtain ⟨rfl, -⟩ := List.append_inj' e rfl
    have begun : a.past ≠ [] := List.ne_nil_of_mem (List.mem_append_left _ hparent)
    have hdir : d.get? (root ++ names') = some .directory :=
      ready.tree.parent (by rw [List.append_assoc]; exact inSource)
    obtain ⟨-, laid⟩ := laying.done names' (List.mem_append_left _ hparent)
    rw [hdir] at laid
    exact ⟨begun, hdir, laid,
      ready.reaches_target laying.left.tree laying.left.keeps (laying.there begun) hdir laid⟩

/-- A file of the source is written into a directory that has been made, over a file at most. -/
theorem written (ready : d.Overlayable source target root way) {names' : List String}
    (laying : Laying d root way ⟨taken, copied, pending, some (names', (name, node) :: rest)⟩ d₁)
    (other : node ≠ .directory) : taken ++ copied ≠ [] ∧ IsProper name ∧ d₁.get? (way.goal ++ names') = some .directory
      ∧ (∃ content, node = .file content)
      ∧ (∀ old, d₁.get? (way.goal ++ names' ++ [name]) = some old → ∃ content, old = .file content)
      ∧ d₁.writeTarget (below target (names' ++ [name])) = .ok (way.goal ++ names' ++ [name]) := by
  obtain ⟨tree, keeps, -⟩ := laying.left
  have inSource := laying.survey.found _ _ rfl (name, node) List.mem_cons_self
  have next : names' ++ [name] ∈ (Agenda.mk taken copied pending (some (names', (name, node) :: rest))).ahead := by
    simp [Agenda.ahead]
  obtain ⟨begun, -, hdir, there⟩ := laying.parent ready next inSource
  have proper : IsProper name := ready.proper inSource name (by simp)
  obtain ⟨short, -, text⟩ := ready.fits _ _ inSource
  have isFile : ∃ content, node = .file content := by
    cases node with
    | directory => exact absurd rfl other
    | file content => exact ⟨content, rfl⟩
    | link link => exact absurd inSource (ready.plain _ link)
  have spot : ∀ old, d₁.get? (way.goal ++ names' ++ [name]) = some old → ∃ content, old = .file content := by
    intro old hold
    rw [List.append_assoc] at hold
    obtain ⟨content, rfl⟩ := isFile
    rcases (ready.meets laying.left inSource hold).symm with rfl | ⟨_, content', -, rfl⟩
    · exact ⟨content, rfl⟩
    · exact ⟨content', rfl⟩
  refine ⟨begun, proper, hdir, isFile, spot, ?_⟩
  rw [below_append] at text ⊢
  refine tree.writeTarget_child there proper ((keeps.nameExceeds name).trans (short name (by simp))) ?_ ?_
  · rw [keeps.pathFault?]
    exact text.resolve_left (child_ne_empty _ proper.toIsName)
  · cases hold : d₁.get? (way.goal ++ names' ++ [name]) with
    | none => exact Or.inl rfl
    | some old =>
      obtain ⟨content, rfl⟩ := spot old hold
      exact Or.inr ⟨content, rfl⟩

/-- A file is copied. -/
theorem file (ready : d.Overlayable source target root way) {names' : List String}
    (laying : Laying d root way ⟨taken, copied, pending, some (names', (name, node) :: rest)⟩ d₁)
    (other : node ≠ .directory) :
    ∃ d', d₁.copyFile (below source (names' ++ [name])) (below target (names' ++ [name])) = .ok d'
      ∧ Laying d root way ⟨taken, copied ++ [names' ++ [name]], pending, some (names', rest)⟩ d' := by
  obtain ⟨begun, proper, hdir, ⟨content, rfl⟩, spot, written⟩ := laying.written ready other
  obtain ⟨tree, keeps, -⟩ := laying.left
  have inSource := laying.survey.found _ _ rfl (name, .file content) List.mem_cons_self
  have remains : ∀ old, d₁.get? (way.goal ++ names' ++ [name]) = some old → old.Remains (.file content) := by
    intro old hold
    obtain ⟨content', rfl⟩ := spot old hold
    exact Node.remains_file content' content
  have elsewhere : way.goal ++ names' ++ [name] ≠ root ++ (names' ++ [name]) := by
    intro e
    rw [List.append_assoc] at e
    have none := ready.laid_source (names' ++ [name])
    rw [← e, way.laid_append, inSource] at none
    cases none
  have done : d₁.copyFile (below source (names' ++ [name])) (below target (names' ++ [name]))
      = .ok (d₁.put (way.goal ++ names' ++ [name]) (.file content)) := by
    unfold Disk.copyFile
    rw [keeps.locate (ready.locate_below inSource)]
    dsimp only
    rw [ready.source_same laying.left, inSource]
    dsimp only
    rw [written]
    dsimp only
    rw [if_neg elsewhere]
  have lays : Lays root way d₁ (d₁.put (way.goal ++ names' ++ [name]) (.file content)) := by
    refine ⟨tree.put proper hdir remains, Keeps.put (by simp) remains, fun l => ?_⟩
    rw [get?_put (by simp)]
    split
    · rename_i e
      rw [e, List.append_assoc, way.laid_append, inSource]
      exact Or.inr ⟨Option.some_ne_none _, rfl⟩
    · exact Or.inl rfl
  have survey := laying.survey.step (.file other done) ready.tree lays.tree (keeps.trans lays.keeps) ready.reached
    (lays.source_same ready laying.left)
  refine ⟨_, done, laying.grow lays survey begun (by simp [Agenda.past]) fun old hold => ?_⟩
  simp only [Agenda.past, ← List.append_assoc, List.mem_append, List.mem_singleton] at hold ⊢
  refine hold.imp_right ?_
  rintro rfl
  rw [inSource, ← List.append_assoc, get?_put (by simp), if_pos rfl]
  exact ⟨Option.some_ne_none _, rfl⟩

/-- A directory of the source is due in one that has been made, where it is missing or there already. -/
theorem due (ready : d.Overlayable source target root way) {names' : List String}
    (laying : Laying d root way ⟨taken, copied, (names' ++ [name]) :: pending, none⟩ d₁) :
    taken ++ copied ≠ [] ∧ d.get? (root ++ (names' ++ [name])) = some .directory ∧ IsProper name
      ∧ d₁.nameExceeds name = false
      ∧ d₁.Reaches (d₁.start (below target names')) (named (below target names')) (way.goal ++ names')
      ∧ (d₁.get? (way.goal ++ names' ++ [name]) = none ∨ d₁.get? (way.goal ++ names' ++ [name]) = some .directory) := by
  have inSource := laying.survey.original.directories (names' ++ [name]) (by simp)
  have next : names' ++ [name] ∈ (Agenda.mk taken copied ((names' ++ [name]) :: pending) none).ahead := by
    simp [Agenda.ahead]
  obtain ⟨begun, -, -, there⟩ := laying.parent ready next inSource
  refine ⟨begun, inSource, ready.proper inSource name (by simp), ?_, there, ?_⟩
  · exact (laying.left.keeps.nameExceeds name).trans ((ready.fits _ _ inSource).1 name (by simp))
  · cases hold : d₁.get? (way.goal ++ names' ++ [name]) with
    | none => exact Or.inl rfl
    | some old =>
      rw [List.append_assoc] at hold
      rw [(ready.meets laying.left inSource hold).symm.eq_directory]
      exact Or.inr rfl

/-- Making the directory that is due, or nothing, lays part of the source. -/
theorem lays_directory {names' : List String} (inSource : d.get? (root ++ (names' ++ [name])) = some .directory)
    (tree : d'.IsTree) (keeps : d₁.Keeps d') (only : ∀ l, d'.get? l = d₁.get? l
      ∨ d'.get? l = if l = way.goal ++ names' ++ [name] then some .directory else d₁.get? l) : Lays root way d₁ d' := by
  refine ⟨tree, keeps, fun l => ?_⟩
  rcases only l with same | made
  · exact Or.inl same
  · split at made
    · rename_i e
      rw [made, e, List.append_assoc, way.laid_append, inSource]
      exact Or.inr ⟨Option.some_ne_none _, rfl⟩
    · exact Or.inl made

/-- A directory below the source is taken: its counterpart is made and it is listed. -/
theorem take_below (ready : d.Overlayable source target root way) {names' : List String}
    (laying : Laying d root way ⟨taken, copied, (names' ++ [name]) :: pending, none⟩ d₁) :
    ∃ d' entries, d₁.makeDirectories (below target (names' ++ [name])) = (.ok (), d')
      ∧ d'.list (below source (names' ++ [name])) = .ok entries
      ∧ Laying d root way ⟨taken ++ [names' ++ [name]], copied, pending, some (names' ++ [name], entries)⟩ d' := by
  obtain ⟨begun, inSource, proper, short, there, spot⟩ := laying.due ready
  obtain ⟨tree, keeps, -⟩ := laying.left
  have text := (ready.fits _ _ inSource).2.2
  rw [below_append] at text ⊢
  obtain ⟨d', made, tree', keeps', only⟩ := tree.makeDirectories_child there proper short
    ((keeps.pathFault? _).trans (text.resolve_left (child_ne_empty _ proper.toIsName))) spot
  have lays : Lays root way d₁ d' := lays_directory inSource tree' keeps' fun l => Or.inr (only l)
  have listed := ready.list_below (keeps.trans keeps') inSource
  have step : Agenda.Step source target ⟨taken, copied, (names' ++ [name]) :: pending, none⟩ d₁
      ⟨taken ++ [names' ++ [name]], copied, pending, some (names' ++ [name], _)⟩ d' :=
    .take (by rw [below_append]; exact made) listed
  have survey := laying.survey.step step ready.tree tree' (keeps.trans keeps') ready.reached
    (lays.source_same ready laying.left)
  refine ⟨d', _, made, listed, laying.grow lays survey begun (by simp [Agenda.past]) fun old hold => ?_⟩
  simp only [Agenda.past, List.append_assoc, List.mem_append, List.mem_singleton] at hold ⊢
  rcases hold with hold | rfl | hold
  · exact Or.inl (Or.inl hold)
  · rw [inSource, only, List.append_assoc, if_pos rfl]
    exact Or.inr ⟨Option.some_ne_none _, rfl⟩
  · exact Or.inl (Or.inr hold)

/-- As long as the source itself is on the stack nothing has been done. -/
theorem first (laying : Laying d root way ⟨taken, copied, [] :: pending, none⟩ d₁) : taken ++ copied = [] ∧ d₁ = d := by
  have past : taken ++ copied = [] := List.eq_nil_iff_forall_not_mem.mpr fun names' hn =>
    laying.survey.fresh.new [] (by simp [Agenda.ahead]) names' hn List.nil_prefix
  exact ⟨past, laying.untouched past⟩

/-- The source itself is taken: the directories on the way to the target are made and it is listed. -/
theorem take_first (ready : d.Overlayable source target root way)
    (laying : Laying d root way ⟨taken, copied, [] :: pending, none⟩ d₁) :
    ∃ d' entries, d₁.makeDirectories (below target []) = (.ok (), d') ∧ d'.list (below source []) = .ok entries
      ∧ Laying d root way ⟨taken ++ [[]], copied, pending, some ([], entries)⟩ d' := by
  obtain ⟨past, rfl⟩ := laying.first
  obtain ⟨rfl, rfl⟩ := List.append_eq_nil_iff.mp past
  have text : target = "" ∨ d₁.pathFault? target = none :=
    (ready.fits [] .directory (by rw [List.append_nil]; exact ready.directory)).2.2
  obtain ⟨d', made, whole⟩ := way.makeDirectories ready.tree ready.start ready.moving text ready.dot
  have source_same (names' : List String) : d'.get? (root ++ names') = d₁.get? (root ++ names') :=
    (whole.get? _).trans (ready.around _ (List.prefix_append _ _))
  have inSource : d₁.get? (root ++ []) = some .directory := by rw [List.append_nil]; exact ready.directory
  have listed := ready.list_below whole.keeps inSource
  refine ⟨d', _, made, listed, ⟨?_, ?_, fun none => absurd none (List.cons_ne_nil _ _), fun _ => whole.there,
    fun _ l _ => whole.get? l, ?_⟩⟩
  · exact laying.survey.step (.take made listed) ready.tree whole.tree whole.keeps ready.reached source_same
  · exact ⟨whole.tree, whole.keeps, fun l => Or.inr (Or.inl (whole.get? l))⟩
  · intro names' hn
    simp only [Agenda.past, List.nil_append, List.append_nil, List.mem_singleton] at hn
    subst hn
    rw [inSource, List.append_nil, whole.get?, way.made_of_mem way.goal_mem_places]
    exact ⟨Option.some_ne_none _, rfl⟩

/-- A copy that is not over takes a step, whatever is next. -/
theorem step (ready : d.Overlayable source target root way) (laying : Laying d root way a d₁)
    (going : (a.copy source target).isDone = false) :
    ∃ a' d', Agenda.Step source target a d₁ a' d' ∧ Laying d root way a' d' := by
  obtain ⟨taken, copied, pending, _ | ⟨names', _ | ⟨⟨name, node⟩, rest⟩⟩⟩ := a
  · rcases pending with _ | ⟨names', pending⟩
    · cases going
    · rcases List.eq_nil_or_concat names' with rfl | ⟨parent, name, e⟩
      · obtain ⟨d', entries, made, listed, next⟩ := laying.take_first ready
        exact ⟨_, d', .take made listed, next⟩
      · rw [List.concat_eq_append] at e
        subst e
        obtain ⟨d', entries, made, listed, next⟩ := laying.take_below ready
        exact ⟨_, d', .take made listed, next⟩
  · have close : Agenda.Step source target ⟨taken, copied, pending, some (names', [])⟩ d₁
        ⟨taken, copied, pending, none⟩ d₁ := .close
    exact ⟨_, d₁, close, laying.still ready close rfl⟩
  · by_cases isDir : node = .directory
    · subst isDir
      have push : Agenda.Step source target ⟨taken, copied, pending, some (names', (name, .directory) :: rest)⟩ d₁
          ⟨taken, copied, (names' ++ [name]) :: pending, some (names', rest)⟩ d₁ := .push
      exact ⟨_, d₁, push, laying.still ready push rfl⟩
    · obtain ⟨d', copied, next⟩ := laying.file ready isDir
      exact ⟨_, d', .file isDir copied, next⟩

end Laying

end TreeCopy
end ServingLifecycle
