import Mathlib.Data.List.Infix
import ServingLifecycle.Proofs.Disk.Course
/-!
# Ways to places that may be missing

A way leads to a directory that is there and from it on over places that are free or directories. Making the
directory at its end succeeds: afterwards the free places on the way are directories, and nothing else has changed.
-/
namespace ServingLifecycle.Disk
open ServingLifecycle.Path

variable {d d' d₁ : Disk} {loc l q : Location} {name path : String} {names front : List String}

/-- A way along names: the first of them lead to a directory, links followed, and behind the others every place is
free or a directory. -/
structure Way (d : Disk) (loc : Location) (names : List String) where
  front : List String
  back : List String
  /-- the directory that the first names lead to -/
  base : Location
  parts : names = front ++ back
  reached : d.Reaches loc front base
  short : ∀ name ∈ back, d.nameExceeds name = false
  clear : ∀ passed, passed <+: back → d.get? (along base passed) = none ∨ d.get? (along base passed) = some .directory

namespace Way

/-- The place at the end of a way. -/
def goal (way : d.Way loc names) : Location :=
  along way.base way.back

/-- The places on a way that may still be free. -/
def places (way : d.Way loc names) : List Location :=
  way.back.inits.map (along way.base)

/-- What is at a place once the directories on the way have been made. -/
def made (way : d.Way loc names) (l : Location) : Option Node :=
  if d.get? l = none ∧ l ∈ way.places then some .directory else d.get? l

theorem mem_places {way : d.Way loc names} :
    l ∈ way.places ↔ ∃ passed, passed <+: way.back ∧ along way.base passed = l := by
  simp only [places, List.mem_map, List.mem_inits]

theorem goal_mem_places (way : d.Way loc names) : way.goal ∈ way.places :=
  mem_places.mpr ⟨way.back, List.prefix_refl _, rfl⟩

theorem clear_places (way : d.Way loc names) (h : l ∈ way.places) :
    d.get? l = none ∨ d.get? l = some .directory := by
  obtain ⟨passed, hp, rfl⟩ := mem_places.mp h
  exact way.clear passed hp

theorem made_of_mem (way : d.Way loc names) (h : l ∈ way.places) : way.made l = some .directory := by
  unfold made
  split
  · rfl
  · rename_i taken
    exact (way.clear_places h).resolve_left fun free => taken ⟨free, h⟩

theorem made_of_notMem (way : d.Way loc names) (h : l ∉ way.places) : way.made l = d.get? l :=
  if_neg fun free => h free.2

theorem made_of_some (way : d.Way loc names) {node : Node} (h : d.get? l = some node) : way.made l = some node := by
  unfold made
  rw [if_neg (by simp [h]), h]

/-- One more name at the end of a way. -/
def extend (way : d.Way loc names) (name : String) (short : d.nameExceeds name = false)
    (clear : d.get? (along way.goal [name]) = none ∨ d.get? (along way.goal [name]) = some .directory) :
    d.Way loc (names ++ [name]) where
  front := way.front
  back := way.back ++ [name]
  base := way.base
  parts := (congrArg (· ++ [name]) way.parts).trans (List.append_assoc ..)
  reached := way.reached
  short n hn := by
    rcases List.mem_append.mp hn with hn | hn
    · exact way.short n hn
    · exact List.mem_singleton.mp hn ▸ short
  clear passed hp := by
    rcases List.prefix_concat_iff.mp hp with rfl | hp
    · rw [along_append]
      exact clear
    · exact way.clear passed hp

/-- The way to a directory that is there. -/
def bare (there : d.Reaches loc names q) (clear : d.get? q = none ∨ d.get? q = some .directory) : d.Way loc names where
  front := names
  back := []
  base := q
  parts := (List.append_nil names).symm
  reached := there
  short := nofun
  clear passed hp := by
    rw [List.prefix_nil.mp hp]
    exact clear

/-- A way is the one to a directory that is there, or has one name more than a way. -/
@[elab_as_elim]
theorem induction {motive : ∀ names, d.Way loc names → Prop}
    (bare : ∀ {names q} (there : d.Reaches loc names q) clear, motive names (bare there clear))
    (extend : ∀ {names} (way : d.Way loc names) (name : String) short clear, motive names way →
      motive (names ++ [name]) (way.extend name short clear)) (way : d.Way loc names) : motive names way := by
  obtain ⟨front, back, base, parts, reached, short, clear⟩ := way
  induction back using List.reverseRecOn generalizing names with
  | nil =>
    obtain rfl : names = front := parts.trans (List.append_nil front)
    exact bare reached (clear [] (List.prefix_refl _))
  | append_singleton back name ih =>
    obtain rfl : names = front ++ back ++ [name] := parts.trans (List.append_assoc ..).symm
    have before : motive (front ++ back) _ := ih rfl (fun n hn => short n (List.mem_append_left _ hn))
      fun passed hp => clear passed (hp.trans (List.prefix_append _ _))
    have last := clear (back ++ [name]) (List.prefix_refl _)
    rw [along_append] at last
    exact extend ⟨front, back, base, rfl, reached, _, _⟩ name (short name (by simp)) last before

/-- A way on a disk that has grown, if on it are directories or what was there before. -/
def carry (way : d.Way loc names) (keeps : d.Keeps d')
    (same : ∀ l ∈ way.places, d'.get? l = d.get? l ∨ d'.get? l = some .directory) : d'.Way loc names where
  front := way.front
  back := way.back
  base := way.base
  parts := way.parts
  reached := keeps.reaches way.reached
  short name hn := (keeps.nameExceeds name).trans (way.short name hn)
  clear passed hp := by
    rcases same _ (mem_places.mpr ⟨passed, hp, rfl⟩) with e | there
    · rw [e]
      exact way.clear passed hp
    · exact Or.inr there

@[simp] theorem goal_carry (way : d.Way loc names) (keeps : d.Keeps d')
    (same : ∀ l ∈ way.places, d'.get? l = d.get? l ∨ d'.get? l = some .directory) :
    (way.carry keeps same).goal = way.goal := rfl

/-- Directories on the way that are there already make no difference. -/
theorem made_carry {way : d.Way loc names} {keeps : d.Keeps d'}
    {same : ∀ l ∈ way.places, d'.get? l = d.get? l ∨ d'.get? l = some .directory}
    (grown : d'.get? l = d.get? l ∨ d'.get? l = way.made l) : (way.carry keeps same).made l = way.made l := by
  by_cases hl : l ∈ way.places
  · rw [way.made_of_mem hl, made_of_mem (way.carry keeps same) hl]
  · rw [made_of_notMem (way.carry keeps same) hl, way.made_of_notMem hl]
    rcases grown with e | e
    · exact e
    · exact e.trans (way.made_of_notMem hl)

theorem mem_places_extend {way : d.Way loc names} {short : d.nameExceeds name = false}
    {clear : d.get? (along way.goal [name]) = none ∨ d.get? (along way.goal [name]) = some .directory} :
    l ∈ (way.extend name short clear).places ↔ l ∈ way.places ∨ l = along way.goal [name] := by
  simp only [mem_places, extend, List.prefix_concat_iff]
  constructor
  · rintro ⟨passed, rfl | hp, rfl⟩
    · exact Or.inr (along_append ..)
    · exact Or.inl ⟨passed, hp, rfl⟩
  · rintro (⟨passed, hp, rfl⟩ | rfl)
    · exact ⟨passed, Or.inr hp, rfl⟩
    · exact ⟨way.back ++ [name], Or.inl rfl, along_append ..⟩

/-- A disk on which the directories on the way have been made. -/
structure Made (way : d.Way loc names) (d' : Disk) : Prop where
  tree : d'.IsTree
  keeps : d.Keeps d'
  there : d'.Reaches loc names way.goal
  get? : ∀ l, d'.get? l = way.made l

theorem Made.self {way : d.Way loc names} (h : d.IsTree) (there : d.Reaches loc names way.goal)
    (dirs : ∀ l ∈ way.places, d.get? l = some .directory) : way.Made d := by
  refine ⟨h, .refl d, there, fun l => ?_⟩
  by_cases hl : l ∈ way.places
  · rw [way.made_of_mem hl, dirs l hl]
  · rw [way.made_of_notMem hl]

/-- On the way to a directory that is there nothing has to be made. -/
theorem Made.bare (h : d.IsTree) (hloc : d.get? loc = some .directory) (there : d.Reaches loc names q)
    (clear : d.get? q = none ∨ d.get? q = some .directory) : (bare there clear).Made d := by
  refine .self h there fun l hl => ?_
  obtain ⟨passed, hp, rfl⟩ := mem_places.mp hl
  rw [List.prefix_nil.mp hp]
  exact h.directory_of_reaches hloc there

/-- Along a way one comes to its end over directories alone, or finds something missing. -/
theorem walk (way : d.Way loc names) (h : d.IsTree) (hloc : d.get? loc = some .directory)
    (hnames : ∀ name ∈ names, name ≠ "" ∧ name ≠ ".") :
    (d.Reaches loc names way.goal ∧ ∀ l ∈ way.places, d.get? l = some .directory)
      ∨ d.follow .look maxLinks loc (names ++ ["."]) = .error .noEntry := by
  obtain ⟨m, onward⟩ := h.follow_onward hloc way.reached way.back
  rw [← way.parts] at onward
  have hback : ∀ name ∈ way.back, name ≠ "" ∧ name ≠ "." := fun name hn =>
    hnames name (way.parts ▸ List.mem_append_right way.front hn)
  cases h.course (h.directory_of_reaches hloc way.reached) hback way.clear with
  | passes arrived dirs =>
    refine Or.inl ⟨onward.trans (follow_arrived arrived), fun l hl => ?_⟩
    obtain ⟨passed, hp, rfl⟩ := mem_places.mp hl
    exact dirs passed hp
  | missing blocked _ _ _ => exact Or.inr (onward.trans (follow_blocked blocked))
  | long _ _ name mem long =>
    rw [way.short name mem] at long
    cases long

theorem made_extend {way : d.Way loc names} {short : d.nameExceeds name = false}
    {clear : d.get? (along way.goal [name]) = none ∨ d.get? (along way.goal [name]) = some .directory} :
    (way.extend name short clear).made l = if l = along way.goal [name] then some .directory else way.made l := by
  split
  · rename_i e
    exact made_of_mem _ (mem_places_extend.mpr (Or.inr e))
  · rename_i other
    by_cases hl : l ∈ way.places
    · rw [way.made_of_mem hl, made_of_mem _ (mem_places_extend.mpr (Or.inl hl))]
    · rw [way.made_of_notMem hl, made_of_notMem]
      exact fun h => (mem_places_extend.mp h).elim hl other

/-- Once the directories before the last name are made, the last one is there too or is the one still to be made. -/
theorem Made.extend {way : d.Way loc names} (made : way.Made d₁) (hloc : d.get? loc = some .directory)
    (hname : IsName name) (hdot : name ≠ ".") (short : d.nameExceeds name = false)
    (clear : d.get? (along way.goal [name]) = none ∨ d.get? (along way.goal [name]) = some .directory) :
    (way.extend name short clear).Made d₁
      ∨ IsProper name ∧ d₁.get? (way.goal ++ [name]) = none
        ∧ (way.extend name short clear).Made (d₁.put (way.goal ++ [name]) .directory) := by
  obtain ⟨tree, keeps, there, same⟩ := made
  have hloc := keeps.directory hloc
  have hgoal := tree.directory_of_reaches hloc there
  have goal : (way.extend name short clear).goal = along way.goal [name] := along_append ..
  have self (last : d₁.Reaches loc (names ++ [name]) (along way.goal [name]))
      (hdir : d₁.get? (along way.goal [name]) = some .directory) : (way.extend name short clear).Made d₁ := by
    refine ⟨tree, keeps, goal ▸ last, fun l => ?_⟩
    rw [made_extend]
    split
    · rename_i e
      exact e ▸ hdir
    · exact same l
  by_cases hup : name = ".."
  · -- going up leads to a directory that is there
    subst hup
    obtain ⟨m, onward⟩ := tree.follow_onward hloc there [".."]
    refine Or.inl (self ?_ (tree.dropLast hgoal))
    exact onward.trans (follow_arrived (stretch_up.trans (stretch_skip (Or.inr rfl))))
  · have hproper : IsProper name := ⟨hname, hdot, hup⟩
    have down : along way.goal [name] = way.goal ++ [name] := along_name way.goal hup
    have short' := (keeps.nameExceeds name).trans short
    have clear' : d₁.get? (way.goal ++ [name]) = none ∨ d₁.get? (way.goal ++ [name]) = some .directory := by
      rw [same, ← down]
      by_cases hl : along way.goal [name] ∈ way.places
      · exact Or.inr (way.made_of_mem hl)
      · rwa [way.made_of_notMem hl]
    rcases clear' with free | hdir
    · have new : (d₁.put (way.goal ++ [name]) .directory).get? (way.goal ++ [name]) = some .directory := by
        rw [get?_put (by simp), if_pos rfl]
      have keeps' : d₁.Keeps (d₁.put (way.goal ++ [name]) .directory) := Keeps.put (by simp) (by simp [free])
      have tree' : (d₁.put (way.goal ++ [name]) .directory).IsTree := tree.put hproper hgoal (by simp [free])
      refine Or.inr ⟨hproper, free, tree', keeps.trans keeps', ?_, fun l => ?_⟩
      · rw [goal, down]
        exact tree'.reaches_entry (keeps'.directory hloc) (keeps'.reaches there) hproper short' new
      · rw [get?_put (by simp), made_extend, down, same]
    · refine Or.inl (self ?_ (down ▸ hdir))
      rw [down]
      exact tree.reaches_entry hloc there hproper short' hdir

end Way

/-! ### Making the directories on a way -/

/-- An attempt to make a directory after which it is there: it has been made, or it was there and nothing was missing
for it. -/
inductive Obtains (d : Disk) (there : Bool) : Except SystemFault Disk → Disk → Prop
  | made (d' : Disk) : Obtains d there (.ok d') d'
  | kept {fault : SystemFault} (found : fault.isNotFound = false) (hthere : there = true) :
    Obtains d there (.error fault) d

namespace Obtains

variable {there : Bool} {attempt : Except SystemFault Disk}

theorem at_once (further : Except SystemFault Unit × Disk) : d.Obtains there attempt d' →
    (match attempt with
      | .ok d => (.ok (), d)
      | .error fault => if fault.isNotFound then further else if there then (.ok (), d) else (.error fault, d))
      = (.ok (), d') := by
  intro obtains
  cases obtains with
  | made => rfl
  | kept found hthere =>
    dsimp only
    rw [found, hthere]
    rfl

theorem at_last : d.Obtains there attempt d' →
    (match attempt with
      | .ok d => (.ok (), d)
      | .error fault => if there then (.ok (), d) else (.error fault, d))
      = ((.ok (), d') : Except SystemFault Unit × Disk) := by
  intro obtains
  cases obtains with
  | made => rfl
  | kept found hthere =>
    dsimp only
    rw [hthere]
    rfl

end Obtains

/-- A directory that is there cannot be made again, but nothing is missing for it. -/
theorem IsTree.makeNamed_there (h : d.IsTree) (hloc : d.get? loc = some .directory)
    (hnames : ∀ name ∈ trim names, name ≠ "") (there : d.Reaches loc (trim names) q) :
    ∃ fault, d.makeNamed loc names = .error fault ∧ fault.isNotFound = false := by
  cases made : d.makeNamed loc names with
  | ok d' =>
    obtain ⟨front, name, parent, e, hparent, hdots, hlong, free, -⟩ := makeNamed_eq_ok made
    have hname : name ≠ "" := hnames name (by simp [e])
    obtain ⟨m, onward⟩ := h.follow_onward hloc hparent [name]
    have stopped : d.stretch .look parent [name, "."] = .blocked .noEntry := by
      rw [stretch_cons (by tauto) (by tauto) (by simp), hlong, free]
      rfl
    rw [e] at there
    have lost := onward.trans (follow_blocked stopped)
    rw [Reaches, lost] at there
    cases there
  | error fault =>
    refine ⟨fault, rfl, ?_⟩
    cases missing : fault.isNotFound with
    | false => rfl
    | true =>
      obtain ⟨hne, gone⟩ := makeNamed_eq_error made missing
      rw [← List.dropLast_append_getLast hne] at there
      exact absurd (h.reaches_front hloc there) gone

theorem makeNamed_lost (hne : trim names ≠ [])
    (lost : d.follow .look maxLinks loc ((trim names).dropLast ++ ["."]) = .error .noEntry) :
    d.makeNamed loc names = .error .noEntry := by
  unfold makeNamed
  dsimp only
  rw [← trim, List.getLast?_eq_some_getLast hne]
  dsimp only
  rw [lost]

theorem makeNamed_free (e : trim names = front ++ [name]) (there : d.Reaches loc front q)
    (hname : IsProper name) (short : d.nameExceeds name = false) (free : d.get? (q ++ [name]) = none) :
    d.makeNamed loc names = .ok (d.put (q ++ [name]) .directory) := by
  unfold Reaches at there
  unfold makeNamed
  dsimp only
  rw [← trim, e, List.getLast?_concat, List.dropLast_concat]
  dsimp only
  rw [there]
  dsimp only
  rw [if_neg (by simp [hname.ne_dot, hname.ne_up]), short, free]
  rfl

theorem IsTree.makeAncestors_there (h : d.IsTree) (hloc : d.get? loc = some .directory)
    (hnames : ∀ name ∈ names, name ≠ "") (there : d.Reaches loc names q) :
    makeAncestors loc names.reverse d = (.ok (), d) := by
  rcases List.eq_nil_or_concat names with rfl | ⟨front, name, rfl⟩
  · rfl
  · rw [List.concat_eq_append] at hnames there ⊢
    have trimmed := trim_eq_self hnames
    obtain ⟨fault, failed, found⟩ := h.makeNamed_there hloc (by rwa [trimmed]) (by rwa [trimmed])
    have obtains : d.Obtains (d.hasNamedDirectory loc (front ++ [name])) (d.makeNamed loc (front ++ [name])) d :=
      failed ▸ .kept found (hasNamedDirectory_iff.mpr ⟨q, there⟩)
    rw [List.reverse_append, List.reverse_singleton, List.singleton_append]
    unfold makeAncestors
    dsimp only
    rw [List.reverse_reverse]
    exact obtains.at_once _

namespace Way

/-- Making the last directory when those before it have been made: it is made, or it need not be. -/
theorem Made.makeNamed {way : d.Way loc names} (made : way.Made d₁) (hloc : d.get? loc = some .directory)
    (hnames : ∀ n ∈ names ++ [name], IsName n ∧ n ≠ ".") (short : d.nameExceeds name = false)
    (clear : d.get? (along way.goal [name]) = none ∨ d.get? (along way.goal [name]) = some .directory) :
    ∃ d', d₁.Obtains (d₁.hasNamedDirectory loc (names ++ [name])) (d₁.makeNamed loc (names ++ [name])) d'
      ∧ (way.extend name short clear).Made d' := by
  have nonempty : ∀ n ∈ names ++ [name], n ≠ "" := fun n hn => (hnames n hn).1.ne_empty
  have trimmed := trim_eq_self nonempty
  obtain ⟨hname, hdot⟩ := hnames name (by simp)
  rcases made.extend hloc hname hdot short clear with whole | ⟨hproper, free, whole⟩
  · obtain ⟨fault, failed, found⟩ := made.tree.makeNamed_there (made.keeps.directory hloc) (by rwa [trimmed])
      (by rw [trimmed]; exact whole.there)
    exact ⟨d₁, failed ▸ .kept found (hasNamedDirectory_iff.mpr ⟨_, whole.there⟩), whole⟩
  · have new := makeNamed_free trimmed made.there hproper ((made.keeps.nameExceeds name).trans short) free
    exact ⟨_, new ▸ .made _, whole⟩

/-- Making the directories of a way, those above first where they are missing. -/
theorem makeAncestors (way : d.Way loc names) (h : d.IsTree) (hloc : d.get? loc = some .directory)
    (hnames : ∀ name ∈ names, IsName name ∧ name ≠ ".") :
    ∃ d', makeAncestors loc names.reverse d = (.ok (), d') ∧ way.Made d' := by
  induction way using induction with
  | bare there clear =>
    exact ⟨d, h.makeAncestors_there hloc (fun name hn => (hnames name hn).1.ne_empty) there, .bare h hloc there clear⟩
  | @extend names way name short clear ih =>
    have above : ∀ n ∈ names, IsName n ∧ n ≠ "." := fun n hn => hnames n (List.mem_append_left _ hn)
    have trimmed : trim (names ++ [name]) = names ++ [name] :=
      trim_eq_self fun n hn => (hnames n hn).1.ne_empty
    rw [List.reverse_append, List.reverse_singleton, List.singleton_append]
    unfold Disk.makeAncestors
    dsimp only
    rw [List.reverse_reverse]
    rcases way.walk h hloc fun n hn => ⟨(above n hn).1.ne_empty, (above n hn).2⟩ with ⟨there, dirs⟩ | lost
    · obtain ⟨d', obtains, whole⟩ := (Made.self h there dirs).makeNamed hloc hnames short clear
      exact ⟨d', obtains.at_once _, whole⟩
    · obtain ⟨d₁, ancestors, made⟩ := ih above
      obtain ⟨d', obtains, whole⟩ := made.makeNamed hloc hnames short clear
      rw [makeNamed_lost (by simp [trimmed]) (by rwa [trimmed, List.dropLast_concat])]
      dsimp only
      rw [if_pos (by rfl), ancestors]
      dsimp only
      exact ⟨d', obtains.at_last, whole⟩

end Way

theorem makeDirectory_eq (text : d.pathFault? path = none) :
    d.makeDirectory path = d.makeNamed (d.start path) (Path.names path) := by
  unfold makeDirectory
  rw [text]

theorem IsTree.makeDirectory_there (h : d.IsTree) (text : d.pathFault? path = none)
    (there : d.Reaches (d.start path) (named path) q) :
    d.Obtains (d.hasDirectory path) (d.makeDirectory path) d := by
  have trimmed := trim_names path
  obtain ⟨fault, failed, found⟩ := h.makeNamed_there (h.start path)
    (by rw [trimmed]; exact fun _ hn => (isName_of_mem_named hn).ne_empty) (trimmed.symm ▸ there)
  rw [makeDirectory_eq text, failed]
  exact .kept found (h.hasDirectory_of_reaches text there)

namespace Way

/-- The last name of a path moves a walk, or it is a dot and the last one that moves it stands before. -/
theorem named_concat (e : moves (named path) = names ++ [name]) :
    (∃ front, named path = front ++ [name] ∧ moves front = names)
      ∨ ∃ front, named path = front ++ ["."] ∧ moves front = names ++ [name] := by
  rcases List.eq_nil_or_concat (named path) with none | ⟨front, x, hx⟩
  · rw [none] at e
    simp [moves] at e
  · rw [List.concat_eq_append] at hx
    have hne : x ≠ "" := (isName_of_mem_named (hx ▸ List.mem_append_right _ List.mem_cons_self)).ne_empty
    rw [hx, moves_append] at e
    by_cases hdot : x = "."
    · subst hdot
      exact Or.inr ⟨front, hx, by simpa [moves] using e⟩
    · have hx' : moves [x] = [x] := moves_eq_self (by simp [hne, hdot])
      rw [hx'] at e
      obtain ⟨hfront, hlast⟩ := List.append_inj' e rfl
      obtain rfl := List.singleton_inj.mp hlast
      exact Or.inl ⟨front, hx, hfront⟩

variable {way : d.Way (d.start path) names} {short : d.nameExceeds name = false}
  {clear : d.get? (along way.goal [name]) = none ∨ d.get? (along way.goal [name]) = some .directory}

/-- Making the directory at the end of a path when those before it have been made. -/
theorem Made.makeDirectory (made : way.Made d₁) (h : d.IsTree) (text : d.pathFault? path = none)
    (e : moves (named path) = names ++ [name])
    (last : (named path).getLast? = some "." → d.get? (way.extend name short clear).goal = some .directory) :
    ∃ d', d₁.Obtains (d₁.hasDirectory path) (d₁.makeDirectory path) d' ∧ (way.extend name short clear).Made d' := by
  have hstart : d₁.start path = d.start path := made.keeps.start path
  have text' := (made.keeps.pathFault? path).trans text
  have hm : name ∈ moves (named path) := by simp [e]
  rcases made.extend (h.start path) (isName_of_mem_moves_named hm) (of_mem_moves hm).2 short clear with
    whole | ⟨hproper, free, whole⟩
  · have there : d₁.Reaches (d₁.start path) (named path) (way.extend name short clear).goal := by
      rw [← made.tree.reaches_moves (made.tree.start path), e, hstart]
      exact whole.there
    exact ⟨d₁, made.tree.makeDirectory_there text' there, whole⟩
  · refine ⟨_, ?_, whole⟩
    rw [makeDirectory_eq text', hstart]
    rcases named_concat e with ⟨front, hfront, hmoves⟩ | ⟨front, hfront, -⟩
    · have there : d₁.Reaches (d.start path) front way.goal := by
        rw [← made.tree.reaches_moves (made.keeps.directory (h.start path)), hmoves]
        exact made.there
      have new := makeNamed_free ((trim_names path).trans hfront) there hproper
        ((made.keeps.nameExceeds name).trans short) free
      exact new ▸ .made _
    · have goal : (way.extend name short clear).goal = way.goal ++ [name] :=
        (along_append ..).trans (along_name way.goal hproper.ne_up)
      have hdir := made.keeps.directory (last (by simp [hfront]))
      rw [goal, free] at hdir
      cases hdir

/-- If something is missing on the way, it is missing for the directory at the end of the path. -/
theorem makeDirectory_lost (way : d.Way (d.start path) names) (h : d.IsTree) (text : d.pathFault? path = none)
    (short : d.nameExceeds name = false)
    (clear : d.get? (along way.goal [name]) = none ∨ d.get? (along way.goal [name]) = some .directory)
    (e : moves (named path) = names ++ [name])
    (lost : d.follow .look maxLinks (d.start path) (names ++ ["."]) = .error .noEntry) :
    d.makeDirectory path = .error .noEntry := by
  have hstart := h.start path
  have trimmed := trim_names path
  have moving : ∀ n ∈ names ++ [name], n ≠ "" ∧ n ≠ "." := fun n hn => of_mem_moves (e ▸ hn)
  have before (front : List String) (hmoves : d.follow .look maxLinks (d.start path) (moves front ++ ["."])
      = .error .noEntry) (x : String) (hx : named path = front ++ [x]) :
      d.makeDirectory path = .error .noEntry := by
    rw [h.follow_moves hstart] at hmoves
    rw [makeDirectory_eq text]
    refine makeNamed_lost (by simp [trimmed, hx]) ?_
    rwa [trimmed, hx, List.dropLast_concat]
  rcases named_concat e with ⟨front, hfront, hmoves⟩ | ⟨front, hfront, hmoves⟩
  · exact before front (hmoves ▸ lost) name hfront
  · refine before front ?_ "." hfront
    rw [hmoves]
    rcases (way.extend name short clear).walk h hstart moving with ⟨there, -⟩ | lost
    · obtain ⟨q, hq⟩ := h.reaches_front hstart there
      rw [Reaches, lost] at hq
      cases hq
    · exact lost

/-- The directories on the way to a path are made, and nothing else. A path that ends in a dot is only good for a
directory that is there. -/
theorem makeDirectories (way : d.Way loc names) (h : d.IsTree) (start : d.start path = loc)
    (e : moves (named path) = names) (text : path = "" ∨ d.pathFault? path = none)
    (last : (named path).getLast? = some "." → d.get? way.goal = some .directory) :
    ∃ d', d.makeDirectories path = (.ok (), d') ∧ way.Made d' := by
  subst start
  by_cases hempty : path = ""
  · subst hempty
    refine ⟨d, rfl, ?_⟩
    subst e
    rcases way.walk h (h.start "") nofun with ⟨there, dirs⟩ | lost
    · exact .self h there dirs
    · cases lost.symm.trans reaches_nil
  have text := text.resolve_left hempty
  have hstart := h.start path
  unfold Disk.makeDirectories
  rw [if_neg hempty]
  have above : ((Path.names path).filter fun name => name ≠ "" ∧ name ≠ ".").reverse.drop 1
      = (moves (named path)).dropLast.reverse := by
    rw [← moves_names, List.drop_one, List.tail_reverse]
    rfl
  rw [above, e]
  induction way using induction with
  | @bare names q there clear =>
    have there' : d.Reaches (d.start path) (named path) q := by rwa [← h.reaches_moves hstart, e]
    exact ⟨d, (h.makeDirectory_there text there').at_once _, .bare h hstart there clear⟩
  | @extend names way name short clear _ =>
    have moving : ∀ n ∈ names ++ [name], IsName n ∧ n ≠ "." := fun n hn =>
      ⟨isName_of_mem_moves_named (e ▸ hn), (of_mem_moves (e ▸ hn)).2⟩
    have before : ∀ n ∈ names, IsName n ∧ n ≠ "." := fun n hn => moving n (List.mem_append_left _ hn)
    rcases way.walk h hstart fun n hn => ⟨(before n hn).1.ne_empty, (before n hn).2⟩ with ⟨there, dirs⟩ | lost
    · obtain ⟨d', obtains, whole⟩ := (Made.self h there dirs).makeDirectory h text e last
      exact ⟨d', obtains.at_once _, whole⟩
    · -- something above is missing, so the way before the last name comes first
      obtain ⟨d₁, ancestors, made⟩ := way.makeAncestors h hstart before
      obtain ⟨d', obtains, whole⟩ := made.makeDirectory h text e last
      rw [way.makeDirectory_lost h text short clear e lost]
      dsimp only
      rw [if_pos (by rfl), List.dropLast_concat, ancestors]
      dsimp only
      exact ⟨d', obtains.at_last, whole⟩

/-- Part of a way is a way, on which nothing is made that is not made on the whole of it. -/
theorem exists_front (h : d.IsTree) (hloc : d.get? loc = some .directory) (way : d.Way loc names)
    (hfront : front <+: names) :
    ∃ part : d.Way loc front, ∀ l, part.made l = d.get? l ∨ part.made l = way.made l := by
  induction way using induction with
  | bare there clear =>
    obtain ⟨later, rfl⟩ := hfront
    obtain ⟨q, hq⟩ := h.reaches_front hloc there
    have hdir := h.directory_of_reaches hloc hq
    exact ⟨.bare hq (Or.inr hdir), fun l => Or.inl ((Made.bare h hloc hq (Or.inr hdir)).get? l).symm⟩
  | extend way name short clear ih =>
    rcases List.prefix_concat_iff.mp hfront with rfl | hfront
    · exact ⟨way.extend name short clear, fun l => Or.inr rfl⟩
    · obtain ⟨part, same⟩ := ih hfront
      refine ⟨part, fun l => ?_⟩
      rcases same l with e | e
      · exact Or.inl e
      · by_cases hl : l ∈ way.places
        · rw [e, way.made_of_mem hl, made_of_mem _ (mem_places_extend.mpr (Or.inl hl))]
          exact Or.inr rfl
        · rw [e, way.made_of_notMem hl]
          exact Or.inl rfl

/-- The first directories of a way alone. -/
theorem makeAncestors_front (way : d.Way loc names) (h : d.IsTree) (hloc : d.get? loc = some .directory)
    (hnames : ∀ name ∈ names, IsName name ∧ name ≠ ".") (hfront : front <+: names) :
    ∃ d', Disk.makeAncestors loc front.reverse d = (.ok (), d') ∧ d'.IsTree ∧ d.Keeps d'
      ∧ ∀ l, d'.get? l = d.get? l ∨ d'.get? l = way.made l := by
  obtain ⟨part, same⟩ := way.exists_front h hloc hfront
  obtain ⟨d', made, whole⟩ := part.makeAncestors h hloc fun name hn => hnames name (hfront.subset hn)
  refine ⟨d', made, whole.tree, whole.keeps, fun l => ?_⟩
  rw [whole.get?]
  exact same l

end Way

/-- The way to a new entry of a directory that is reached. -/
theorem IsTree.exists_way_child {base : String} (h : d.IsTree) (there : d.Reaches (d.start base) (named base) q)
    (hname : IsProper name) (short : d.nameExceeds name = false)
    (spot : d.get? (q ++ [name]) = none ∨ d.get? (q ++ [name]) = some .directory) :
    ∃ way : d.Way (d.start (child base name)) (moves (named (child base name))),
      ∀ l, way.made l = if l = q ++ [name] then some .directory else d.get? l := by
  have hstart := h.start base
  have hdir := h.directory_of_reaches hstart there
  have there' := (h.reaches_moves hstart).mpr there
  have down : along (Way.bare there' (Or.inr hdir)).goal [name] = q ++ [name] := along_name q hname.ne_up
  have moving : moves (named (child base name)) = moves (named base) ++ [name] := by
    rw [named_child base hname.toIsName, moves_append]
    exact congrArg _ (moves_eq_self (by simp [hname.ne_empty, hname.ne_dot]))
  rw [moving, start_congr (isAbsolute_child base hname.toIsName)]
  refine ⟨(Way.bare there' (Or.inr hdir)).extend name short (down ▸ spot), fun l => ?_⟩
  rw [Way.made_extend, down, (Way.Made.bare h hstart there' (Or.inr hdir)).get? l]

/-- In a directory that is reached one more is made, if there is nothing else under its name. -/
theorem IsTree.makeDirectories_child {base : String} (h : d.IsTree) (there : d.Reaches (d.start base) (named base) q)
    (hname : IsProper name) (short : d.nameExceeds name = false) (text : d.pathFault? (child base name) = none)
    (spot : d.get? (q ++ [name]) = none ∨ d.get? (q ++ [name]) = some .directory) :
    ∃ d', d.makeDirectories (child base name) = (.ok (), d') ∧ d'.IsTree ∧ d.Keeps d'
      ∧ ∀ l, d'.get? l = if l = q ++ [name] then some .directory else d.get? l := by
  obtain ⟨way, only⟩ := h.exists_way_child there hname short spot
  obtain ⟨d', made, whole⟩ := way.makeDirectories h rfl rfl (Or.inr text) fun dot => by
    rw [named_child base hname.toIsName, List.getLast?_concat] at dot
    exact absurd (Option.some.inj dot) hname.ne_dot
  exact ⟨d', made, whole.tree, whole.keeps, fun l => (whole.get? l).trans (only l)⟩

end ServingLifecycle.Disk
