import ServingLifecycle.Proofs.Disk.Tree
/-!
# Walks

A walk that arrived somewhere does so again when the disk has only grown. On a tree a walk ends at a node that is
no link, or in a directory where its last name is free. `names ++ ["."]` is the walk that wants a directory in
the end: any other names may follow such a walk, and the names in it that do not move it make no difference.
-/
namespace ServingLifecycle

namespace Stretch

/-- The stretch ended for another reason than that something is missing. -/
def isFirm : Stretch → Bool
  | vacant .. => false
  | blocked fault => !fault.isNotFound
  | _ => true

/-- Where a stretch of some names can end that began in a directory. -/
def Sits (d : Disk) (names : List String) : Stretch → Prop
  | arrived loc => ∃ node, d.get? loc = some node ∧ ∀ target, node ≠ .link target
  | vacant directory name => d.get? directory = some .directory ∧ d.get? (directory ++ [name]) = none
      ∧ name ∈ names ∧ name ≠ "" ∧ name ≠ "." ∧ name ≠ ".."
  | link directory target rest => d.get? directory = some .directory
      ∧ (∃ name, d.get? (directory ++ [name]) = some (.link target)) ∧ rest <:+ names
  | blocked _ => True

theorem Sits.cons {d : Disk} {names : List String} {s : Stretch} (h : s.Sits d names) (name : String) :
    s.Sits d (name :: names) := by
  cases s with
  | vacant directory last =>
    obtain ⟨hd, hn, hm, h⟩ := h
    exact ⟨hd, hn, List.mem_cons_of_mem _ hm, h⟩
  | link directory target rest =>
    obtain ⟨hd, hn, hr⟩ := h
    exact ⟨hd, hn, hr.trans (List.suffix_cons _ _)⟩
  | _ => exact h

/-- Where a stretch can end that wants a directory in the end. -/
def Enters (d : Disk) : Stretch → Prop
  | arrived loc => d.get? loc = some .directory
  | vacant .. => False
  | link _ _ rest => ∃ front, rest = front ++ ["."]
  | blocked _ => True

/-- The same stretch to a directory, without the names that do not move it. -/
def thinned : Stretch → Stretch
  | link directory target rest => link directory target (Path.moves rest ++ ["."])
  | s => s

/-- How a stretch to a directory goes on along further names. -/
def onward (d : Disk) (purpose : WalkPurpose) (back : List String) : Stretch → Stretch
  | arrived loc => d.stretch purpose loc back
  | link directory target rest => link directory target (rest.dropLast ++ back)
  | s => s

end Stretch

namespace Disk

/-- A walk ended for another reason than that something is missing. -/
def isSettled : Except SystemFault Arrival → Bool
  | .ok (.at _) => true
  | .ok (.vacant _ _) => false
  | .error fault => !fault.isNotFound

variable {d d' : Disk} {purpose : WalkPurpose} {loc l q dir : Location} {name : String} {node : Node}
  {names front back rest : List String} {n m : Nat}

theorem stretch_skip (h : name = "" ∨ name = ".") :
    d.stretch purpose loc (name :: rest) = d.stretch purpose loc rest := by
  rw [stretch, if_pos h]

theorem stretch_up : d.stretch purpose loc (".." :: rest) = d.stretch purpose loc.dropLast rest := by
  rw [stretch, if_neg (by decide), if_pos rfl]

/-- One name of a walk that is a name of an entry. -/
theorem stretch_cons (hname : ¬(name = "" ∨ name = ".")) (hup : ¬name = "..")
    (hfile : ¬(purpose = .write ∧ rest = [""])) :
    d.stretch purpose loc (name :: rest) =
      if d.nameExceeds name then .blocked .nameTooLong
      else
        match d.get? (loc ++ [name]) with
        | none => if rest = [] then .vacant loc name else .blocked .noEntry
        | some .directory => d.stretch purpose (loc ++ [name]) rest
        | some (.file _) => if rest = [] then .arrived (loc ++ [name]) else .blocked .notDirectory
        | some (.link target) => .link loc target rest := by
  rewrite [stretch, if_neg hname, if_neg hup, if_neg hfile]
  rfl

theorem follow_arrived (h : d.stretch purpose loc names = .arrived l) :
    d.follow purpose n loc names = .ok (.at l) := by
  cases n <;> rw [follow, h]

theorem follow_vacant (h : d.stretch purpose loc names = .vacant dir name) :
    d.follow purpose n loc names = .ok (.vacant dir name) := by
  cases n <;> rw [follow, h]

theorem follow_blocked {fault : SystemFault} (h : d.stretch purpose loc names = .blocked fault) :
    d.follow purpose n loc names = .error fault := by
  cases n <;> rw [follow, h]

theorem follow_link {target : String} (h : d.stretch purpose loc names = .link dir target rest) :
    d.follow purpose (n + 1) loc names =
      d.follow purpose n (if Path.isAbsolute target then [] else dir) (Path.names target ++ rest) := by
  rw [follow, h]

theorem follow_zero_link {target : String} (h : d.stretch purpose loc names = .link dir target rest) :
    d.follow purpose 0 loc names = .error .tooManyLinks := by
  rw [follow, h]

namespace Keeps

theorem stretch (h : d.Keeps d') (firm : (d.stretch purpose loc names).isFirm = true) :
    d'.stretch purpose loc names = d.stretch purpose loc names := by
  fun_induction d.stretch purpose loc names with
  | case1 => rfl
  | case2 loc name rest skip ih => rw [stretch_skip skip, ih firm]
  | case3 loc rest _ ih => rw [stretch_up, ih firm]
  | case4 loc name rest hname hup hfile => rw [Disk.stretch, if_neg hname, if_neg hup, if_pos hfile]
  | case5 loc name rest hname hup hfile hlong =>
    rw [stretch_cons hname hup hfile, h.nameExceeds, if_pos hlong]
  | case8 loc name rest hname hup hfile hlong hd ih =>
    rw [stretch_cons hname hup hfile, h.nameExceeds, if_neg hlong, h.directory hd, ← ih firm]
  | case9 loc name hname hup hlong content hd hfile =>
    obtain ⟨content', hd'⟩ := h.file hd
    rw [stretch_cons hname hup hfile, h.nameExceeds, if_neg hlong, hd']
    rfl
  | case10 loc name rest hname hup hfile hlong content hd hrest =>
    obtain ⟨content', hd'⟩ := h.file hd
    rw [stretch_cons hname hup hfile, h.nameExceeds, if_neg hlong, hd']
    exact if_neg hrest
  | case11 loc name rest hname hup hfile hlong target hd =>
    rw [stretch_cons hname hup hfile, h.nameExceeds, if_neg hlong, h.link hd]
  | _ => cases firm

/-- Once the free place at the end of a walk is taken, the walk leads there. -/
theorem stretch_filled (h : d.Keeps d') (free : d.stretch purpose loc names = .vacant dir name)
    (taken : d'.get? (dir ++ [name]) = some node) (hl : ∀ target, node ≠ .link target) :
    d'.stretch purpose loc names = .arrived (dir ++ [name]) := by
  fun_induction d.stretch purpose loc names with
  | case2 loc _ rest skip ih => rw [stretch_skip skip, ih free]
  | case3 loc rest _ ih => rw [stretch_up, ih free]
  | case6 loc _ hname hup hlong hd hfile =>
    cases free
    rw [stretch_cons hname hup hfile, h.nameExceeds, if_neg hlong, taken]
    cases node with
    | directory => rfl
    | file content => rfl
    | link target => exact absurd rfl (hl target)
  | case8 loc _ rest hname hup hfile hlong hd ih =>
    rw [stretch_cons hname hup hfile, h.nameExceeds, if_neg hlong, h.directory hd, ← ih free]
  | _ => cases free

theorem follow_settled (h : d.Keeps d') (settled : isSettled (d.follow purpose n loc names) = true) :
    d'.follow purpose n loc names = d.follow purpose n loc names := by
  fun_induction d.follow purpose n loc names with
  | case1 loc names a hs => exact follow_arrived ((h.stretch (by rw [hs]; rfl)).trans hs)
  | case3 loc names dir target rest hs => exact follow_zero_link ((h.stretch (by rw [hs]; rfl)).trans hs)
  | case4 loc names fault hs => exact follow_blocked ((h.stretch (by rw [hs]; exact settled)).trans hs)
  | case5 links loc names a hs => exact follow_arrived ((h.stretch (by rw [hs]; rfl)).trans hs)
  | case7 links loc names dir target rest hs ih =>
    rw [follow_link ((h.stretch (by rw [hs]; rfl)).trans hs), ih settled]
  | case8 links loc names fault hs => exact follow_blocked ((h.stretch (by rw [hs]; exact settled)).trans hs)
  | _ => cases settled

theorem follow (h : d.Keeps d') (there : d.follow purpose n loc names = .ok (.at l)) :
    d'.follow purpose n loc names = .ok (.at l) := by
  rw [h.follow_settled (by rw [there]; rfl), there]

theorem follow_filled (h : d.Keeps d') (free : d.follow purpose n loc names = .ok (.vacant dir name))
    (taken : d'.get? (dir ++ [name]) = some node) (hl : ∀ target, node ≠ .link target) :
    d'.follow purpose n loc names = .ok (.at (dir ++ [name])) := by
  fun_induction d.follow purpose n loc names with
  | case2 loc names a b hs => cases free; exact follow_arrived (h.stretch_filled hs taken hl)
  | case6 links loc names a b hs => cases free; exact follow_arrived (h.stretch_filled hs taken hl)
  | case7 links loc names dir target rest hs ih =>
    rw [follow_link ((h.stretch (by rw [hs]; rfl)).trans hs), ih free]
  | _ => cases free

end Keeps

namespace IsTree

theorem sits (h : d.IsTree) (hloc : d.get? loc = some .directory) {s : Stretch}
    (hs : d.stretch purpose loc names = s) : s.Sits d names := by
  subst hs
  fun_induction d.stretch purpose loc names with
  | case1 loc => exact ⟨_, hloc, nofun⟩
  | case2 loc name rest skip ih => exact (ih hloc).cons name
  | case3 loc rest _ ih => exact (ih (h.dropLast hloc)).cons ".."
  | case6 loc name hname hup hlong hd hfile =>
    exact ⟨hloc, hd, List.mem_cons_self, fun e => hname (Or.inl e), fun e => hname (Or.inr e), hup⟩
  | case8 loc name rest hname hup hfile hlong hd ih => exact (ih hd).cons name
  | case9 loc name hname hup hlong content hd hfile => exact ⟨_, hd, nofun⟩
  | case11 loc name rest hname hup hfile hlong target hd => exact ⟨hloc, ⟨name, hd⟩, List.suffix_cons _ _⟩
  | _ => trivial

/-- The directory that the target of a link starts from. -/
theorem linkStart (hdir : d.get? dir = some .directory) (target : String) :
    d.get? (if Path.isAbsolute target then [] else dir) = some .directory := by
  split
  · exact get?_nil d
  · exact hdir

theorem follow_at (h : d.IsTree) (hloc : d.get? loc = some .directory)
    (there : d.follow purpose n loc names = .ok (.at l)) :
    ∃ node, d.get? l = some node ∧ ∀ target, node ≠ .link target := by
  fun_induction d.follow purpose n loc names with
  | case1 loc names a hs =>
    cases there
    exact h.sits hloc hs
  | case5 links loc names a hs =>
    cases there
    exact h.sits hloc hs
  | case7 links loc names dir target rest hs ih =>
    exact ih (linkStart (h.sits hloc hs).1 target) there
  | _ => cases there

theorem follow_vacant (h : d.IsTree) (hloc : d.get? loc = some .directory)
    (hnames : ∀ name ∈ names, '/' ∉ name.toList)
    (free : d.follow purpose n loc names = .ok (.vacant dir name)) :
    d.get? dir = some .directory ∧ d.get? (dir ++ [name]) = none ∧ Path.IsProper name := by
  have ended {loc : Location} {names : List String} (hloc : d.get? loc = some .directory)
      (hnames : ∀ name ∈ names, '/' ∉ name.toList) (hs : d.stretch purpose loc names = .vacant dir name) :
      d.get? dir = some .directory ∧ d.get? (dir ++ [name]) = none ∧ Path.IsProper name := by
    obtain ⟨hd, hn, hm, h1, h2, h3⟩ := h.sits hloc hs
    exact ⟨hd, hn, ⟨h1, hnames _ hm⟩, h2, h3⟩
  fun_induction d.follow purpose n loc names with
  | case2 loc names a b hs =>
    cases free
    exact ended hloc hnames hs
  | case6 links loc names a b hs =>
    cases free
    exact ended hloc hnames hs
  | case7 links loc names dir target rest hs ih =>
    obtain ⟨hdir, -, hrest⟩ := h.sits hloc hs
    refine ih (linkStart hdir target) (fun name hm => ?_) free
    rcases List.mem_append.mp hm with hm | hm
    · exact Path.of_mem_names hm
    · exact hnames name (hrest.subset hm)
  | _ => cases free

end IsTree

/-! ### Walks to directories -/

theorem append_ne_slash (front : List String) (hne : back ≠ []) (hfile : ¬(purpose = .write ∧ back = [""])) :
    ¬(purpose = .write ∧ front ++ back = [""]) := by
  rintro ⟨hp, e⟩
  rcases List.append_eq_singleton_iff.mp e with ⟨-, e⟩ | ⟨-, e⟩
  · exact hfile ⟨hp, e⟩
  · exact hne e

theorem not_singleton (front : List String) : ¬(purpose = .write ∧ front ++ ["."] = [""]) :=
  append_ne_slash front (by simp) (by simp)

theorem stretch_append (hne : back ≠ []) (hfile : ¬(purpose = .write ∧ back = [""])) :
    d.stretch purpose loc (front ++ back) = (d.stretch purpose loc (front ++ ["."])).onward d purpose back := by
  induction front generalizing loc with
  | nil => rfl
  | cons name front ih =>
    rw [List.cons_append, List.cons_append]
    by_cases skip : name = "" ∨ name = "."
    · rw [stretch_skip skip, stretch_skip skip, ih]
    · by_cases hup : name = ".."
      · subst hup
        rw [stretch_up, stretch_up, ih]
      · rw [stretch_cons skip hup (append_ne_slash front hne hfile), stretch_cons skip hup (not_singleton front)]
        split
        · rfl
        · cases d.get? (loc ++ [name]) with
          | none => simp [hne, Stretch.onward]
          | some node =>
            cases node with
            | directory => exact ih
            | file content => simp [hne, Stretch.onward]
            | link target => simp [Stretch.onward]

theorem stretch_moves :
    d.stretch purpose loc (Path.moves front ++ ["."]) = (d.stretch purpose loc (front ++ ["."])).thinned := by
  induction front generalizing loc with
  | nil => rfl
  | cons name front ih =>
    by_cases skip : name = "" ∨ name = "."
    · rw [List.cons_append, stretch_skip skip, ← ih]
      rcases skip with rfl | rfl <;> rfl
    · have hm : Path.moves (name :: front) = name :: Path.moves front := by
        unfold Path.moves
        rw [List.filter_cons_of_pos (by simpa using skip)]
      rw [hm, List.cons_append, List.cons_append]
      by_cases hup : name = ".."
      · subst hup
        rw [stretch_up, stretch_up, ih]
      · rw [stretch_cons skip hup (not_singleton _), stretch_cons skip hup (not_singleton _)]
        split
        · rfl
        · cases d.get? (loc ++ [name]) with
          | none => simp [Stretch.thinned]
          | some node =>
            cases node with
            | directory => exact ih
            | file content => simp [Stretch.thinned]
            | link target => simp [Stretch.thinned, Path.moves]

theorem follow_congr {loc' : Location} {names' : List String}
    (h : d.stretch purpose loc names = d.stretch purpose loc' names') :
    d.follow purpose n loc names = d.follow purpose n loc' names' := by
  cases n <;> rw [follow, follow, h]

namespace IsTree

theorem enters (h : d.IsTree) (hloc : d.get? loc = some .directory) {s : Stretch}
    (hs : d.stretch purpose loc (front ++ ["."]) = s) : s.Enters d := by
  subst hs
  induction front generalizing loc with
  | nil => exact hloc
  | cons name front ih =>
    rw [List.cons_append]
    by_cases skip : name = "" ∨ name = "."
    · rw [stretch_skip skip]
      exact ih hloc
    · by_cases hup : name = ".."
      · subst hup
        rw [stretch_up]
        exact ih (h.dropLast hloc)
      · rw [stretch_cons skip hup (not_singleton _)]
        split
        · trivial
        · cases hd : d.get? (loc ++ [name]) with
          | none => simp [Stretch.Enters]
          | some node =>
            cases node with
            | directory => exact ih hd
            | file content => simp [Stretch.Enters]
            | link target => exact ⟨front, rfl⟩

/-- A walk that wants a directory ends in one. -/
theorem follow_enters (h : d.IsTree) (hloc : d.get? loc = some .directory) {arrival : Arrival}
    (there : d.follow purpose n loc (front ++ ["."]) = .ok arrival) :
    ∃ q, arrival = .at q ∧ d.get? q = some .directory := by
  generalize e : front ++ ["."] = names at there
  fun_induction d.follow purpose n loc names generalizing front with
  | case1 loc names a hs =>
    cases e
    cases there
    exact ⟨a, rfl, h.enters hloc hs⟩
  | case5 links loc names a hs =>
    cases e
    cases there
    exact ⟨a, rfl, h.enters hloc hs⟩
  | case2 loc names a b hs =>
    cases e
    exact (h.enters hloc hs).elim
  | case6 links loc names a b hs =>
    cases e
    exact (h.enters hloc hs).elim
  | case7 links loc names dir target rest hs ih =>
    cases e
    obtain ⟨front', rfl⟩ := h.enters hloc hs
    exact ih (linkStart (h.sits hloc hs).1 target) (List.append_assoc ..) there
  | _ => cases there

/-- After a walk to a directory any other names are walked from there. -/
theorem follow_append (h : d.IsTree) (hloc : d.get? loc = some .directory)
    (there : d.follow purpose n loc (front ++ ["."]) = .ok (.at q)) (hne : back ≠ [])
    (hfile : ¬(purpose = .write ∧ back = [""])) :
    ∃ m ≤ n, d.follow purpose n loc (front ++ back) = d.follow purpose m q back := by
  generalize e : front ++ ["."] = names at there
  fun_induction d.follow purpose n loc names generalizing front with
  | case1 loc names a hs =>
    cases e
    cases there
    refine ⟨0, Nat.le_refl 0, follow_congr ?_⟩
    rw [stretch_append hne hfile, hs]
    rfl
  | case5 links loc names a hs =>
    cases e
    cases there
    refine ⟨links + 1, Nat.le_refl _, follow_congr ?_⟩
    rw [stretch_append hne hfile, hs]
    rfl
  | case7 links loc names dir target rest hs ih =>
    cases e
    obtain ⟨front', rfl⟩ := h.enters hloc hs
    obtain ⟨m, hm, e⟩ := ih (linkStart (h.sits hloc hs).1 target) (List.append_assoc ..) there
    refine ⟨m, Nat.le_succ_of_le hm, ?_⟩
    have hlink : d.stretch purpose loc (front ++ back) = .link dir target (front' ++ back) := by
      rw [stretch_append hne hfile, hs]
      simp [Stretch.onward]
    rw [follow_link hlink, ← List.append_assoc, e]
  | _ => cases there

/-- A stretch along further names comes past where the stretch to a directory ends, or into the same link. -/
theorem stretch_front (h : d.IsTree) (hloc : d.get? loc = some .directory) (front : List String) (hne : back ≠ [])
    (hfile : ¬(purpose = .write ∧ back = [""])) : (∃ q, d.stretch purpose loc (front ++ ["."]) = .arrived q)
      ∨ (∃ fault, d.stretch purpose loc (front ++ back) = .blocked fault)
      ∨ ∃ dir target front', d.stretch purpose loc (front ++ ["."]) = .link dir target (front' ++ ["."])
        ∧ d.stretch purpose loc (front ++ back) = .link dir target (front' ++ back) := by
  have whole : d.stretch purpose loc (front ++ back) = _ := stretch_append hne hfile
  cases hs : d.stretch purpose loc (front ++ ["."]) with
  | arrived q => exact Or.inl ⟨q, rfl⟩
  | vacant dir name => exact (h.enters hloc hs).elim
  | blocked fault =>
    rw [hs] at whole
    exact Or.inr (Or.inl ⟨fault, whole⟩)
  | link dir target rest =>
    obtain ⟨front', rfl⟩ := h.enters hloc hs
    rw [hs, Stretch.onward, List.dropLast_concat] at whole
    exact Or.inr (Or.inr ⟨dir, target, front', rfl, whole⟩)

/-- A walk that arrived somewhere found a directory wherever it passed. -/
theorem follow_front (h : d.IsTree) (hloc : d.get? loc = some .directory) (hne : back ≠ [])
    (hfile : ¬(purpose = .write ∧ back = [""])) (there : d.follow purpose n loc (front ++ back) = .ok (.at l)) :
    ∃ q, d.follow purpose n loc (front ++ ["."]) = .ok (.at q) := by
  induction n generalizing loc front with
  | zero =>
    rcases h.stretch_front hloc front hne hfile with ⟨q, hs⟩ | ⟨fault, whole⟩ | ⟨dir, target, front', -, whole⟩
    · exact ⟨q, follow_arrived hs⟩
    · rw [follow_blocked whole] at there
      cases there
    · rw [follow_zero_link whole] at there
      cases there
  | succ n ih =>
    rcases h.stretch_front hloc front hne hfile with ⟨q, hs⟩ | ⟨fault, whole⟩ | ⟨dir, target, front', hs, whole⟩
    · exact ⟨q, follow_arrived hs⟩
    · rw [follow_blocked whole] at there
      cases there
    · rw [follow_link whole, ← List.append_assoc] at there
      obtain ⟨q, hq⟩ := ih (linkStart (h.sits hloc hs).1 target) there
      exact ⟨q, by rw [follow_link hs, ← List.append_assoc, hq]⟩

/-- Names that do not move a walk make no difference to one that wants a directory. -/
theorem follow_moves (h : d.IsTree) (hloc : d.get? loc = some .directory) :
    d.follow purpose n loc (Path.moves front ++ ["."]) = d.follow purpose n loc (front ++ ["."]) := by
  induction n generalizing loc front with
  | zero =>
    have hm : d.stretch purpose loc (Path.moves front ++ ["."]) = _ := stretch_moves
    cases hs : d.stretch purpose loc (front ++ ["."]) with
    | link dir target rest =>
      rw [hs] at hm
      rw [follow_zero_link hs, follow_zero_link hm]
    | _ =>
      rw [hs] at hm
      exact follow_congr (hm.trans hs.symm)
  | succ n ih =>
    have hm : d.stretch purpose loc (Path.moves front ++ ["."]) = _ := stretch_moves
    cases hs : d.stretch purpose loc (front ++ ["."]) with
    | link dir target rest =>
      obtain ⟨front', rfl⟩ := h.enters hloc hs
      have hm : d.stretch purpose loc (Path.moves front ++ ["."]) = .link dir target (Path.moves front' ++ ["."]) := by
        rw [hm, hs]
        simp [Stretch.thinned, Path.moves]
      have hdir := linkStart (h.sits hloc hs).1 target
      have whole : d.follow _ _ _ (Path.moves (Path.names target ++ front') ++ _) = _ := ih hdir
      have thin : d.follow _ _ _ (Path.moves (Path.names target ++ Path.moves front') ++ _) = _ := ih hdir
      rw [Path.moves_append] at whole
      rw [Path.moves_append, Path.moves_moves] at thin
      rw [follow_link hs, follow_link hm, ← List.append_assoc, ← List.append_assoc, ← whole, thin]
    | _ =>
      rw [hs] at hm
      exact follow_congr (hm.trans hs.symm)

end IsTree

theorem stretch_dot (hs : d.stretch .look loc names = .arrived l) (hdir : d.get? l = some .directory) :
    d.stretch .look loc (names ++ ["."]) = .arrived l := by
  have look {rest : List String} : ¬(WalkPurpose.look = .write ∧ rest = [""]) := by simp
  fun_induction d.stretch .look loc names with
  | case1 => exact hs
  | case2 loc name rest skip ih => rw [List.cons_append, stretch_skip skip, ih hs]
  | case3 loc rest _ ih => rw [List.cons_append, stretch_up, ih hs]
  | case8 loc name rest hname hup _ hlong hd ih =>
    rw [List.cons_append, stretch_cons hname hup look, if_neg hlong, hd, ← ih hs]
  | case9 loc name hname hup hlong content hd _ =>
    cases hs
    rw [hd] at hdir
    cases hdir
  | _ => cases hs

theorem stretch_link_dot {target : String} (hs : d.stretch .look loc names = .link dir target rest) :
    d.stretch .look loc (names ++ ["."]) = .link dir target (rest ++ ["."]) := by
  have look {rest : List String} : ¬(WalkPurpose.look = .write ∧ rest = [""]) := by simp
  fun_induction d.stretch .look loc names with
  | case2 loc name rest skip ih => rw [List.cons_append, stretch_skip skip, ih hs]
  | case3 loc rest _ ih => rw [List.cons_append, stretch_up, ih hs]
  | case8 loc name rest hname hup _ hlong hd ih =>
    rw [List.cons_append, stretch_cons hname hup look, if_neg hlong, hd, ← ih hs]
  | case11 loc name rest hname hup _ hlong target hd =>
    cases hs
    rw [List.cons_append, stretch_cons hname hup look, if_neg hlong, hd]
  | _ => cases hs

/-- A walk that led to a directory may want one. -/
theorem follow_dot (there : d.follow .look n loc names = .ok (.at l)) (hdir : d.get? l = some .directory) :
    d.follow .look n loc (names ++ ["."]) = .ok (.at l) := by
  fun_induction d.follow .look n loc names with
  | case1 loc names a hs => cases there; exact follow_arrived (stretch_dot hs hdir)
  | case5 links loc names a hs => cases there; exact follow_arrived (stretch_dot hs hdir)
  | case7 links loc names dir target rest hs ih =>
    rw [follow_link (stretch_link_dot hs), ← List.append_assoc, ih there]
  | _ => cases there

theorem stretch_write (d : Disk) (loc : Location) (names : List String) : d.stretch .write loc names = .blocked .isDirectory
    ∨ d.stretch .write loc names = d.stretch .look loc names := by
  have look {rest : List String} : ¬(WalkPurpose.look = .write ∧ rest = [""]) := by simp
  fun_induction d.stretch .write loc names with
  | case1 => exact Or.inr rfl
  | case2 loc name rest skip ih => rwa [stretch_skip skip]
  | case3 loc rest _ ih => rwa [stretch_up]
  | case4 => exact Or.inl rfl
  | case5 loc name rest hname hup _ hlong => exact Or.inr (by rw [stretch_cons hname hup look, if_pos hlong])
  | case6 loc name hname hup hlong hd _ =>
    exact Or.inr (by rw [stretch_cons hname hup look, if_neg hlong, hd]; rfl)
  | case7 loc name rest hname hup _ hlong hd hrest =>
    exact Or.inr (by rw [stretch_cons hname hup look, if_neg hlong, hd]; exact (if_neg hrest).symm)
  | case8 loc name rest hname hup _ hlong hd ih => rwa [stretch_cons hname hup look, if_neg hlong, hd]
  | case9 loc name hname hup hlong content hd _ =>
    exact Or.inr (by rw [stretch_cons hname hup look, if_neg hlong, hd]; rfl)
  | case10 loc name rest hname hup _ hlong content hd hrest =>
    exact Or.inr (by rw [stretch_cons hname hup look, if_neg hlong, hd]; exact (if_neg hrest).symm)
  | case11 loc name rest hname hup _ hlong target hd =>
    exact Or.inr (by rw [stretch_cons hname hup look, if_neg hlong, hd])

/-- To write under a name with a slash after it is refused. Apart from that writing takes the walk that looking
takes. -/
theorem follow_write (d : Disk) (n : Nat) (loc : Location) (names : List String) :
    d.follow .write n loc names = .error .isDirectory
    ∨ d.follow .write n loc names = d.follow .look n loc names := by
  induction n generalizing loc names with
  | zero =>
    rcases stretch_write d loc names with hs | hs
    · exact Or.inl (follow_blocked hs)
    · right
      rw [follow, follow, hs]
  | succ n ih =>
    rcases stretch_write d loc names with hs | hs
    · exact Or.inl (follow_blocked hs)
    · rw [follow, follow, hs]
      cases d.stretch .look loc names with
      | link dir target rest => exact ih _ _
      | _ => exact Or.inr rfl

theorem stretch_look_blocked {fault : SystemFault} (hs : d.stretch .look loc names = .blocked fault) :
    fault = .noEntry ∨ fault = .notDirectory ∨ fault = .nameTooLong := by
  fun_induction d.stretch .look loc names with
  | case2 loc name rest skip ih => exact ih hs
  | case3 loc rest _ ih => exact ih hs
  | case8 loc name rest hname hup hfile hlong hd ih => exact ih hs
  | case4 loc name rest hname hup hfile => simp at hfile
  | _ => simp_all

/-- What can be in the way of looking. -/
theorem follow_look_error {fault : SystemFault} (failed : d.follow .look n loc names = .error fault) :
    fault = .noEntry ∨ fault = .notDirectory ∨ fault = .nameTooLong ∨ fault = .tooManyLinks := by
  have blocked {loc : Location} {names : List String} (hs : d.stretch .look loc names = .blocked fault) :
      fault = .noEntry ∨ fault = .notDirectory ∨ fault = .nameTooLong ∨ fault = .tooManyLinks := by
    rcases stretch_look_blocked hs with h | h | h <;> simp [h]
  fun_induction d.follow .look n loc names with
  | case3 =>
    cases failed
    simp
  | case4 loc names fault' hs =>
    cases failed
    exact blocked hs
  | case7 links loc names dir target rest hs ih => exact ih failed
  | case8 links loc names fault' hs =>
    cases failed
    exact blocked hs
  | _ => cases failed

end Disk
end ServingLifecycle
