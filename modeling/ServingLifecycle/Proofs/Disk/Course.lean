import Mathlib.Data.List.Induction
import ServingLifecycle.Proofs.Disk.Making
/-!
# Straight courses

Where no link is in the way, names lead to the place that they spell out: each goes down and `..` goes up. A walk along
them comes there, or to something that is missing, or to a name that is too long.
-/
namespace ServingLifecycle.Disk
open ServingLifecycle.Path

variable {d : Disk} {loc l q : Location} {name path base : String} {names front back : List String} {node : Node}
  {n : Nat}

/-! ### Walks that need no directory in the end -/

/-- A stretch that wants a directory is blocked, or it goes as it does when it wants none. -/
theorem stretch_undot (d : Disk) (loc : Location) (names : List String) :
    (∃ fault, d.stretch .look loc (names ++ ["."]) = .blocked fault)
      ∨ (∃ l, d.stretch .look loc (names ++ ["."]) = .arrived l ∧ d.stretch .look loc names = .arrived l)
      ∨ ∃ dir target rest, d.stretch .look loc (names ++ ["."]) = .link dir target (rest ++ ["."])
        ∧ d.stretch .look loc names = .link dir target rest := by
  have look {rest : List String} : ¬(WalkPurpose.look = .write ∧ rest = [""]) := by simp
  induction names generalizing loc with
  | nil => exact Or.inr (Or.inl ⟨loc, rfl, rfl⟩)
  | cons name rest ih =>
    rw [List.cons_append]
    by_cases skip : name = "" ∨ name = "."
    · rw [stretch_skip skip, stretch_skip skip]
      exact ih loc
    · by_cases hup : name = ".."
      · subst hup
        rw [stretch_up, stretch_up]
        exact ih loc.dropLast
      · rw [stretch_cons skip hup look, stretch_cons skip hup look]
        by_cases hlong : d.nameExceeds name = true
        · rw [if_pos hlong]
          exact Or.inl ⟨_, rfl⟩
        · rw [if_neg hlong, if_neg hlong]
          cases hd : d.get? (loc ++ [name]) with
          | none => exact Or.inl ⟨_, if_neg (by simp)⟩
          | some node =>
            cases node with
            | directory => exact ih (loc ++ [name])
            | file content => exact Or.inl ⟨_, if_neg (by simp)⟩
            | link target => exact Or.inr (Or.inr ⟨_, target, rest, rfl, rfl⟩)

/-- A walk that wants a directory leads to the same place when it does not. -/
theorem follow_undot (there : d.follow .look n loc (names ++ ["."]) = .ok (.at l)) :
    d.follow .look n loc names = .ok (.at l) := by
  induction n generalizing loc names with
  | zero =>
    rcases stretch_undot d loc names with ⟨fault, blocked⟩ | ⟨q, wanted, arrived⟩ | ⟨dir, target, rest, wanted, -⟩
    · rw [follow_blocked blocked] at there
      cases there
    · rw [follow_arrived wanted] at there
      rw [follow_arrived arrived, there]
    · rw [follow_zero_link wanted] at there
      cases there
  | succ n ih =>
    rcases stretch_undot d loc names with ⟨fault, blocked⟩ | ⟨q, wanted, arrived⟩ | ⟨dir, target, rest, wanted, onLink⟩
    · rw [follow_blocked blocked] at there
      cases there
    · rw [follow_arrived wanted] at there
      rw [follow_arrived arrived, there]
    · rw [follow_link wanted, ← List.append_assoc] at there
      rw [follow_link onLink, ih there]

/-- A path leads to the directory that the walk of it reaches. -/
theorem IsTree.leadsTo_of_reaches (h : d.IsTree) (there : d.Reaches (d.start path) (named path) q) :
    d.LeadsTo path q := by
  unfold LeadsTo walked
  rcases names_eq path with e | e
  · rw [e]
    exact follow_undot there
  · obtain ⟨m, -, onward⟩ := h.follow_append (h.start path) there (List.cons_ne_nil "" []) (by simp)
    rw [e, onward]
    exact follow_arrived (stretch_skip (Or.inl rfl))

theorem IsTree.hasDirectory_of_reaches (h : d.IsTree) (text : d.pathFault? path = none)
    (there : d.Reaches (d.start path) (named path) q) : d.hasDirectory path = true :=
  hasDirectory_iff.mpr (look_eq_ok_iff.mpr
    ⟨q, locate_eq_ok_iff.mpr ⟨text, h.leadsTo_of_reaches there⟩, h.directory_of_reaches (h.start path) there⟩)

/-! ### Where names lead -/

/-- The place that names lead to when there are no links: `..` goes up and any other name goes down. -/
def along (loc : Location) (names : List String) : Location :=
  names.foldl (fun l name => if name = ".." then l.dropLast else l ++ [name]) loc

theorem along_append (loc : Location) (names names' : List String) :
    along loc (names ++ names') = along (along loc names) names' :=
  List.foldl_append ..

theorem along_name (loc : Location) (hup : name ≠ "..") : along loc [name] = loc ++ [name] :=
  if_neg hup

theorem along_eq_append (loc : Location) (h : ∀ name ∈ names, name ≠ "..") : along loc names = loc ++ names := by
  induction names generalizing loc with
  | nil => exact (List.append_nil loc).symm
  | cons name names ih =>
    obtain ⟨hup, hnames⟩ := List.forall_mem_cons.mp h
    rw [← List.singleton_append, along_append, along_name loc hup, ih (loc ++ [name]) hnames, List.append_assoc]

/-- How a walk along names to a directory can end. -/
inductive Course (d : Disk) (loc : Location) (names : List String) : Prop
  | passes (arrived : d.stretch .look loc (names ++ ["."]) = .arrived (along loc names))
      (dirs : ∀ passed, passed <+: names → d.get? (along loc passed) = some .directory)
  | missing (blocked : d.stretch .look loc (names ++ ["."]) = .blocked .noEntry) (passed : List String)
      (on : passed <+: names) (free : d.get? (along loc passed) = none)
  | long (fault : SystemFault) (blocked : d.stretch .look loc (names ++ ["."]) = .blocked fault) (name : String)
      (mem : name ∈ names) (long : d.nameExceeds name = true)

/-- The first name is walked, and then the others from where it leads. -/
theorem Course.cons (next : d.Course (along loc [name]) names) (hloc : d.get? loc = some .directory)
    (step : d.stretch .look loc (name :: names ++ ["."]) = d.stretch .look (along loc [name]) (names ++ ["."])) :
    d.Course loc (name :: names) := by
  cases next with
  | passes arrived dirs =>
    refine .passes (step.trans arrived) fun passed hp => ?_
    rcases List.prefix_cons_iff.mp hp with rfl | ⟨later, rfl, hlater⟩
    · exact hloc
    · exact dirs later hlater
  | missing blocked passed on free =>
    exact .missing (step.trans blocked) (name :: passed) (List.cons_prefix_cons.mpr ⟨rfl, on⟩) free
  | long fault blocked name' mem long =>
    exact .long fault (step.trans blocked) name' (List.mem_cons_of_mem name mem) long

/-- Over free places and directories a walk comes to the end, or to something missing or a name that is too long. -/
theorem IsTree.course (h : d.IsTree) (hloc : d.get? loc = some .directory)
    (hnames : ∀ name ∈ names, name ≠ "" ∧ name ≠ ".") (clear : ∀ passed, passed <+: names →
      d.get? (along loc passed) = none ∨ d.get? (along loc passed) = some .directory) : d.Course loc names := by
  induction names generalizing loc with
  | nil =>
    refine .passes rfl fun passed hp => ?_
    rw [List.prefix_nil.mp hp]
    exact hloc
  | cons name names ih =>
    obtain ⟨hname, hrest⟩ := List.forall_mem_cons.mp hnames
    have onward (there : d.get? (along loc [name]) = some .directory) : d.Course (along loc [name]) names :=
      ih there hrest fun passed hp => clear (name :: passed) (List.cons_prefix_cons.mpr ⟨rfl, hp⟩)
    by_cases hup : name = ".."
    · subst hup
      exact (onward (h.dropLast hloc)).cons hloc stretch_up
    · have step : d.stretch .look loc (name :: (names ++ ["."])) = _ :=
        stretch_cons (by simpa using hname) hup (by simp)
      by_cases hlong : d.nameExceeds name = true
      · rw [if_pos hlong] at step
        exact .long _ step name List.mem_cons_self hlong
      · rw [if_neg hlong, ← along_name loc hup] at step
        rcases clear [name] (by simp) with free | there
        · rw [free] at step
          exact .missing (step.trans (if_neg (by simp))) [name] (by simp) free
        · rw [there] at step
          exact (onward there).cons hloc step

/-- Above a directory there are directories. -/
theorem IsTree.directory_of_append (h : d.IsTree) (hdir : d.get? (q ++ names) = some .directory) :
    d.get? q = some .directory := by
  induction names using List.reverseRecOn with
  | nil => rwa [List.append_nil] at hdir
  | append_singleton names name ih =>
    rw [← List.append_assoc] at hdir
    exact ih (h.parent hdir)

/-- Above what is there something is there. -/
theorem IsTree.exists_of_append (h : d.IsTree) (there : d.get? (q ++ names) = some node) :
    ∃ node', d.get? q = some node' := by
  rcases List.eq_nil_or_concat names with rfl | ⟨front, name, rfl⟩
  · exact ⟨node, by rwa [List.append_nil] at there⟩
  · rw [List.concat_eq_append, ← List.append_assoc] at there
    exact ⟨_, h.directory_of_append (h.parent there)⟩

theorem IsTree.proper_of_append (h : d.IsTree) (there : d.get? (q ++ names) = some node) :
    ∀ name ∈ names, IsProper name := by
  induction names using List.reverseRecOn generalizing node with
  | nil => nofun
  | append_singleton names name ih =>
    rw [← List.append_assoc] at there
    intro n hn
    rcases List.mem_append.mp hn with hn | hn
    · exact ih (h.parent there) n hn
    · exact List.mem_singleton.mp hn ▸ h.proper there

/-- The walk on to another directory starts from the one that was reached. -/
theorem IsTree.follow_onward (h : d.IsTree) (hloc : d.get? loc = some .directory) (there : d.Reaches loc front q)
    (back : List String) :
    ∃ m, d.follow .look maxLinks loc (front ++ back ++ ["."]) = d.follow .look m q (back ++ ["."]) := by
  have hne : back ++ ["."] ≠ [] := by simp
  obtain ⟨m, -, e⟩ := h.follow_append hloc there hne (by simp)
  exact ⟨m, by rw [List.append_assoc, e]⟩

/-- From a directory that was reached names lead down through directories to the place they name. Only a name that is
too long keeps a walk from it. -/
theorem IsTree.reaches_down (h : d.IsTree) (hloc : d.get? loc = some .directory) (there : d.Reaches loc front q)
    (hnames : ∀ name ∈ names, IsProper name) (hdir : d.get? (q ++ names) = some .directory) :
    d.Reaches loc (front ++ names) (q ++ names)
      ∨ (∃ name ∈ names, d.nameExceeds name = true) ∧ ¬∃ q', d.Reaches loc (front ++ names) q' := by
  have straight (passed : List String) (hp : passed <+: names) : along q passed = q ++ passed :=
    along_eq_append q fun name hn => (hnames name (hp.subset hn)).ne_up
  have dirs (passed : List String) (hp : passed <+: names) : d.get? (along q passed) = some .directory := by
    obtain ⟨rest, e⟩ := id hp
    rw [straight passed hp]
    rw [← e, ← List.append_assoc] at hdir
    exact h.directory_of_append hdir
  obtain ⟨m, onward⟩ := h.follow_onward hloc there names
  unfold Reaches
  rw [onward]
  have named : ∀ name ∈ names, name ≠ "" ∧ name ≠ "." := fun name hn =>
    ⟨(hnames name hn).ne_empty, (hnames name hn).ne_dot⟩
  cases h.course (h.directory_of_reaches hloc there) named fun passed hp => Or.inr (dirs passed hp) with
  | passes arrived _ =>
    left
    rw [follow_arrived arrived, straight names (List.prefix_refl _)]
  | missing _ passed on free =>
    rw [dirs passed on] at free
    cases free
  | long fault blocked name mem long =>
    refine Or.inr ⟨⟨name, mem, long⟩, ?_⟩
    rintro ⟨q', hq'⟩
    rw [follow_blocked blocked] at hq'
    cases hq'

/-! ### Walks that write -/

/-- A walk that wants a directory is the same for reading and writing. -/
theorem stretch_purpose (d : Disk) (loc : Location) (front : List String) :
    d.stretch .write loc (front ++ ["."]) = d.stretch .look loc (front ++ ["."]) := by
  induction front generalizing loc with
  | nil => rfl
  | cons name front ih =>
    rw [List.cons_append]
    by_cases skip : name = "" ∨ name = "."
    · rw [stretch_skip skip, stretch_skip skip, ih]
    · by_cases hup : name = ".."
      · subst hup
        rw [stretch_up, stretch_up, ih]
      · rw [stretch_cons skip hup (not_singleton _), stretch_cons skip hup (not_singleton _), ih]

theorem IsTree.follow_purpose (h : d.IsTree) (hloc : d.get? loc = some .directory) :
    d.follow .write n loc (front ++ ["."]) = d.follow .look n loc (front ++ ["."]) := by
  induction n generalizing loc front with
  | zero => rw [follow, follow, stretch_purpose]
  | succ n ih =>
    rw [follow, follow, stretch_purpose]
    cases hs : d.stretch .look loc (front ++ ["."]) with
    | link dir target rest =>
      obtain ⟨front', rfl⟩ := h.enters hloc hs
      dsimp only
      rw [← List.append_assoc, ih (linkStart (h.sits hloc hs).1 target)]
    | _ => rfl

/-- In a directory that is reached a file can be written where a file or nothing is. -/
theorem IsTree.writeTarget_child (h : d.IsTree) (there : d.Reaches (d.start base) (named base) q)
    (hname : IsProper name) (short : d.nameExceeds name = false) (text : d.pathFault? (child base name) = none)
    (spot : d.get? (q ++ [name]) = none ∨ ∃ content, d.get? (q ++ [name]) = some (.file content)) :
    d.writeTarget (child base name) = .ok (q ++ [name]) := by
  have there' : d.follow .write maxLinks (d.start base) (named base ++ ["."]) = .ok (.at q) :=
    (h.follow_purpose (h.start base)).trans there
  obtain ⟨m, -, onward⟩ := h.follow_append (h.start base) there' (List.cons_ne_nil name []) (by simp [hname.ne_empty])
  have step : d.stretch .write q [name] = _ :=
    stretch_cons (by simp [hname.ne_empty, hname.ne_dot]) hname.ne_up (by simp)
  rw [short] at step
  have walk : d.walk .write (child base name) = d.follow .write m q [name] := by
    unfold Disk.walk
    rw [text]
    dsimp only
    rw [names_child base hname.toIsName, start_congr (isAbsolute_child base hname.toIsName), onward]
  unfold writeTarget
  rw [walk]
  rcases spot with free | ⟨content, there⟩
  · rw [free] at step
    rw [Disk.follow_vacant step]
  · rw [there] at step
    rw [follow_arrived step]
    dsimp only
    rw [there]
    rfl

end ServingLifecycle.Disk
