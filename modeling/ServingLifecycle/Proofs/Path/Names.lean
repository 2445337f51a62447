import ServingLifecycle.Disk.TreeCopy
import ServingLifecycle.Storage.Local
/-!
# The names of a path

Putting a slash between two texts puts their names one after the other, so joining a child onto a path adds its
names at the end. Of the names, the empty ones and the dots do not move a walk; `moves` leaves them out.
-/
namespace ServingLifecycle

namespace Path

/-- A text that can stand between two slashes of a path. -/
structure IsName (name : String) : Prop where
  ne_empty : name ≠ ""
  no_slash : '/' ∉ name.toList

/-- A name that an entry of a directory can have. -/
structure IsProper (name : String) : Prop extends IsName name where
  ne_dot : name ≠ "."
  ne_up : name ≠ ".."

instance (name : String) : Decidable (IsProper name) :=
  decidable_of_iff ((name ≠ "" ∧ '/' ∉ name.toList) ∧ name ≠ "." ∧ name ≠ "..")
    ⟨fun h => ⟨⟨h.1.1, h.1.2⟩, h.2.1, h.2.2⟩, fun h => ⟨⟨h.ne_empty, h.no_slash⟩, h.ne_dot, h.ne_up⟩⟩

/-- The texts between the slashes that are not empty, as names. -/
def named (path : String) : List String :=
  ((split path.toList).map String.ofList).filter (· != "")

/-- The names that move a walk: neither empty nor a dot. -/
def moves (names : List String) : List String :=
  names.filter fun name => name ≠ "" ∧ name ≠ "."

theorem moves_append (names names' : List String) : moves (names ++ names') = moves names ++ moves names' :=
  List.filter_append ..

theorem of_mem_moves {names : List String} {name : String} (h : name ∈ moves names) : name ≠ "" ∧ name ≠ "." := by
  simpa [moves] using (List.mem_filter.mp h).2

theorem moves_eq_self {names : List String} (h : ∀ name ∈ names, name ≠ "" ∧ name ≠ ".") : moves names = names :=
  List.filter_eq_self.mpr fun name hn => by simpa using h name hn

theorem getLast?_ne_dot {names all : List String} (h : names <+: moves all) : names.getLast? ≠ some "." :=
  fun last => (of_mem_moves (h.subset (List.mem_of_getLast? last))).2 rfl

theorem moves_moves (names : List String) : moves (moves names) = moves names := by
  simp [moves]

theorem split_ne_nil (cs : List Char) : split cs ≠ [] := by
  cases cs with
  | nil => simp [split]
  | cons c rest =>
    unfold split
    split
    · simp
    · split <;> simp

theorem split_append_slash (a b : List Char) : split (a ++ '/' :: b) = split a ++ split b := by
  induction a with
  | nil => simp [split]
  | cons c rest ih =>
    by_cases h : c = '/'
    · simp [split, h, ih]
    · obtain ⟨name, names, hs⟩ := List.exists_cons_of_ne_nil (split_ne_nil rest)
      simp [split, h, ih, hs]

theorem split_of_notMem {cs : List Char} (h : '/' ∉ cs) : split cs = [cs] := by
  induction cs with
  | nil => rfl
  | cons c rest ih =>
    simp only [List.mem_cons, not_or] at h
    simp [split, Ne.symm h.1, ih h.2]

theorem notMem_of_mem_split {cs part : List Char} (h : part ∈ split cs) : '/' ∉ part := by
  induction cs generalizing part with
  | nil => simp_all [split]
  | cons c rest ih =>
    obtain ⟨name, names, hs⟩ := List.exists_cons_of_ne_nil (split_ne_nil rest)
    by_cases hc : c = '/'
    · rcases (by simpa [split, hc] using h : part = [] ∨ part ∈ split rest) with rfl | h
      · simp
      · exact ih h
    · rcases (by simpa [split, hc, hs] using h : part = c :: name ∨ part ∈ names) with rfl | h
      · have first : '/' ∉ name := ih (by simp [hs])
        simp [Ne.symm hc, first]
      · exact ih (by simp [hs, h])

theorem named_append_slash (a b : List Char) :
    named (String.ofList (a ++ '/' :: b)) = named (String.ofList a) ++ named (String.ofList b) := by
  simp [named, split_append_slash]

theorem named_of_isName {name : String} (h : IsName name) : named name = [name] := by
  simp [named, split_of_notMem h.no_slash, h.ne_empty]

theorem isName_of_mem_named {path name : String} (h : name ∈ named path) : IsName name := by
  simp only [named, List.mem_filter, List.mem_map, bne_iff_ne] at h
  obtain ⟨⟨part, hp, rfl⟩, hne⟩ := h
  exact ⟨hne, by simpa using notMem_of_mem_split hp⟩

theorem isName_of_mem_moves_named {path name : String} (h : name ∈ moves (named path)) : IsName name :=
  isName_of_mem_named (List.mem_filter.mp h).1

theorem names_eq (path : String) : names path = named path ∨ names path = named path ++ [""] := by
  unfold names named
  dsimp only
  split
  · exact Or.inr rfl
  · exact Or.inl rfl

theorem moves_names (path : String) : moves (names path) = moves (named path) := by
  rcases names_eq path with e | e
  · rw [e]
  · rw [e, moves_append]
    exact List.append_nil _

/-- The names without an empty one at the end. -/
def trim (names : List String) : List String :=
  if names.getLast? = some "" then names.dropLast else names

theorem trim_eq_self {names : List String} (h : ∀ name ∈ names, name ≠ "") : trim names = names := by
  unfold trim
  rw [if_neg]
  intro last
  exact h "" (List.mem_of_getLast? last) rfl

/-- The empty name at the end tells of a slash there and nothing else. -/
theorem trim_names (path : String) : trim (names path) = named path := by
  unfold trim
  rcases names_eq path with h | h
  · rw [h, if_neg]
    intro last
    exact (isName_of_mem_named (List.mem_of_getLast? last)).ne_empty rfl
  · simp [h]

theorem of_mem_names {path name : String} (h : name ∈ names path) : '/' ∉ name.toList := by
  rcases names_eq path with e | e <;> rw [e] at h
  · exact (isName_of_mem_named h).no_slash
  · rcases List.mem_append.mp h with h | h
    · exact (isName_of_mem_named h).no_slash
    · simp [List.mem_singleton.mp h]

/-- Without a slash at the end the names are just the parts that are not empty. -/
theorem names_append_slash (cs : List Char) {name : String} (h : IsName name) :
    names (String.ofList (cs ++ '/' :: name.toList)) = named (String.ofList cs) ++ [name] := by
  have hs : split (cs ++ '/' :: name.toList) = split cs ++ [name.toList] := by
    rw [split_append_slash, split_of_notMem h.no_slash]
  simp [names, named, hs, h.ne_empty]

/-- With a slash at the end an empty name follows, unless there is no other. -/
theorem names_slash (cs : List Char) : names (String.ofList (cs ++ ['/'])) =
    if named (String.ofList cs) = [] then [] else named (String.ofList cs) ++ [""] := by
  have hparts : (split (cs ++ ['/'])).map String.ofList = (split cs).map String.ofList ++ [""] := by
    rw [split_append_slash, List.map_append]
    rfl
  have hnamed : ((split cs).map String.ofList ++ [""]).filter (· != "") = named (String.ofList cs) := by
    simp [named]
  rw [names, String.toList_ofList, hparts, hnamed, List.getLast?_concat]
  by_cases none : named (String.ofList cs) = []
  · rw [if_pos none, if_neg fun h => h.2 none, none]
  · rw [if_neg none, if_pos ⟨rfl, none⟩]

theorem names_of_isName {name : String} (h : IsName name) : names name = [name] := by
  simp [names, split_of_notMem h.no_slash, h.ne_empty]

/-- A slash stands between a base and its child, if the base is a text at all. -/
theorem child_eq (base name : String) : (base = "" ∧ child base name = name) ∨
    ∃ cs : List Char, named (String.ofList cs) = named base
      ∧ (base.toList.head? = some '/' ↔ cs.head? = some '/' ∨ cs = [])
      ∧ child base name = String.ofList (cs ++ '/' :: name.toList) := by
  unfold child
  split
  · exact Or.inl ⟨‹_›, rfl⟩
  · rename_i hne
    split
    · rename_i last
      obtain ⟨cs, hcs⟩ := List.getLast?_eq_some_iff.mp last
      have hb : base = String.ofList (cs ++ '/' :: []) := by rw [← hcs, String.ofList_toList]
      refine Or.inr ⟨cs, ?_, ?_, ?_⟩
      · rw [hb, named_append_slash]
        simp [named, split]
      · rw [hcs]
        cases cs <;> simp
      · apply String.ext
        simp [hcs]
    · refine Or.inr ⟨base.toList, by rw [String.ofList_toList], ?_, ?_⟩
      · simp [hne]
      · apply String.ext
        simp

theorem named_child (base : String) {name : String} (h : IsName name) :
    named (child base name) = named base ++ [name] := by
  rcases child_eq base name with ⟨rfl, e⟩ | ⟨cs, hcs, -, e⟩
  · rw [e, named_of_isName h]
    rfl
  · rw [e, named_append_slash, hcs, String.ofList_toList, named_of_isName h]

theorem names_child (base : String) {name : String} (h : IsName name) :
    names (child base name) = named base ++ [name] := by
  rcases child_eq base name with ⟨rfl, e⟩ | ⟨cs, hcs, -, e⟩
  · rw [e, names_of_isName h]
    rfl
  · rw [e, names_append_slash cs h, hcs]

theorem isAbsolute_child (base : String) {name : String} (h : IsName name) :
    isAbsolute (child base name) = isAbsolute base := by
  rw [Bool.eq_iff_iff]
  unfold isAbsolute
  rw [beq_iff_eq, beq_iff_eq]
  rcases child_eq base name with ⟨rfl, e⟩ | ⟨cs, -, head, e⟩
  · rw [e]
    have := h.no_slash
    constructor
    · intro hs
      exact absurd (List.mem_of_mem_head? hs) this
    · intro hs; simp at hs
  · rw [e, head]
    cases cs <;> simp

theorem child_ne_empty (base : String) {name : String} (h : IsName name) : child base name ≠ "" := by
  rcases child_eq base name with ⟨rfl, e⟩ | ⟨cs, -, -, e⟩
  · rw [e]
    exact h.ne_empty
  · rw [e]
    simp

/-! ### Paths below a base -/

/-- The path that the names lead to from a base. -/
def below (base : String) (names : List String) : String :=
  names.foldl child base

theorem below_append (base : String) (names : List String) (name : String) :
    below base (names ++ [name]) = child (below base names) name := by
  simp [below]

theorem named_below (base : String) {ns : List String} (h : ∀ n ∈ ns, IsName n) :
    named (below base ns) = named base ++ ns := by
  induction ns generalizing base with
  | nil => simp [below]
  | cons n ns ih =>
    obtain ⟨hn, hns⟩ := List.forall_mem_cons.mp h
    have := ih (child base n) hns
    rw [named_child base hn] at this
    simpa [below] using this

theorem isAbsolute_below (base : String) {ns : List String} (h : ∀ n ∈ ns, IsName n) :
    isAbsolute (below base ns) = isAbsolute base := by
  induction ns generalizing base with
  | nil => rfl
  | cons n ns ih =>
    obtain ⟨hn, hns⟩ := List.forall_mem_cons.mp h
    exact (ih (child base n) hns).trans (isAbsolute_child base hn)

theorem names_below (base : String) {ns : List String} (hne : ns ≠ []) (h : ∀ n ∈ ns, IsName n) :
    names (below base ns) = named base ++ ns := by
  rcases List.eq_nil_or_concat ns with rfl | ⟨front, name, rfl⟩
  · exact absurd rfl hne
  · rw [List.concat_eq_append] at h ⊢
    have hf : ∀ n ∈ front, IsName n := fun n hn => h n (List.mem_append_left _ hn)
    have hn : IsName name := h name (List.mem_append_right _ List.mem_cons_self)
    rw [below_append, names_child _ hn, named_below base hf, List.append_assoc]

/-- The text of where a path starts. -/
def origin (path : String) : String :=
  if isAbsolute path then "/" else ""

theorem named_origin (path : String) : named (origin path) = [] := by
  unfold origin
  split <;> decide

theorem isAbsolute_origin (path : String) : isAbsolute (origin path) = isAbsolute path := by
  unfold origin
  split
  · rename_i h
    rw [h]
    decide
  · rename_i h
    rw [Bool.not_eq_true] at h
    rw [h]
    decide

/-- A path on the way to another one or that path itself, without the names that do not move a walk; the last
name is one that an entry can have. -/
def Leading (path : String) (leading : String) : Prop :=
  ∃ front name, IsProper name ∧ front ++ [name] <+: moves (named path)
    ∧ leading = below (origin path) (front ++ [name])

end Path

namespace Uri
open ServingLifecycle.Path

theorem exists_stem (cs : List Char) : ∃ slashes, (∀ c ∈ slashes, c = '/') ∧ cs = stem cs ++ slashes := by
  refine ⟨(cs.reverse.takeWhile (· == '/')).reverse, fun c hc => ?_, ?_⟩
  · have := List.all_takeWhile (p := (· == '/')) (l := cs.reverse)
    rw [List.all_eq_true] at this
    simpa using this c (List.mem_reverse.mp hc)
  · rw [stem, ← List.reverse_append, List.takeWhile_append_dropWhile, List.reverse_reverse]

theorem exists_leaf (cs : List Char) : ∃ slashes, (∀ c ∈ slashes, c = '/') ∧ cs = slashes ++ leaf cs := by
  refine ⟨cs.takeWhile (· == '/'), fun c hc => ?_, ?_⟩
  · have := List.all_takeWhile (p := (· == '/')) (l := cs)
    rw [List.all_eq_true] at this
    simpa using this c hc
  · rw [leaf, List.takeWhile_append_dropWhile]

/-- What names nothing is slashes alone. -/
theorem eq_slash_of_named {cs : List Char} (h : named (String.ofList cs) = []) : ∀ c ∈ cs, c = '/' := by
  induction cs with
  | nil => nofun
  | cons c rest ih =>
    by_cases hc : c = '/'
    · subst hc
      rw [← List.nil_append ('/' :: rest), named_append_slash] at h
      exact List.forall_mem_cons.mpr ⟨rfl, ih (List.append_eq_nil_iff.mp h).2⟩
    · obtain ⟨name, names, hs⟩ := List.exists_cons_of_ne_nil (split_ne_nil rest)
      simp [named, split, hc, hs] at h

/-- Slashes alone name nothing. -/
theorem named_slashes {slashes : List Char} (h : ∀ c ∈ slashes, c = '/') : named (String.ofList slashes) = [] := by
  induction slashes with
  | nil => rfl
  | cons c rest ih =>
    obtain ⟨rfl, hr⟩ := List.forall_mem_cons.mp h
    rw [← List.nil_append ('/' :: rest), named_append_slash, ih hr]
    rfl

theorem named_stem (cs : List Char) : named (String.ofList (stem cs)) = named (String.ofList cs) := by
  obtain ⟨slashes, hs, e⟩ := exists_stem cs
  rw [congrArg (fun cs => named (String.ofList cs)) e]
  cases slashes with
  | nil => simp
  | cons c rest =>
    obtain ⟨rfl, hr⟩ := List.forall_mem_cons.mp hs
    rw [named_append_slash, named_slashes hr, List.append_nil]

theorem named_leaf (cs : List Char) : named (String.ofList (leaf cs)) = named (String.ofList cs) := by
  obtain ⟨slashes, hs, e⟩ := exists_leaf cs
  rw [congrArg (fun cs => named (String.ofList cs)) e]
  generalize leaf cs = rest
  clear e
  induction slashes with
  | nil => rfl
  | cons c more ih =>
    obtain ⟨rfl, hr⟩ := List.forall_mem_cons.mp hs
    rw [ih hr, List.cons_append, ← List.nil_append ('/' :: (more ++ rest)), named_append_slash]
    rfl

/-- Joining puts the names of the child after those of the base. -/
theorem named_join (base child : String) : named (join base child) = named base ++ named child := by
  rw [join, named_append_slash, named_stem, named_leaf, String.ofList_toList, String.ofList_toList]

theorem join_ne_empty (base child : String) : join base child ≠ "" := by
  intro h
  have := congrArg String.toList h
  simp [toList_join] at this

theorem isAbsolute_join {base : String} (h : base ≠ "") (child : String) :
    isAbsolute (join base child) = isAbsolute base := by
  obtain ⟨slashes, hs, e⟩ := exists_stem base.toList
  rw [Bool.eq_iff_iff]
  unfold isAbsolute
  rw [beq_iff_eq, beq_iff_eq, toList_join, congrArg List.head? e]
  cases hb : stem base.toList with
  | nil =>
    rw [hb, List.nil_append] at e
    cases slashes with
    | nil => exact absurd (String.toList_eq_nil_iff.mp e) h
    | cons c rest => simp [(List.forall_mem_cons.mp hs).1]
  | cons c rest => simp

/-- A child without slashes puts one name after those of the base, if only the empty one. -/
theorem names_join {child : String} (h : '/' ∉ leaf child.toList) (base : String) :
    (∃ name, names (join base child) = named base ++ [name]) ∨ names (join base child) = [] := by
  by_cases hne : leaf child.toList = []
  · rw [join, hne, names_slash, named_stem, String.ofList_toList]
    split
    · exact Or.inr rfl
    · exact Or.inl ⟨"", rfl⟩
  · have hname : IsName (String.ofList (leaf child.toList)) := ⟨by simpa using hne, by simpa using h⟩
    have e := names_append_slash (stem base.toList) hname
    rw [named_stem, String.ofList_toList, String.toList_ofList] at e
    exact Or.inl ⟨_, e⟩

theorem head_leaf (cs : List Char) : (leaf cs).head? ≠ some '/' := by
  intro h
  have := List.head?_dropWhile_not (p := (· == '/')) (l := cs)
  rw [← leaf, h] at this
  cases this

theorem getLast_stem (cs : List Char) : (stem cs).getLast? ≠ some '/' := by
  intro h
  rw [stem, List.getLast?_reverse] at h
  exact head_leaf cs.reverse h

theorem stem_append {a b : List Char} (h : stem b ≠ []) : stem (a ++ b) = a ++ stem b := by
  have hb : b.reverse.dropWhile (· == '/') ≠ [] := fun e => h (by rw [stem, e]; rfl)
  rw [stem, List.reverse_append, List.dropWhile_append, if_neg (by simpa using hb), List.reverse_append,
    List.reverse_reverse, stem]

theorem stem_append_slashes (a : List Char) {slashes : List Char} (h : ∀ c ∈ slashes, c = '/') :
    stem (a ++ slashes) = stem a := by
  rw [stem, List.reverse_append, List.dropWhile_append_of_pos, stem]
  intro c hc
  simp [h c (List.mem_reverse.mp hc)]

theorem join_congr {base base' : String} (h : stem base.toList = stem base'.toList) (child : String) :
    join base child = join base' child := by
  rw [join, join, h]

theorem named_of_stem {cs : List Char} (h : stem cs = []) : named (String.ofList cs) = [] := by
  rw [← named_stem, h]
  rfl

end Uri

namespace LocalFilesystem
open ServingLifecycle.Path

/-- A child of a base does not begin with the scheme unless the base does. -/
theorem startsWith_join {base : String} (h : Uri.startsWith base scheme = false) (child : String) :
    Uri.startsWith (Uri.join base child) scheme = false := by
  unfold Uri.startsWith at h ⊢
  rw [← Bool.not_eq_true, List.isPrefixOf_iff_prefix] at h ⊢
  rintro ⟨rest, e⟩
  rw [Uri.toList_join] at e
  have hlast := Uri.getLast_stem base.toList
  have hhead := Uri.head_leaf child.toList
  rcases List.append_eq_append_iff.mp e with ⟨more, e, -⟩ | ⟨tail, e, e'⟩
  · obtain ⟨slashes, -, hb⟩ := Uri.exists_stem base.toList
    exact h ⟨more ++ slashes, by rw [← List.append_assoc, ← e, ← hb]⟩
  · rw [show scheme.toList = ['f', 'i', 'l', 'e', ':', '/', '/'] from rfl] at e
    rcases tail with _ | ⟨c, tail⟩
    · rw [List.append_nil] at e
      rw [← e] at hlast
      exact hlast rfl
    · obtain ⟨rfl, hleaf⟩ := List.cons.inj e'
      rw [hleaf] at hhead
      generalize Uri.stem base.toList = st at e hlast
      -- the slash between the two is the sixth character of the scheme or the seventh
      rcases st with _ | ⟨_, _ | ⟨_, _ | ⟨_, _ | ⟨_, _ | ⟨_, _ | ⟨_, _ | ⟨_, st⟩⟩⟩⟩⟩⟩⟩ <;> simp at e
      · obtain ⟨-, -, -, -, -, rfl⟩ := e
        exact hhead rfl
      · obtain ⟨-, -, -, -, -, rfl, -⟩ := e
        exact hlast rfl

/-- Below a base that names a place, the path of a child is a child of the path. -/
theorem path_join {base : String} (h : Uri.startsWith base scheme = true → named (path base) ≠ [])
    (child : String) :
    path (Uri.join base child) = Uri.join (path base) child := by
  unfold path Uri.withoutStart at h ⊢
  cases hs : Uri.startsWith base scheme with
  | false => rw [startsWith_join hs, if_neg nofun, if_neg nofun]
  | true =>
    rw [if_pos hs] at h
    rw [if_pos rfl]
    obtain ⟨rest, hr⟩ := List.isPrefixOf_iff_prefix.mp hs
    rw [← hr, List.drop_left] at h ⊢
    have hj : (Uri.join base child).toList = scheme.toList ++ (Uri.stem rest ++ '/' :: Uri.leaf child.toList) := by
      rw [Uri.toList_join, ← hr, Uri.stem_append fun e => h hs (Uri.named_of_stem e), List.append_assoc]
    rw [Uri.startsWith, hj, if_pos (List.isPrefixOf_iff_prefix.mpr ⟨_, rfl⟩), List.drop_left, Uri.join,
      String.toList_ofList]

end LocalFilesystem
end ServingLifecycle
