import ServingLifecycle.Proofs.Path.Names
/-!
# What paths denote

A path denotes a location by its text alone, when `.` and `..` are taken out of it and links are left out of account.
Names that never go up further than they came down stay where they started.
-/
namespace ServingLifecycle

namespace Path

/-- Where names lead from a location when no name of them is a link. -/
def resolve (loc : Location) : List String → Location
  | [] => loc
  | name :: rest =>
    if name = "" ∨ name = "." then resolve loc rest
    else if name = ".." then resolve loc.dropLast rest
    else resolve (loc ++ [name]) rest

/-- From this far down the names go up further than where the depth is counted from. -/
def climbs (depth : Nat) : List String → Bool
  | [] => false
  | name :: rest =>
    if name = "" ∨ name = "." then climbs depth rest
    else if name = ".." then depth == 0 || climbs (depth - 1) rest
    else climbs (depth + 1) rest

/-- A location strictly below another. -/
def IsInside (inner outer : Location) : Prop :=
  ∃ rest, rest ≠ [] ∧ inner = outer ++ rest

variable {loc outer : Location} {name : String} {names front back : List String} {depth : Nat}

theorem resolve_append (loc : Location) (front back : List String) :
    resolve loc (front ++ back) = resolve (resolve loc front) back := by
  induction front generalizing loc with
  | nil => rfl
  | cons name front ih =>
    rw [List.cons_append, resolve, resolve]
    split
    · exact ih loc
    · split
      · exact ih loc.dropLast
      · exact ih (loc ++ [name])

theorem resolve_proper (h : IsProper name) : resolve loc [name] = loc ++ [name] := by
  rw [resolve, if_neg (by simp [h.ne_empty, h.ne_dot]), if_neg h.ne_up, resolve]

theorem resolve_moves (loc : Location) (names : List String) : resolve loc (moves names) = resolve loc names := by
  induction names generalizing loc with
  | nil => rfl
  | cons name names ih =>
    by_cases skip : name = "" ∨ name = "."
    · rw [resolve, if_pos skip, ← ih]
      rcases skip with rfl | rfl <;> rfl
    · have hm : moves (name :: names) = name :: moves names := List.filter_cons_of_pos (by simpa using skip)
      rw [hm, resolve, resolve, if_neg skip, if_neg skip, ih, ih]

theorem climbs_moves (depth : Nat) (names : List String) : climbs depth (moves names) = climbs depth names := by
  induction names generalizing depth with
  | nil => rfl
  | cons name names ih =>
    by_cases skip : name = "" ∨ name = "."
    · rw [climbs, if_pos skip, ← ih]
      rcases skip with rfl | rfl <;> rfl
    · have hm : moves (name :: names) = name :: moves names := List.filter_cons_of_pos (by simpa using skip)
      rw [hm, climbs, climbs, if_neg skip, if_neg skip, ih, ih]

/-- What begins names that do not climb does not climb either. -/
theorem climbs_prefix (h : climbs depth (front ++ back) = false) : climbs depth front = false := by
  induction front generalizing depth with
  | nil => rfl
  | cons name front ih =>
    rw [List.cons_append, climbs] at h
    rw [climbs]
    split
    · rw [if_pos ‹_›] at h
      exact ih h
    · rw [if_neg ‹_›] at h
      split
      · rw [if_pos ‹_›, Bool.or_eq_false_iff] at h
        rw [h.1, Bool.false_or]
        exact ih h.2
      · rw [if_neg ‹_›] at h
        exact ih h

/-- Names that do not climb do not do so from further down. -/
theorem climbs_succ (h : climbs depth names = false) : climbs (depth + 1) names = false := by
  induction names generalizing depth with
  | nil => rfl
  | cons name names ih =>
    rw [climbs] at h ⊢
    split
    · rw [if_pos ‹_›] at h
      exact ih h
    · rw [if_neg ‹_›] at h
      split
      · rw [if_pos ‹_›, Bool.or_eq_false_iff] at h
        obtain ⟨depth, rfl⟩ := Nat.exists_eq_succ_of_ne_zero (by simpa using h.1)
        simpa using ih h.2
      · rw [if_neg ‹_›] at h
        exact ih h

theorem climbs_proper (h : ∀ name ∈ names, IsProper name) : climbs depth names = false := by
  induction names generalizing depth with
  | nil => rfl
  | cons name names ih =>
    obtain ⟨hn, hns⟩ := List.forall_mem_cons.mp h
    rw [climbs, if_neg (by simp [hn.ne_empty, hn.ne_dot]), if_neg hn.ne_up]
    exact ih hns

/-- Going on downwards climbs no further. -/
theorem climbs_append (h : climbs depth front = false) (hback : ∀ name ∈ back, IsProper name) :
    climbs depth (front ++ back) = false := by
  induction front generalizing depth with
  | nil => exact climbs_proper hback
  | cons name front ih =>
    rw [climbs] at h
    rw [List.cons_append, climbs]
    split
    · rw [if_pos ‹_›] at h
      exact ih h
    · rw [if_neg ‹_›] at h
      split
      · rw [if_pos ‹_›, Bool.or_eq_false_iff] at h
        rw [h.1, Bool.false_or]
        exact ih h.2
      · rw [if_neg ‹_›] at h
        exact ih h

/-- Names that do not climb stay below where they started. -/
theorem prefix_resolve {extra : Location} (h : climbs extra.length names = false) :
    outer <+: resolve (outer ++ extra) names := by
  induction names generalizing extra with
  | nil => exact List.prefix_append _ _
  | cons name names ih =>
    rw [climbs] at h
    rw [resolve]
    split
    · rw [if_pos ‹_›] at h
      exact ih h
    · rw [if_neg ‹_›] at h
      split
      · rw [if_pos ‹_›, Bool.or_eq_false_iff] at h
        rcases List.eq_nil_or_concat extra with rfl | ⟨above, last, rfl⟩
        · simp at h
        · rw [List.concat_eq_append] at h ⊢
          rw [← List.append_assoc, List.dropLast_concat]
          exact ih (by simpa using h.2)
      · rw [if_neg ‹_›] at h
        rw [List.append_assoc]
        exact ih (by simpa using h)

/-- With one more name at the end they lead strictly below. -/
theorem isInside_resolve (hloc : outer <+: loc) (h : climbs 0 names = false) (hname : IsProper name) :
    IsInside (resolve loc (names ++ [name])) outer := by
  have stays : loc <+: resolve (loc ++ []) names := prefix_resolve h
  rw [List.append_nil] at stays
  obtain ⟨more, e⟩ := hloc.trans stays
  exact ⟨more ++ [name], by simp, by rw [resolve_append, resolve_proper hname, ← e, List.append_assoc]⟩

end Path

/-- The location that a path denotes by its text. -/
def Disk.denoted (d : Disk) (path : String) : Location :=
  Path.resolve (d.start path) (Path.names path)

theorem Disk.denoted_eq (d : Disk) (path : String) :
    d.denoted path = Path.resolve (d.start path) (Path.named path) := by
  rw [denoted, ← Path.resolve_moves, Path.moves_names, Path.resolve_moves]

end ServingLifecycle
