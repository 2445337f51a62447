import ServingLifecycle.Proofs.Disk.Growth
/-!
# Wandering

Names wander over a disk as it is, if what is missing is taken for a directory: a name goes down whether anything is
there or not, unless it is a link, which leads to where its own names do. Making directories and copying files takes
no link away and adds none. So a directory that they make is where the names of its path wandered to before.
-/
namespace ServingLifecycle

namespace Disk

/-- The names lead from one place to another, what is missing taken for a directory. -/
inductive Wanders (d : Disk) : Location → List String → Location → Prop
  | nil {loc : Location} : d.Wanders loc [] loc
  | skip {loc l : Location} {name : String} {rest : List String} (skip : name = "" ∨ name = ".")
      (onward : d.Wanders loc rest l) : d.Wanders loc (name :: rest) l
  | up {loc l : Location} {rest : List String} (onward : d.Wanders loc.dropLast rest l) :
      d.Wanders loc (".." :: rest) l
  | down {loc l : Location} {name : String} {rest : List String} (hname : ¬(name = "" ∨ name = "."))
      (hup : ¬name = "..") (clear : d.get? (loc ++ [name]) = none ∨ d.get? (loc ++ [name]) = some .directory)
      (onward : d.Wanders (loc ++ [name]) rest l) : d.Wanders loc (name :: rest) l
  | link {loc l : Location} {name target : String} {rest : List String} (hname : ¬(name = "" ∨ name = "."))
      (hup : ¬name = "..") (isLink : d.get? (loc ++ [name]) = some (.link target))
      (onward : d.Wanders (if Path.isAbsolute target then [] else loc) (Path.names target ++ rest) l) :
      d.Wanders loc (name :: rest) l

variable {d d' : Disk} {loc loc' l : Location} {name path : String} {front rest : List String}

theorem wanders_nil : d.Wanders loc [] l ↔ l = loc := by
  constructor
  · intro h
    cases h
    rfl
  · rintro rfl
    exact .nil

/-- One name of a wandering that is a name of an entry. -/
theorem wanders_cons (hname : ¬(name = "" ∨ name = ".")) (hup : ¬name = "..") : d.Wanders loc (name :: rest) l ↔
    match d.get? (loc ++ [name]) with
    | some (.file _) => False
    | some (.link target) => d.Wanders (if Path.isAbsolute target then [] else loc) (Path.names target ++ rest) l
    | _ => d.Wanders (loc ++ [name]) rest l := by
  constructor
  · intro h
    cases h with
    | skip skip onward => exact absurd skip hname
    | up onward => exact absurd rfl hup
    | down _ _ clear onward => rcases clear with e | e <;> rw [e] <;> exact onward
    | link _ _ isLink onward =>
      rw [isLink]
      exact onward
  · intro h
    split at h
    · exact h.elim
    · exact .link hname hup ‹_› h
    · rename_i noFile noLink
      refine .down hname hup ?_ h
      rcases hd : d.get? (loc ++ [name]) with _ | _ | content | target
      · exact .inl rfl
      · exact .inr rfl
      · exact absurd hd (noFile content)
      · exact absurd hd (noLink target)

theorem wanders_up : d.Wanders loc (".." :: rest) l ↔ d.Wanders loc.dropLast rest l := by
  refine ⟨fun h => ?_, .up⟩
  cases h with
  | skip skip _ => exact absurd skip (by decide)
  | up onward => exact onward
  | down _ hup => exact absurd rfl hup
  | link _ hup => exact absurd rfl hup

/-- What a stretch to a directory tells of where its names wandered to before. -/
def Wandered (d : Disk) (loc : Location) (front : List String) : Stretch → Prop
  | .arrived l => d.Wanders loc front l
  | .link dir target rest => ∃ back, rest = back ++ ["."] ∧ ∀ l,
      d.Wanders (if Path.isAbsolute target then [] else dir) (Path.names target ++ back) l → d.Wanders loc front l
  | _ => True

theorem Wandered.cons {s : Stretch} (h : d.Wandered loc' front s)
    (step : ∀ l, d.Wanders loc' front l → d.Wanders loc (name :: front) l) : d.Wandered loc (name :: front) s := by
  cases s with
  | arrived l => exact step l h
  | link dir target rest =>
    obtain ⟨back, rfl, onward⟩ := h
    exact ⟨back, rfl, fun l hl => step l (onward l hl)⟩
  | vacant => trivial
  | blocked => trivial

section
variable (keeps : d.Keeps d') (links : ∀ {loc : Location} {target : String},
  d'.get? loc = some (.link target) → d.get? loc = some (.link target))
include keeps links

theorem wandered_stretch {s : Stretch} (hs : d'.stretch .look loc (front ++ ["."]) = s) : d.Wandered loc front s := by
  subst hs
  induction front generalizing loc with
  | nil => exact .nil
  | cons name front ih =>
    rw [List.cons_append]
    by_cases skip : name = "" ∨ name = "."
    · rw [stretch_skip skip]
      exact ih.cons fun l => .skip skip
    · by_cases hup : name = ".."
      · subst hup
        rw [stretch_up]
        exact ih.cons fun l => .up
      · rw [stretch_cons skip hup (not_singleton _)]
        split
        · trivial
        · cases hd : d'.get? (loc ++ [name]) with
          | none => simp [Wandered]
          | some node =>
            cases node with
            | directory =>
              refine ih.cons fun l => .down skip hup ?_
              cases old : d.get? (loc ++ [name]) with
              | none => exact .inl rfl
              | some node => exact .inr (old ▸ keeps.was_directory old hd)
            | file content => simp [Wandered]
            | link target => exact ⟨front, rfl, fun l => .link skip hup (links hd)⟩

/-- Where names lead to a directory they wandered to before. -/
theorem Wanders.of_reaches (there : d'.Reaches loc front l) : d.Wanders loc front l := by
  unfold Reaches at there
  generalize maxLinks = n at there
  generalize e : front ++ ["."] = names at there
  fun_induction d'.follow .look n loc names generalizing front with
  | case1 loc names a hs =>
    cases e
    cases there
    exact wandered_stretch keeps links hs
  | case5 n loc names a hs =>
    cases e
    cases there
    exact wandered_stretch keeps links hs
  | case7 n loc names dir target rest hs ih =>
    cases e
    obtain ⟨back, rfl, onward⟩ := wandered_stretch keeps links hs
    exact onward l (ih (List.append_assoc ..) there)
  | _ => cases there

/-- Where a path on the way to another one leads to a directory, the names of that one wandered to before. -/
theorem Wanders.of_leading {lead : String} (tree : d'.IsTree) (leading : Path.Leading path lead)
    (leads : d'.LeadsTo lead l) (now : d'.get? l = some .directory) :
    ∃ walked, walked <+: Path.moves (Path.named path) ∧ d.Wanders (d.start path) walked l := by
  obtain ⟨front, name, -, hpre, rfl⟩ := leading
  generalize front ++ [name] = walked at hpre leads
  have isName : ∀ name ∈ walked, Path.IsName name := fun name hn => Path.isName_of_mem_moves_named (hpre.subset hn)
  have there := tree.reaches_of_leadsTo leads now
  rw [Path.named_below _ isName, Path.named_origin, List.nil_append,
    start_congr ((Path.isAbsolute_below _ isName).trans (Path.isAbsolute_origin path)), keeps.start] at there
  exact ⟨walked, hpre, .of_reaches keeps links there⟩

end

end Disk
end ServingLifecycle
