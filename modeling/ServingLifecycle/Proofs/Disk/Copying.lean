import ServingLifecycle.Proofs.Disk.Making
/-!
# Copying files and trees

A copied file goes to the one place that its target leads to. A copied tree makes directories at its target and
below it, and on the way there those that are missing; it writes files strictly below its target, and nothing else,
however it ends.
-/
namespace ServingLifecycle

namespace Path

/-- Two paths that lead down from two bases by the same names. -/
def Abreast (source target from' to' : String) : Prop :=
  ∃ names, (∀ name ∈ names, IsProper name) ∧ from' = below source names ∧ to' = below target names

/-- The same strictly below the bases. -/
def Beneath (source target from' to' : String) : Prop :=
  ∃ names, names ≠ [] ∧ (∀ name ∈ names, IsProper name) ∧ from' = below source names
    ∧ to' = below target names

/-- What has to be there for the directories below a base, the base included. -/
def Serving (base path : String) : Prop :=
  ∃ names, (∀ name ∈ names, IsProper name) ∧ Leading (below base names) path

variable {source target from' to' name : String}

theorem Abreast.base (source target : String) : Abreast source target source target :=
  ⟨[], nofun, rfl, rfl⟩

theorem Abreast.down (h : Abreast source target from' to') (hname : IsProper name) :
    Beneath source target (child from' name) (child to' name) := by
  obtain ⟨names, hnames, rfl, rfl⟩ := h
  refine ⟨names ++ [name], by simp, fun n hn => ?_, (below_append ..).symm, (below_append ..).symm⟩
  rcases List.mem_append.mp hn with hn | hn
  · exact hnames n hn
  · exact List.mem_singleton.mp hn ▸ hname

theorem Beneath.abreast (h : Beneath source target from' to') : Abreast source target from' to' := by
  obtain ⟨names, -, h⟩ := h
  exact ⟨names, h⟩

theorem Leading.serving {path : String} (h : Leading target path) : Serving target path :=
  ⟨[], nofun, h⟩

theorem Abreast.serving {path : String} (h : Abreast source target from' to') (leading : Leading to' path) :
    Serving target path := by
  obtain ⟨names, hnames, -, rfl⟩ := h
  exact ⟨names, hnames, leading⟩

end Path

namespace Disk

variable {d d' : Disk} {loc : Location} {path source target : String} {directories : String → Prop}

/-- A walk for writing, if it arrives, is the one that looking takes. -/
theorem walked_of_walk {purpose : WalkPurpose} {arrival : Arrival} (walk : d.walk purpose path = .ok arrival) :
    d.walked path = .ok arrival := by
  unfold Disk.walk at walk
  split at walk
  · cases walk
  · cases purpose with
    | look => exact walk
    | write =>
      rcases follow_write d maxLinks (d.start path) (Path.names path) with e | e
      · rw [e] at walk
        cases walk
      · rw [walked, ← e, walk]

theorem writeTarget_walk (there : d.writeTarget path = .ok loc) :
    (∃ dir name, loc = dir ++ [name] ∧ d.walked path = .ok (.vacant dir name))
      ∨ d.LeadsTo path loc ∧ d.get? loc ≠ some .directory := by
  unfold writeTarget at there
  split at there
  · cases there
  · rename_i dir name walk
    cases there
    exact Or.inl ⟨dir, name, rfl, walked_of_walk walk⟩
  · rename_i arrived walk
    split at there
    · cases there
    · rename_i hdir
      cases there
      exact Or.inr ⟨walked_of_walk walk, hdir⟩

/-- Content is written in a directory that is there, over a file or where nothing is. -/
theorem writeTarget_eq_ok (h : d.IsTree) (there : d.writeTarget path = .ok loc) : ∃ parent name,
    loc = parent ++ [name] ∧ Path.IsProper name ∧ d.get? parent = some .directory
      ∧ (∀ old, d.get? loc = some old → ∃ content, old = .file content)
      ∧ ∀ content, (d.put loc (.file content)).LeadsTo path loc := by
  rcases writeTarget_walk there with ⟨dir, name, rfl, walked⟩ | ⟨leads, hdir⟩
  · obtain ⟨hd, hfree, hname⟩ := h.follow_vacant (h.start path) (fun _ => Path.of_mem_names) walked
    refine ⟨dir, name, rfl, hname, hd, by simp [hfree], fun content => ?_⟩
    have keeps : d.Keeps (d.put (dir ++ [name]) (.file content)) := Keeps.put (by simp) (by simp [hfree])
    have hnew : (d.put (dir ++ [name]) (.file content)).get? (dir ++ [name]) = some (.file content) := by
      rw [get?_put (by simp), if_pos rfl]
    have filled := keeps.follow_filled walked hnew nofun
    rwa [← keeps.start path] at filled
  · obtain ⟨node, hn, hl⟩ := h.follow_at (h.start path) leads
    cases node with
    | directory => exact absurd hn hdir
    | link target => exact absurd rfl (hl target)
    | file content =>
      rcases List.eq_nil_or_concat loc with rfl | ⟨parent, name, e⟩
      · exact absurd (get?_nil d) hdir
      · rw [List.concat_eq_append] at e
        subst e
        refine ⟨parent, name, rfl, h.proper hn, h.parent hn, by simp [hn], fun content' => ?_⟩
        have keeps : d.Keeps (d.put (parent ++ [name]) (.file content')) :=
          Keeps.put (by simp) (by simp [hn, Node.remains_file])
        exact keeps.leadsTo leads

theorem copyFile_eq_ok (copied : d.copyFile source target = .ok d') : ∃ from' to' content,
    d.locate source = .ok from' ∧ d.get? from' = some (.file content) ∧ d.writeTarget target = .ok to'
      ∧ d' = d.put to' (.file (if to' = from' then [] else content)) := by
  unfold copyFile at copied
  split at copied
  · cases copied
  · rename_i from' hfrom
    split at copied
    · rename_i content hcontent
      split at copied
      · cases copied
      · rename_i to' hto
        cases copied
        exact ⟨from', to', content, hfrom, hcontent, hto, rfl⟩
    · cases copied

theorem copyFile_builds (h : d.IsTree) (copied : d.copyFile source target = .ok d') :
    d.Builds directories (fun from' to' => from' = source ∧ to' = target) d' := by
  obtain ⟨from', to', content, hfrom, hfile, hto, rfl⟩ := copyFile_eq_ok copied
  obtain ⟨parent, name, rfl, hname, hparent, hold, leads⟩ := writeTarget_eq_ok h hto
  have hsource : d.HasFile source := ⟨from', content, (locate_eq_ok_iff.mp hfrom).2, hfile⟩
  refine builds_file h hname hparent (fun old ho => ?_) (leads _) hsource
  obtain ⟨content', rfl⟩ := hold old ho
  exact Node.remains_file ..

end Disk

/-! ### Copying a tree -/

namespace TreeCopy

variable {d : Disk} {c : TreeCopy} {source target from' to' : String}

/-- A copy leads down in its source and its target alike. -/
structure Within (source target : String) (c : TreeCopy) : Prop where
  pending : ∀ pair ∈ c.pending, Path.Abreast source target pair.1 pair.2
  opened : ∀ dir, c.opened = some dir → Path.Abreast source target dir.source dir.target
    ∧ ∀ entry ∈ dir.entries, Path.IsProper entry.1

/-- What one step or a whole copy does to a disk. -/
abbrev Fills (source target : String) (d d' : Disk) : Prop :=
  d.Builds (Path.Serving target) (Path.Beneath source target) d'

theorem within_start : (start source target).Within source target := by
  refine ⟨fun pair hp => ?_, nofun⟩
  rw [List.mem_singleton.mp hp]
  exact .base source target

/-- What is listed are entries of a directory. -/
theorem isProper_of_list (h : d.IsTree) {entries : List (String × Node)} (listed : d.list source = .ok entries) :
    ∀ entry ∈ entries, Path.IsProper entry.1 := by
  unfold Disk.list at listed
  split at listed
  · cases listed
  · split at listed
    · cases listed
      rintro ⟨name, node⟩ hm
      exact h.proper (h.get?_of_mem_children hm)
    · cases listed

theorem openNext_fills (h : d.IsTree) {rest : List (String × String)} (above : Path.Abreast source target from' to')
    (hrest : ∀ pair ∈ rest, Path.Abreast source target pair.1 pair.2) :
    Fills source target d (openNext from' to' rest d).2
      ∧ ∀ c, (openNext from' to' rest d).1 = .ok c → c.Within source target := by
  have made := (Disk.makeDirectories_attempt h to').builds
  unfold openNext
  generalize d.makeDirectories to' = result at made ⊢
  obtain ⟨answer, d'⟩ := result
  have fills : Fills source target d d' := made.mono (fun path hp => above.serving hp) nofun
  cases answer with
  | error fault => exact ⟨fills, nofun⟩
  | ok _ =>
    dsimp only
    split
    · exact ⟨fills, nofun⟩
    · rename_i entries listed
      refine ⟨fills, ?_⟩
      rintro _ ⟨⟩
      refine ⟨hrest, ?_⟩
      rintro _ ⟨⟩
      exact ⟨above, isProper_of_list made.tree listed⟩

theorem copyEntry_fills (h : d.IsTree) {pending : List (String × String)} {name : String} {node : Node}
    {rest : List (String × Node)} (above : Path.Abreast source target from' to') (hname : Path.IsProper name)
    (hpending : ∀ pair ∈ pending, Path.Abreast source target pair.1 pair.2)
    (hrest : ∀ entry ∈ rest, Path.IsProper entry.1) :
    Fills source target d (copyEntry pending from' to' name node rest d).2
      ∧ ∀ c, (copyEntry pending from' to' name node rest d).1 = .ok c → c.Within source target := by
  have hopened : ∀ dir, some (OpenDirectory.mk from' to' rest) = some dir →
      Path.Abreast source target dir.source dir.target ∧ ∀ entry ∈ dir.entries, Path.IsProper entry.1 := by
    rintro _ ⟨⟩
    exact ⟨above, hrest⟩
  unfold copyEntry
  dsimp only
  split
  · refine ⟨.refl h, ?_⟩
    rintro _ ⟨⟩
    exact ⟨List.forall_mem_cons.mpr ⟨(above.down hname).abreast, hpending⟩, hopened⟩
  · split
    · exact ⟨.refl h, nofun⟩
    · rename_i d' copied
      refine ⟨(Disk.copyFile_builds h copied).mono (fun _ => id) ?_, ?_⟩
      · rintro _ _ ⟨rfl, rfl⟩
        exact above.down hname
      · rintro _ ⟨⟩
        exact ⟨hpending, hopened⟩

theorem step_fills (h : d.IsTree) (within : c.Within source target) :
    Fills source target d (c.step d).2 ∧ ∀ c', (c.step d).1 = .ok c' → c'.Within source target := by
  unfold step
  split
  · rename_i hopened
    obtain ⟨above, hentries⟩ := within.opened _ hopened
    obtain ⟨hname, hrest⟩ := List.forall_mem_cons.mp hentries
    exact copyEntry_fills h above hname within.pending hrest
  · refine ⟨.refl h, ?_⟩
    rintro _ ⟨⟩
    exact ⟨within.pending, nofun⟩
  · rename_i hpending
    obtain ⟨above, hrest⟩ := List.forall_mem_cons.mp (hpending ▸ within.pending)
    exact openNext_fills h above hrest
  · refine ⟨.refl h, ?_⟩
    rintro _ ⟨⟩
    exact within

theorem run_fills (steps : Nat) (h : d.IsTree) (within : c.Within source target) :
    Fills source target d (run steps c d).2 := by
  induction steps generalizing c d with
  | zero => exact .refl h
  | succ steps ih =>
    obtain ⟨fills, next⟩ := step_fills h within
    unfold run
    split
    · exact .refl h
    · generalize c.step d = result at fills next ⊢
      obtain ⟨_ | c', d'⟩ := result
      · exact fills
      · exact fills.trans (ih fills.tree (next c' rfl))

end TreeCopy

theorem Disk.copyTree_fills {d : Disk} (h : d.IsTree) (source target : String) :
    TreeCopy.Fills source target d (d.copyTree source target).2 :=
  TreeCopy.run_fills _ h TreeCopy.within_start

end ServingLifecycle
