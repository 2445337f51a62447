import ServingLifecycle.Proofs.Disk.Walk
/-!
# Growing disks

`d.Builds directories copies d'` says that `d'` came from `d` by making directories and copying files, and under
which paths: every new directory is where one of the paths leads, and every file that is new or has other content
is where a file was copied to. It holds of making one directory, of making a directory with those above it and of
copying a file, whether they succeed or not, and so of anything that does these one after the other.
-/
namespace ServingLifecycle

namespace Disk

/-- The walk of a path, however long it may be. -/
def walked (d : Disk) (path : String) : Except SystemFault Arrival :=
  d.follow .look maxLinks (d.start path) (Path.names path)

def LeadsTo (d : Disk) (path : String) (loc : Location) : Prop :=
  d.walked path = .ok (.at loc)

/-- From a location the names lead to this directory. -/
def Reaches (d : Disk) (loc : Location) (names : List String) (q : Location) : Prop :=
  d.follow .look maxLinks loc (names ++ ["."]) = .ok (.at q)

/-- A path leads to a file, however long it may be. -/
def HasFile (d : Disk) (path : String) : Prop :=
  ∃ loc content, d.LeadsTo path loc ∧ d.get? loc = some (.file content)

structure Builds (directories : String → Prop) (copies : String → String → Prop) (d d' : Disk) : Prop where
  tree : d'.IsTree
  keeps : d.Keeps d'
  directory : ∀ {loc : Location}, d.get? loc = none → d'.get? loc = some .directory →
    ∃ path, directories path ∧ d'.LeadsTo path loc
  file : ∀ {loc : Location} {content : Bytes}, d'.get? loc = some (.file content) →
    d.get? loc ≠ some (.file content) →
    ∃ source target, copies source target ∧ d'.HasFile source ∧ d'.LeadsTo target loc
  link : ∀ {loc : Location} {target : String}, d'.get? loc = some (.link target) →
    d.get? loc = some (.link target)

variable {d d' d'' : Disk} {loc parent q : Location} {name path : String} {node : Node}
  {names front back : List String} {directories directories' : String → Prop}
  {copies copies' : String → String → Prop}

theorem LeadsTo.unique {loc' : Location} (h : d.LeadsTo path loc) (h' : d.LeadsTo path loc') : loc = loc' := by
  unfold LeadsTo at h h'
  rw [h] at h'
  cases h'
  rfl

theorem start_congr {path path' : String} (h : Path.isAbsolute path = Path.isAbsolute path') :
    d.start path = d.start path' := by
  unfold start
  rw [h]

theorem Keeps.leadsTo (h : d.Keeps d') (there : d.LeadsTo path loc) : d'.LeadsTo path loc := by
  unfold LeadsTo walked
  rw [h.start]
  exact h.follow there

theorem Keeps.hasFile (h : d.Keeps d') (there : d.HasFile path) : d'.HasFile path := by
  obtain ⟨loc, content, leads, hc⟩ := there
  obtain ⟨content', hc'⟩ := h.file hc
  exact ⟨loc, content', h.leadsTo leads, hc'⟩

theorem locate_eq_ok_iff : d.locate path = .ok loc ↔ d.pathFault? path = none ∧ d.LeadsTo path loc := by
  unfold locate walk LeadsTo walked
  cases hf : d.pathFault? path with
  | some fault => simp
  | none =>
    cases hw : d.follow .look maxLinks (d.start path) (Path.names path) with
    | error fault => simp
    | ok arrival => cases arrival <;> simp

theorem look_eq_ok_iff : d.look path = .ok node ↔ ∃ loc, d.locate path = .ok loc ∧ d.get? loc = some node := by
  unfold look
  cases hl : d.locate path with
  | error fault => simp
  | ok loc => cases hn : d.get? loc <;> simp [hn]

theorem pathFault?_eq_some {fault : SystemFault} (hf : d.pathFault? path = some fault) :
    fault = .embeddedNul ∨ fault = .noEntry ∨ fault = .nameTooLong := by
  unfold pathFault? at hf
  split at hf
  · cases hf
    exact Or.inl rfl
  · split at hf
    · cases hf
      exact Or.inr (Or.inl rfl)
    · split at hf <;> cases hf
      exact Or.inr (Or.inr rfl)

/-- What can be in the way of looking at a path, other than that nothing is there. -/
def obstacles : List SystemFault :=
  [.notDirectory, .nameTooLong, .tooManyLinks, .embeddedNul]

theorem look_eq_error {fault : SystemFault} (failed : d.look path = .error fault) :
    fault = .noEntry ∨ fault ∈ obstacles := by
  unfold look at failed
  split at failed
  · split at failed <;> cases failed
    exact Or.inl rfl
  · rename_i hlocate
    cases failed
    unfold locate at hlocate
    split at hlocate
    · cases hlocate
    · cases hlocate
      exact Or.inl rfl
    · rename_i hwalk
      cases hlocate
      unfold walk at hwalk
      split at hwalk
      · rename_i hf
        cases hwalk
        rcases pathFault?_eq_some hf with rfl | rfl | rfl <;> simp [obstacles]
      · rcases follow_look_error hwalk with rfl | rfl | rfl | rfl <;> simp [obstacles]

theorem hasDirectory_iff : d.hasDirectory path = true ↔ d.look path = .ok .directory := by
  unfold hasDirectory
  split
  · simp_all
  · rename_i hother
    simpa using hother

theorem Keeps.locate (h : d.Keeps d') (there : d.locate path = .ok loc) : d'.locate path = .ok loc := by
  obtain ⟨hfault, leads⟩ := locate_eq_ok_iff.mp there
  exact locate_eq_ok_iff.mpr ⟨(h.pathFault? path).trans hfault, h.leadsTo leads⟩

theorem Keeps.hasDirectory (h : d.Keeps d') (there : d.hasDirectory path = true) : d'.hasDirectory path = true := by
  obtain ⟨q, hq, hdir⟩ := look_eq_ok_iff.mp (hasDirectory_iff.mp there)
  exact hasDirectory_iff.mpr (look_eq_ok_iff.mpr ⟨q, h.locate hq, h.directory hdir⟩)

/-! ### Ways to directories -/

theorem reaches_nil : d.Reaches loc [] loc :=
  follow_arrived rfl

theorem Reaches.unique {q' : Location} (h : d.Reaches loc names q) (h' : d.Reaches loc names q') : q = q' := by
  unfold Reaches at h h'
  rw [h] at h'
  cases h'
  rfl

theorem Keeps.reaches (h : d.Keeps d') (there : d.Reaches loc names q) : d'.Reaches loc names q :=
  h.follow there

theorem IsTree.directory_of_reaches (h : d.IsTree) (hloc : d.get? loc = some .directory)
    (there : d.Reaches loc names q) : d.get? q = some .directory := by
  obtain ⟨_, ⟨⟩, hdir⟩ := h.follow_enters hloc there
  exact hdir

theorem IsTree.reaches_moves (h : d.IsTree) (hloc : d.get? loc = some .directory) :
    d.Reaches loc (Path.moves names) q ↔ d.Reaches loc names q := by
  unfold Reaches
  rw [h.follow_moves hloc]

/-- The way to a directory passes through directories. -/
theorem IsTree.reaches_front (h : d.IsTree) (hloc : d.get? loc = some .directory)
    (there : d.Reaches loc (front ++ back) q) : ∃ q', d.Reaches loc front q' := by
  unfold Reaches at there
  rw [List.append_assoc] at there
  exact h.follow_front hloc (by simp) (by simp) there

/-- If a path leads to a directory, so does the walk of it that wants one. -/
theorem IsTree.reaches_of_leadsTo (h : d.IsTree) (there : d.LeadsTo path q) (hdir : d.get? q = some .directory) :
    d.Reaches (d.start path) (Path.named path) q := by
  rw [← h.reaches_moves (h.start path), ← Path.moves_names, h.reaches_moves (h.start path)]
  exact follow_dot there hdir

theorem IsTree.reaches_of_hasDirectory (h : d.IsTree) (there : d.hasDirectory path = true) :
    ∃ q, d.Reaches (d.start path) (Path.named path) q := by
  obtain ⟨q, hq, hdir⟩ := look_eq_ok_iff.mp (hasDirectory_iff.mp there)
  exact ⟨q, h.reaches_of_leadsTo (locate_eq_ok_iff.mp hq).2 hdir⟩

/-- If a path leads to a directory, so does every one on the way to it. -/
theorem IsTree.reaches_leading {lead : String} (h : d.IsTree) (there : d.hasDirectory path = true)
    (hl : Path.Leading path lead) :
    ∃ q, d.Reaches (d.start lead) (Path.named lead) q ∧ d.get? q = some .directory := by
  obtain ⟨q, whole⟩ := h.reaches_of_hasDirectory there
  obtain ⟨front, name, -, ⟨rest, e⟩, rfl⟩ := hl
  have hn : ∀ n ∈ front ++ [name], Path.IsName n := fun n hm =>
    Path.isName_of_mem_moves_named (e ▸ List.mem_append_left rest hm)
  rw [← h.reaches_moves (h.start path), ← e] at whole
  obtain ⟨q', hq⟩ := h.reaches_front (h.start path) whole
  rw [Path.named_below _ hn, Path.named_origin, List.nil_append,
    start_congr ((Path.isAbsolute_below _ hn).trans (Path.isAbsolute_origin path))]
  exact ⟨q', hq, h.directory_of_reaches (h.start path) hq⟩

theorem hasNamedDirectory_iff : d.hasNamedDirectory loc names = true ↔ ∃ q, d.Reaches loc names q := by
  unfold hasNamedDirectory
  constructor
  · intro e
    split at e
    · rename_i q hq
      exact ⟨q, hq⟩
    · cases e
  · rintro ⟨q, hq⟩
    rw [hq]

namespace Builds

theorem refl (h : d.IsTree) : d.Builds directories copies d :=
  ⟨h, Keeps.refl d, fun hn hd => by (rw [hn] at hd; cases hd), fun hf hn => absurd hf hn, id⟩

theorem mono (h : d.Builds directories copies d') (hd : ∀ path, directories path → directories' path)
    (hc : ∀ source target, copies source target → copies' source target) : d.Builds directories' copies' d' where
  tree := h.tree
  keeps := h.keeps
  directory hn hd' := by
    obtain ⟨path, hp, there⟩ := h.directory hn hd'
    exact ⟨path, hd path hp, there⟩
  file hf hn := by
    obtain ⟨source, target, hst, there⟩ := h.file hf hn
    exact ⟨source, target, hc source target hst, there⟩
  link := h.link

theorem trans (h : d.Builds directories copies d') (h' : d'.Builds directories copies d'') :
    d.Builds directories copies d'' where
  tree := h'.tree
  keeps := h.keeps.trans h'.keeps
  directory := by
    intro loc hn hd
    cases hm : d'.get? loc with
    | none => exact h'.directory hm hd
    | some node =>
      cases node with
      | directory =>
        obtain ⟨path, hp, there⟩ := h.directory hn hm
        exact ⟨path, hp, h'.keeps.leadsTo there⟩
      | file content =>
        obtain ⟨content', hc⟩ := h'.keeps.file hm
        rw [hd] at hc
        cases hc
      | link target =>
        have := h'.keeps.link hm
        rw [hd] at this
        cases this
  file := by
    intro loc content hc hn
    by_cases hm : d'.get? loc = some (.file content)
    · obtain ⟨source, target, hst, hfile, there⟩ := h.file hm hn
      exact ⟨source, target, hst, h'.keeps.hasFile hfile, h'.keeps.leadsTo there⟩
    · exact h'.file hc hm
  link hl := h.link (h'.link hl)

/-- Whatever is different on the disk that was built is a new directory or a file. -/
theorem changed (h : d.Builds directories copies d') (hne : d'.get? loc ≠ d.get? loc) :
    (d.get? loc = none ∧ d'.get? loc = some .directory ∧ ∃ path, directories path ∧ d'.LeadsTo path loc)
      ∨ ((∃ content, d'.get? loc = some (.file content)) ∧ ∃ source target, copies source target
        ∧ d'.HasFile source ∧ d'.LeadsTo target loc) := by
  cases hn' : d'.get? loc with
  | none => exact absurd (hn'.trans (h.keeps.get?_eq_none hn').symm) hne
  | some node =>
    cases node with
    | directory =>
      cases hn : d.get? loc with
      | none => exact Or.inl ⟨rfl, rfl, h.directory hn hn'⟩
      | some old =>
        obtain ⟨node', hn'', hr⟩ := h.keeps.remains hn
        rw [hn'] at hn''
        cases hn''
        rcases hr with rfl | ⟨_, _, _, ⟨⟩⟩
        exact absurd (hn'.trans hn.symm) hne
    | file content =>
      exact Or.inr ⟨⟨content, rfl⟩, h.file hn' fun hn => hne (hn'.trans hn.symm)⟩
    | link target => exact absurd (hn'.trans (h.link hn').symm) hne

end Builds

/-! ### One change -/

theorem stretch_entry {purpose : WalkPurpose} (hname : Path.IsProper name) (hlong : d.nameExceeds name = false)
    (hd : d.get? (q ++ [name]) = some node) (hl : ∀ target, node ≠ .link target) :
    d.stretch purpose q [name] = .arrived (q ++ [name]) := by
  rw [stretch_cons (by simp [hname.ne_empty, hname.ne_dot]) hname.ne_up (by simp), hlong, hd]
  cases node with
  | directory => rfl
  | file content => rfl
  | link target => exact absurd rfl (hl target)

/-- A walk to a directory goes on to an entry of it. -/
theorem IsTree.follow_entry (h : d.IsTree) (hloc : d.get? loc = some .directory) (there : d.Reaches loc front q)
    (hname : Path.IsProper name) (hlong : d.nameExceeds name = false) (hd : d.get? (q ++ [name]) = some node)
    (hl : ∀ target, node ≠ .link target) :
    d.follow .look maxLinks loc (front ++ [name]) = .ok (.at (q ++ [name])) := by
  obtain ⟨m, -, e⟩ := h.follow_append hloc there (List.cons_ne_nil name []) (by simp [hname.ne_empty])
  rw [e]
  exact follow_arrived (stretch_entry hname hlong hd hl)

theorem IsTree.reaches_entry (h : d.IsTree) (hloc : d.get? loc = some .directory) (there : d.Reaches loc front q)
    (hname : Path.IsProper name) (hlong : d.nameExceeds name = false) (hd : d.get? (q ++ [name]) = some .directory) :
    d.Reaches loc (front ++ [name]) (q ++ [name]) :=
  follow_dot (h.follow_entry hloc there hname hlong hd nofun) hd

theorem builds_directory (h : d.IsTree) (hname : Path.IsProper name) (hparent : d.get? parent = some .directory)
    (hfree : d.get? (parent ++ [name]) = none)
    (leads : (d.put (parent ++ [name]) .directory).LeadsTo path (parent ++ [name])) :
    d.Builds (· = path) copies (d.put (parent ++ [name]) .directory) where
  tree := h.put hname hparent (by simp [hfree])
  keeps := Keeps.put (by simp) (by simp [hfree])
  directory hn hd := by
    rw [get?_put (by simp)] at hd
    split at hd
    · rename_i e
      exact ⟨path, rfl, e ▸ leads⟩
    · rw [hn] at hd
      cases hd
  file hc hn := by
    rw [get?_put (by simp)] at hc
    split at hc
    · cases hc
    · exact absurd hc hn
  link hl := by
    rw [get?_put (by simp)] at hl
    split at hl
    · cases hl
    · exact hl

theorem builds_file {source target : String} {content : Bytes} (h : d.IsTree) (hname : Path.IsProper name)
    (hparent : d.get? parent = some .directory)
    (hold : ∀ old, d.get? (parent ++ [name]) = some old → old.Remains (.file content))
    (leads : (d.put (parent ++ [name]) (.file content)).LeadsTo target (parent ++ [name]))
    (hsource : d.HasFile source) : d.Builds directories (fun from' to' => from' = source ∧ to' = target)
      (d.put (parent ++ [name]) (.file content)) where
  tree := h.put hname hparent hold
  keeps := Keeps.put (by simp) hold
  directory hn hd := by
    rw [get?_put (by simp)] at hd
    split at hd
    · cases hd
    · rw [hn] at hd
      cases hd
  file hc hn := by
    rw [get?_put (by simp)] at hc
    split at hc
    · rename_i e
      exact ⟨source, target, ⟨rfl, rfl⟩, (Keeps.put (by simp) hold).hasFile hsource, e ▸ leads⟩
    · exact absurd hc hn
  link hl := by
    rw [get?_put (by simp)] at hl
    split at hl
    · cases hl
    · exact hl

end Disk
end ServingLifecycle
