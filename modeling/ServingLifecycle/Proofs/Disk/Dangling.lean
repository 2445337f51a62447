import ServingLifecycle.Proofs.Disk.Copying
/-!
# Dangling links

A walk to an entry of a directory that is there cannot fail for want of an entry, unless the entry is a link and
that link wants one. So a copy between two directories that are there only ever stops for want of an entry where a
link dangles, in what it reads or in what it writes over.
-/
namespace ServingLifecycle

def Node.isLink : Node → Bool
  | link _ => true
  | _ => false

namespace Disk

/-- The last name of a path stands in a directory that is there. -/
def PointsInto (d : Disk) (path : String) (q : Location) (name : String) : Prop :=
  ∃ front, Path.names path = front ++ [name] ∧ d.Reaches (d.start path) front q

/-- The path of a link behind which something is missing. -/
def Dangles (d : Disk) (path : String) : Prop :=
  ∃ q name target, d.PointsInto path q name ∧ d.get? (q ++ [name]) = some (.link target)
    ∧ isSettled (d.walked path) = false

variable {d d' : Disk} {q q' : Location} {name name' path base source target : String} {m : Nat}
  {fault : SystemFault}

theorem not_dangles (h : ∀ entry ∈ d.entries, entry.2.isLink = false) (path : String) : ¬d.Dangles path := by
  rintro ⟨q, name, target, -, hl, -⟩
  unfold get? at hl
  rw [if_neg (by simp)] at hl
  obtain ⟨before, after, e, -⟩ := List.lookup_eq_some_iff.mp hl
  exact Bool.noConfusion (h (q ++ [name], .link target) (by simp [e]))

/-- The last name of a walk is an entry other than a link, or free, or a link. -/
theorem follow_last (d : Disk) (m : Nat) (q : Location) (name : String) :
    isSettled (d.follow .look m q [name]) = true
    ∨ d.get? (q ++ [name]) = none ∧ d.follow .look m q [name] = .ok (.vacant q name)
    ∨ ∃ target, d.get? (q ++ [name]) = some (.link target) := by
  by_cases skip : name = "" ∨ name = "."
  · rw [follow_arrived (l := q) (by rw [stretch_skip skip]; rfl)]
    exact Or.inl rfl
  · by_cases hup : name = ".."
    · subst hup
      rw [follow_arrived (l := q.dropLast) (by rw [stretch_up]; rfl)]
      exact Or.inl rfl
    · have hs : d.stretch .look q [name] = _ := stretch_cons skip hup (by simp)
      split at hs
      · rw [follow_blocked hs]
        exact Or.inl rfl
      · cases hd : d.get? (q ++ [name]) with
        | none =>
          rw [hd] at hs
          exact Or.inr (Or.inl ⟨rfl, follow_vacant hs⟩)
        | some node =>
          rw [hd] at hs
          cases node with
          | directory =>
            rw [follow_arrived (l := q ++ [name]) hs]
            exact Or.inl rfl
          | file content =>
            rw [follow_arrived (l := q ++ [name]) hs]
            exact Or.inl rfl
          | link target => exact Or.inr (Or.inr ⟨target, rfl⟩)

theorem PointsInto.unique (h : d.PointsInto path q name) (h' : d.PointsInto path q' name') :
    q' = q ∧ name' = name := by
  obtain ⟨front, e, hq⟩ := h
  obtain ⟨front', e', hq'⟩ := h'
  rw [e] at e'
  obtain ⟨rfl, hname⟩ := List.append_inj' e' rfl
  cases hname
  exact ⟨hq'.unique hq, rfl⟩

theorem PointsInto.ne_empty (h : d.PointsInto path q name) : path ≠ "" := by
  rintro rfl
  obtain ⟨front, e, -⟩ := h
  simp [Path.names, Path.split] at e

theorem PointsInto.keeps (h : d.PointsInto path q name) (keeps : d.Keeps d') : d'.PointsInto path q name := by
  obtain ⟨front, e, hq⟩ := h
  exact ⟨front, e, (keeps.start path) ▸ keeps.reaches hq⟩

theorem pointsInto_child (hname : Path.IsName name)
    (there : d.Reaches (d.start base) (Path.named base) q) : d.PointsInto (Path.child base name) q name :=
  ⟨Path.named base, Path.names_child base hname, by rwa [start_congr (Path.isAbsolute_child base hname)]⟩

/-- A child without slashes stands right in its base, or else both are the root. -/
theorem pointsInto_join {child : String} (hchild : '/' ∉ Uri.leaf child.toList)
    (there : ∃ q, d.Reaches (d.start base) (Path.named base) q) :
    (∃ q name, d.PointsInto (Uri.join base child) q name) ∨ Path.names (Uri.join base child) = [] := by
  have above : ∃ q, d.Reaches (d.start (Uri.join base child)) (Path.named base) q := by
    by_cases hbase : base = ""
    · subst hbase
      exact ⟨_, reaches_nil⟩
    · rwa [start_congr (Uri.isAbsolute_join hbase child)]
  obtain ⟨q, hq⟩ := above
  rcases Uri.names_join hchild base with ⟨name, hnames⟩ | hnames
  · exact Or.inl ⟨q, name, Path.named base, hnames, hq⟩
  · exact Or.inr hnames

/-- A walk to an entry of a directory that is there. -/
theorem IsTree.walked_into (h : d.IsTree) (points : d.PointsInto path q name) :
    isSettled (d.walked path) = true
      ∨ d.get? (q ++ [name]) = none ∧ d.walked path = .ok (.vacant q name)
      ∨ d.Dangles path := by
  cases settled : isSettled (d.walked path) with
  | true => exact Or.inl rfl
  | false =>
    right
    obtain ⟨front, hnames, there⟩ := id points
    obtain ⟨m, -, e⟩ := h.follow_append (h.start path) there (List.cons_ne_nil name []) (by simp)
    rw [← hnames, ← walked] at e
    rcases follow_last d m q name with here | ⟨free, vacant⟩ | ⟨target, hl⟩
    · rw [e, here] at settled
      cases settled
    · exact Or.inl ⟨free, e.trans vacant⟩
    · exact Or.inr ⟨q, name, target, points, hl, settled⟩

/-- The text of a path is no reason why an entry is missing. -/
theorem walked_eq_error {purpose : WalkPurpose} (hne : path ≠ "") (failed : d.walk purpose path = .error fault)
    (missing : fault.isNotFound = true) :
    d.walked path = .error fault := by
  unfold walk at failed
  cases hf : d.pathFault? path with
  | some fault' =>
    rw [hf] at failed
    cases failed
    rw [isNotFound_of_pathFault? hne hf] at missing
    cases missing
  | none =>
    rw [hf] at failed
    cases purpose with
    | look => exact failed
    | write =>
      dsimp only at failed
      rcases follow_write d maxLinks (d.start path) (Path.names path) with e | e
      · rw [e] at failed
        cases failed
        cases missing
      · rw [walked, ← e, failed]

theorem isSettled_of_locate (hne : path ≠ "") (failed : d.locate path = .error fault)
    (missing : fault.isNotFound = true) : isSettled (d.walked path) = false := by
  unfold locate at failed
  split at failed
  · cases failed
  · rename_i dir name hw
    rw [walked_of_walk hw]
    rfl
  · rename_i hw
    cases failed
    rw [walked_eq_error hne hw missing]
    simp [isSettled, missing]

theorem isSettled_of_list (hne : path ≠ "") (failed : d.list path = .error fault)
    (missing : fault.isNotFound = true) : isSettled (d.walked path) = false := by
  unfold list at failed
  split at failed
  · rename_i hlocate
    cases failed
    exact isSettled_of_locate hne hlocate missing
  · split at failed <;> cases failed
    cases missing

/-- A copied file misses an entry at its source or on the walk to its target. -/
theorem lost_of_copyFile (hne : target ≠ "") (failed : d.copyFile source target = .error fault)
    (missing : fault.isNotFound = true) : d.locate source = .error fault ∨ d.walked target = .error fault := by
  unfold copyFile at failed
  split at failed
  · rename_i hlocate
    cases failed
    exact Or.inl hlocate
  · split at failed
    · split at failed
      · rename_i hwrite
        cases failed
        unfold writeTarget at hwrite
        split at hwrite
        · rename_i hw
          cases hwrite
          exact Or.inr (walked_eq_error hne hw missing)
        · cases hwrite
        · split at hwrite <;> cases hwrite
          cases missing
      · cases failed
    · cases failed
      cases missing

theorem IsTree.dangles_of_walked (h : d.IsTree) (points : d.PointsInto path q name)
    (lost : d.walked path = .error fault) (missing : fault.isNotFound = true) : d.Dangles path := by
  rcases h.walked_into points with settled | ⟨-, vacant⟩ | dangles
  · rw [lost] at settled
    simp [isSettled, missing] at settled
  · rw [lost] at vacant
    cases vacant
  · exact dangles

end Disk

namespace TreeCopy
open Disk

variable {d d' : Disk} {c : TreeCopy} {source target from' to' name path : String} {node : Node}
  {entries rest : List (String × Node)} {pending : List (String × String)}

/-- A directory to be copied: no entry is missing on the way to it, and its target can be made. -/
structure Ready (d : Disk) (pair : String × String) : Prop where
  ne_empty : pair.1 ≠ ""
  settled : isSettled (d.walked pair.1) = true
  target : (Path.named pair.2).getLast? ≠ some "."

/-- The directory being copied and its target are there, and what was listed has not gone. -/
structure Filling (d : Disk) (dir : OpenDirectory) : Prop where
  source : ∃ q, d.Reaches (d.start dir.source) (Path.named dir.source) q
    ∧ ∀ entry ∈ dir.entries, Path.IsProper entry.1 ∧ d.get? (q ++ [entry.1]) ≠ none
      ∧ (entry.2 = .directory → d.get? (q ++ [entry.1]) = some .directory)
  target : ∃ q, d.Reaches (d.start dir.target) (Path.named dir.target) q

structure Sound (d : Disk) (c : TreeCopy) : Prop where
  pending : ∀ pair ∈ c.pending, Ready d pair
  opened : ∀ dir, c.opened = some dir → Filling d dir

/-- A copy can stop at this path because a link dangles, there or where its copy goes. -/
def Stuck (source target path : String) (d : Disk) : Prop :=
  ∃ to', Path.Beneath source target path to' ∧ (d.Dangles path ∨ d.Dangles to')

theorem Ready.keeps {pair : String × String} (ready : Ready d pair) (keeps : d.Keeps d') : Ready d' pair := by
  refine ⟨ready.ne_empty, ?_, ready.target⟩
  rw [walked, keeps.start, keeps.follow_settled ready.settled]
  exact ready.settled

theorem Filling.keeps {dir : OpenDirectory} (filling : Filling d dir) (keeps : d.Keeps d') : Filling d' dir := by
  obtain ⟨⟨q, hq, hentries⟩, p, hp⟩ := filling
  refine ⟨⟨q, (keeps.start _) ▸ keeps.reaches hq, fun entry he => ?_⟩, p, (keeps.start _) ▸ keeps.reaches hp⟩
  obtain ⟨hname, there, hdir⟩ := hentries entry he
  exact ⟨hname, fun missing => there (keeps.get?_eq_none missing), fun e => keeps.directory (hdir e)⟩

/-- A directory that was listed is there with its entries. -/
theorem source_of_list (h : d.IsTree) (listed : d.list source = .ok entries) :
    ∃ q, d.Reaches (d.start source) (Path.named source) q
      ∧ ∀ entry ∈ entries, Path.IsProper entry.1 ∧ d.get? (q ++ [entry.1]) ≠ none
        ∧ (entry.2 = .directory → d.get? (q ++ [entry.1]) = some .directory) := by
  unfold list at listed
  split at listed
  · cases listed
  · rename_i q hlocate
    split at listed
    · rename_i hdir
      cases listed
      refine ⟨q, h.reaches_of_leadsTo (locate_eq_ok_iff.mp hlocate).2 hdir, ?_⟩
      rintro ⟨name, node⟩ hm
      have there := h.get?_of_mem_children hm
      refine ⟨h.proper there, by simp [there], ?_⟩
      rintro rfl
      exact there
    · cases listed

theorem openNext_sound (h : d.IsTree) (ready : Ready d (from', to')) (hpending : ∀ pair ∈ pending, Ready d pair) :
    (∀ c, (openNext from' to' pending d).1 = .ok c → c.Sound (openNext from' to' pending d).2)
      ∧ ∀ path, (openNext from' to' pending d).1 ≠ .error (.notFound path) := by
  obtain ⟨builds, made, lost⟩ := makeDirectories_attempt h to'
  unfold openNext
  generalize d.makeDirectories to' = result at builds made lost ⊢
  obtain ⟨fault | _, d'⟩ := result
  · refine ⟨nofun, fun path e => ?_⟩
    obtain ⟨missing, -⟩ := StorageError.ofFault_eq_notFound_iff.mp (Except.error.inj e)
    exact ready.target (lost fault rfl missing)
  · have keeps : d.Keeps d' := builds.keeps
    dsimp only
    cases hlist : d'.list from' with
    | error fault =>
      refine ⟨nofun, fun path e => ?_⟩
      obtain ⟨missing, -⟩ := StorageError.ofFault_eq_notFound_iff.mp (Except.error.inj e)
      have lost := isSettled_of_list ready.ne_empty hlist missing
      rw [(ready.keeps keeps).settled] at lost
      cases lost
    | ok entries =>
      refine ⟨?_, nofun⟩
      rintro _ ⟨⟩
      refine ⟨fun pair hp => (hpending pair hp).keeps keeps, ?_⟩
      rintro _ ⟨⟩
      exact ⟨source_of_list builds.tree hlist, keeps.start to' ▸ made rfl⟩

theorem copyEntry_sound (h : d.IsTree) (above : Path.Abreast source target from' to')
    (filling : Filling d ⟨from', to', (name, node) :: rest⟩) (hpending : ∀ pair ∈ pending, Ready d pair) :
    (∀ c, (copyEntry pending from' to' name node rest d).1 = .ok c →
        c.Sound (copyEntry pending from' to' name node rest d).2)
      ∧ ∀ path, (copyEntry pending from' to' name node rest d).1 = .error (.notFound path) →
          Stuck source target path (copyEntry pending from' to' name node rest d).2 := by
  obtain ⟨⟨q, hq, hentries⟩, p, hp⟩ := filling
  obtain ⟨⟨hname, there, hdir⟩, hrest⟩ := List.forall_mem_cons.mp hentries
  have hfrom := pointsInto_child hname.toIsName hq
  have hto := pointsInto_child hname.toIsName hp
  have found := h.walked_into hfrom
  have hopened (d' : Disk) (keeps : d.Keeps d') :
      ∀ dir, some (OpenDirectory.mk from' to' rest) = some dir → Filling d' dir := by
    rintro _ ⟨⟩
    exact Filling.keeps ⟨⟨q, hq, hrest⟩, p, hp⟩ keeps
  unfold copyEntry
  dsimp only
  split
  · rename_i isDir
    have settled : isSettled (d.walked (Path.child from' name)) = true := by
      rcases found with settled | ⟨missing, -⟩ | ⟨q', name', target, points, hl, -⟩
      · exact settled
      · exact absurd missing there
      · obtain ⟨rfl, rfl⟩ := hfrom.unique points
        rw [hdir isDir] at hl
        cases hl
    refine ⟨?_, nofun⟩
    rintro _ ⟨⟩
    refine ⟨List.forall_mem_cons.mpr ⟨⟨Path.child_ne_empty from' hname.toIsName, settled, ?_⟩, hpending⟩,
      hopened d (.refl d)⟩
    rw [Path.named_child to' hname.toIsName, List.getLast?_concat]
    exact fun e => hname.ne_dot (Option.some.inj e)
  · cases hcopy : d.copyFile (Path.child from' name) (Path.child to' name) with
    | error fault =>
      refine ⟨nofun, fun path e => ?_⟩
      obtain ⟨missing, rfl⟩ := StorageError.ofFault_eq_notFound_iff.mp (Except.error.inj e)
      refine ⟨Path.child to' name, above.down hname, ?_⟩
      rcases lost_of_copyFile (Path.child_ne_empty to' hname.toIsName) hcopy missing with hlocate | lost
      · have lost := isSettled_of_locate (Path.child_ne_empty from' hname.toIsName) hlocate missing
        rcases found with settled | ⟨missing, -⟩ | dangles
        · rw [lost] at settled
          cases settled
        · exact absurd missing there
        · exact Or.inl dangles
      · exact Or.inr (h.dangles_of_walked hto lost missing)
    | ok d' =>
      refine ⟨?_, nofun⟩
      rintro _ ⟨⟩
      have builds : d.Builds (fun _ => False) _ d' := copyFile_builds h hcopy
      have keeps := builds.keeps
      exact ⟨fun pair hm => (hpending pair hm).keeps keeps, hopened d' keeps⟩

theorem step_sound (h : d.IsTree) (within : c.Within source target) (sound : c.Sound d) :
    (∀ c', (c.step d).1 = .ok c' → c'.Sound (c.step d).2)
      ∧ ∀ path, (c.step d).1 = .error (.notFound path) → Stuck source target path (c.step d).2 := by
  unfold step
  split
  · rename_i hopened
    exact copyEntry_sound h (within.opened _ hopened).1 (sound.opened _ hopened) sound.pending
  · refine ⟨?_, nofun⟩
    rintro _ ⟨⟩
    exact ⟨sound.pending, nofun⟩
  · rename_i hpending
    obtain ⟨ready, hrest⟩ := List.forall_mem_cons.mp (hpending ▸ sound.pending)
    obtain ⟨goes, found⟩ := openNext_sound h ready hrest
    exact ⟨goes, fun path e => absurd e (found path)⟩
  · refine ⟨?_, nofun⟩
    rintro _ ⟨⟩
    exact sound

theorem run_stuck (steps : Nat) (h : d.IsTree) (within : c.Within source target) (sound : c.Sound d)
    (failed : (run steps c d).1 = .error (.notFound path)) : Stuck source target path (run steps c d).2 := by
  induction steps generalizing c d with
  | zero =>
    unfold run at failed
    split at failed <;> cases failed
  | succ steps ih =>
    obtain ⟨fills, next⟩ := step_fills h within
    obtain ⟨goes, stuck⟩ := step_sound h within sound
    unfold run at failed ⊢
    split at failed
    · cases failed
    · rename_i going
      rw [if_neg going]
      generalize c.step d = result at fills next goes stuck failed ⊢
      obtain ⟨error | c', d'⟩ := result
      · cases failed
        exact stuck path rfl
      · exact ih fills.tree (next c' rfl) (goes c' rfl) failed

end TreeCopy

/-- Copying a directory that is there misses an entry only where a link dangles, once its target can be made. -/
theorem Disk.copyTree_stuck {d : Disk} {source target path : String} (h : d.IsTree)
    (hsource : d.hasDirectory source = true) (last : (Path.named target).getLast? ≠ some ".")
    (failed : (d.copyTree source target).1 = .error (.notFound path)) :
    TreeCopy.Stuck source target path (d.copyTree source target).2 := by
  refine TreeCopy.run_stuck _ h TreeCopy.within_start ⟨fun pair hp => ?_, nofun⟩ failed
  rw [List.mem_singleton.mp hp]
  obtain ⟨q, hq, -⟩ := look_eq_ok_iff.mp (hasDirectory_iff.mp hsource)
  obtain ⟨hfault, there⟩ := locate_eq_ok_iff.mp hq
  refine ⟨?_, by rw [there]; rfl, last⟩
  rintro rfl
  cases hfault

end ServingLifecycle
