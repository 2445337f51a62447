import ServingLifecycle.Proofs.Disk.Growth
/-!
# Making directories

Making a directory makes those on the way to it that are missing, and nothing else, also when it fails. It never
fails for want of an entry, unless the path ends in a dot.
-/
namespace ServingLifecycle.Disk

variable {d d' : Disk} {loc parent q : Location} {name path : String} {names names' front above : List String}
  {copies : String → String → Prop} {fault : SystemFault} {result : Except SystemFault Unit × Disk}

/-- A directory is made in a directory that is there, under a name that is free. -/
theorem makeNamed_eq_ok (h : d.makeNamed loc names = .ok d') : ∃ front name parent,
    Path.trim names = front ++ [name] ∧ d.Reaches loc front parent ∧ ¬(name = "." ∨ name = "..")
      ∧ d.nameExceeds name = false ∧ d.get? (parent ++ [name]) = none
      ∧ d' = d.put (parent ++ [name]) .directory := by
  unfold makeNamed at h
  dsimp only at h
  rw [← Path.trim] at h
  split at h
  · cases h
  · rename_i name hlast
    split at h
    · cases h
    · cases h
    · rename_i parent hparent
      split at h
      · cases h
      · split at h
        · cases h
        · split at h
          · cases h
          · rename_i hdots hlong hfree
            cases h
            refine ⟨(Path.trim names).dropLast, name, parent, ?_, hparent, hdots, by simpa using hlong, ?_, rfl⟩
            · exact (List.dropLast_append_getLast? name hlast).symm
            · simpa using hfree

/-- An entry is missing only if one on the way is. -/
theorem makeNamed_eq_error (failed : d.makeNamed loc names = .error fault) (missing : fault.isNotFound = true) :
    Path.trim names ≠ [] ∧ ¬∃ q, d.Reaches loc (Path.trim names).dropLast q := by
  unfold makeNamed at failed
  dsimp only at failed
  rw [← Path.trim] at failed
  split at failed
  · cases failed
    cases missing
  · rename_i name hlast
    refine ⟨fun e => by simp [e] at hlast, ?_⟩
    rintro ⟨q, there⟩
    split at failed
    · rename_i blocked
      cases blocked.symm.trans there
    · rename_i vacant
      cases vacant.symm.trans there
    · split at failed
      · cases failed
        cases missing
      · split at failed
        · cases failed
          cases missing
        · split at failed <;> cases failed
          cases missing

/-- The one directory that is made is where the path leads. -/
theorem makeNamed_builds (h : d.IsTree) (htrim : Path.trim names = names')
    (hnames : ∀ name ∈ names', Path.IsName name) (hpre : Path.moves names' <+: Path.moves (Path.named path))
    (made : d.makeNamed (d.start path) names = .ok d') :
    d.Builds (Path.Leading path) copies d' ∧ ∃ q, d'.Reaches (d.start path) names' q := by
  obtain ⟨front, name, parent, e, hparent, hdots, hlong, hfree, rfl⟩ := makeNamed_eq_ok made
  obtain rfl := htrim.symm.trans e
  have hname : Path.IsProper name :=
    ⟨hnames name (List.mem_append_right _ List.mem_cons_self), fun e => hdots (.inl e), fun e => hdots (.inr e)⟩
  have hmoves : Path.moves (front ++ [name]) = Path.moves front ++ [name] := by
    rw [Path.moves_append]
    simp [Path.moves, hname.ne_empty, hname.ne_dot]
  rw [hmoves] at hpre
  have hdir := h.directory_of_reaches (h.start path) hparent
  have keeps : d.Keeps (d.put (parent ++ [name]) .directory) := Keeps.put (by simp) (by simp [hfree])
  have tree : (d.put (parent ++ [name]) .directory).IsTree := h.put hname hdir (by simp [hfree])
  have hstart := keeps.directory (h.start path)
  have hnew : (d.put (parent ++ [name]) .directory).get? (parent ++ [name]) = some .directory := by
    rw [get?_put (by simp), if_pos rfl]
  have there := keeps.reaches hparent
  have hlong := (keeps.nameExceeds name).trans hlong
  constructor
  · have hn : ∀ n ∈ Path.moves front ++ [name], Path.IsName n := fun n hn =>
      Path.isName_of_mem_moves_named (hpre.subset hn)
    have leads : (d.put (parent ++ [name]) .directory).LeadsTo
        (Path.below (Path.origin path) (Path.moves front ++ [name])) (parent ++ [name]) := by
      unfold LeadsTo walked
      rw [Path.names_below _ (by simp) hn, Path.named_origin, List.nil_append,
        start_congr ((Path.isAbsolute_below _ hn).trans (Path.isAbsolute_origin path)), keeps.start]
      exact tree.follow_entry hstart ((tree.reaches_moves hstart).mpr there) hname hlong hnew (by simp)
    exact (builds_directory h hname hdir hfree leads).mono
      (fun p hp => ⟨Path.moves front, name, hname, hpre, hp⟩) fun _ _ => id
  · exact ⟨_, tree.reaches_entry hstart there hname hlong hnew⟩

/-- An attempt to make a directory on the way to a path, or the one that the path itself stands for. -/
structure Attempt (path : String) (names : List String) (d : Disk) (result : Except SystemFault Unit × Disk) :
    Prop where
  builds : d.Builds (Path.Leading path) (fun _ _ => False) result.2
  made : result.1 = .ok () → ∃ q, result.2.Reaches (d.start path) names q
  /-- why it may fail for want of an entry -/
  lost : ∀ fault, result.1 = .error fault → fault.isNotFound = true → names.getLast? = some "."

namespace Attempt

theorem ofMade (made : d.Builds (Path.Leading path) (fun _ _ => False) d'
    ∧ ∃ q, d'.Reaches (d.start path) names q) : Attempt path names d (.ok (), d') :=
  ⟨made.1, fun _ => made.2, nofun⟩

/-- A directory that could not be made will do if it is there. -/
theorem orThere {there : Bool} (h : d.IsTree) (found : there = true → ∃ q, d.Reaches (d.start path) names q)
    (lost : fault.isNotFound = true → names.getLast? = some ".") :
    Attempt path names d (if there then (.ok (), d) else (.error fault, d)) := by
  split
  · rename_i hthere
    exact ⟨.refl h, fun _ => found hthere, nofun⟩
  · refine ⟨.refl h, nofun, ?_⟩
    rintro _ ⟨⟩
    exact lost

theorem after (before : d.Builds (Path.Leading path) (fun _ _ => False) d') (attempt : Attempt path names d' result) :
    Attempt path names d result :=
  ⟨before.trans attempt.builds, before.keeps.start path ▸ attempt.made, attempt.lost⟩

end Attempt

theorem makeAncestors_attempt (h : d.IsTree) (hpre : above.reverse <+: Path.moves (Path.named path)) :
    Attempt path above.reverse d (makeAncestors (d.start path) above d) := by
  induction above with
  | nil => exact ⟨.refl h, fun _ => ⟨_, reaches_nil⟩, nofun⟩
  | cons name above ih =>
    rw [List.reverse_cons] at hpre ⊢
    have ancestors := ih ((List.prefix_append _ _).trans hpre)
    have hnames : ∀ n ∈ above.reverse ++ [name], Path.IsName n := fun n hn =>
      Path.isName_of_mem_moves_named (hpre.subset hn)
    have htrim : Path.trim (above.reverse ++ [name]) = above.reverse ++ [name] :=
      Path.trim_eq_self fun n hn => (hnames n hn).ne_empty
    have hmoves : Path.moves (above.reverse ++ [name]) <+: Path.moves (Path.named path) := by
      rwa [Path.moves_eq_self fun n hn => Path.of_mem_moves (hpre.subset hn)]
    unfold makeAncestors
    dsimp only
    cases hfirst : d.makeNamed (d.start path) (above.reverse ++ [name]) with
    | ok d₁ => exact .ofMade (makeNamed_builds h htrim hnames hmoves hfirst)
    | error fault =>
      dsimp only
      by_cases hmissing : fault.isNotFound = true
      · rw [if_pos hmissing]
        generalize makeAncestors (d.start path) above d = result at ancestors ⊢
        obtain ⟨fault | _, d₁⟩ := result
        · exact ⟨ancestors.builds, nofun, fun fault e hm =>
            absurd (ancestors.lost fault e hm) (Path.getLast?_ne_dot ((List.prefix_append _ _).trans hpre))⟩
        · dsimp only
          obtain ⟨q, hq⟩ := ancestors.made rfl
          have tree := ancestors.builds.tree
          have hstart : d₁.start path = d.start path := ancestors.builds.keeps.start path
          rw [← hstart] at hq ⊢
          cases hsecond : d₁.makeNamed (d₁.start path) (above.reverse ++ [name]) with
          | ok d₂ => exact .after ancestors.builds (.ofMade (makeNamed_builds tree htrim hnames hmoves hsecond))
          | error fault =>
            refine .after ancestors.builds (.orThere tree hasNamedDirectory_iff.mp fun hm => ?_)
            obtain ⟨-, gone⟩ := makeNamed_eq_error hsecond hm
            rw [htrim, List.dropLast_concat] at gone
            exact absurd ⟨q, hq⟩ gone
      · rw [if_neg hmissing]
        exact .orThere h hasNamedDirectory_iff.mp fun hm => absurd hm hmissing

theorem makeDirectory_eq_ok (h : d.makeDirectory path = .ok d') :
    d.makeNamed (d.start path) (Path.names path) = .ok d' := by
  unfold makeDirectory at h
  split at h
  · cases h
  · exact h

/-- No text of a path that is not empty makes an entry missing. -/
theorem isNotFound_of_pathFault? (hne : path ≠ "") (hf : d.pathFault? path = some fault) :
    fault.isNotFound = false := by
  unfold pathFault? at hf
  split at hf
  · cases hf
    rfl
  · split at hf
    · cases hf
      rfl
    · cases hf

theorem makeDirectory_builds (h : d.IsTree) (made : d.makeDirectory path = .ok d') :
    d.Builds (Path.Leading path) copies d' ∧ ∃ q, d'.Reaches (d.start path) (Path.named path) q :=
  makeNamed_builds h (Path.trim_names path) (fun _ => Path.isName_of_mem_named) (List.prefix_refl _)
    (makeDirectory_eq_ok made)

/-- If the directory above is there, what hinders a directory is no missing entry. -/
theorem last_of_makeDirectory_eq_error (h : d.IsTree) (hne : path ≠ "")
    (above : d.Reaches (d.start path) (Path.moves (Path.named path)).dropLast q)
    (failed : d.makeDirectory path = .error fault) (missing : fault.isNotFound = true) :
    (Path.named path).getLast? = some "." := by
  have htrim : Path.trim (Path.names path) = Path.named path := Path.trim_names path
  unfold makeDirectory at failed
  split at failed
  · rename_i fault' hf
    cases failed
    rw [isNotFound_of_pathFault? hne hf] at missing
    cases missing
  · obtain ⟨hn, gone⟩ := makeNamed_eq_error failed missing
    rw [htrim] at hn gone
    rcases List.eq_nil_or_concat (Path.named path) with e | ⟨front, name, e⟩
    · exact absurd e hn
    · rw [e, List.concat_eq_append] at above gone ⊢
      by_cases hdot : name = "."
      · simp [hdot]
      · have hm : name ∈ Path.named path := by simp [e]
        have hlast : Path.moves [name] = [name] :=
          Path.moves_eq_self (by simp [(Path.isName_of_mem_named hm).ne_empty, hdot])
        have hmoves : Path.moves (front ++ [name]) = Path.moves front ++ [name] := by
          rw [Path.moves_append, hlast]
        rw [hmoves, List.dropLast_concat, h.reaches_moves (h.start path)] at above
        rw [List.dropLast_concat] at gone
        exact absurd ⟨q, above⟩ gone

theorem makeDirectories_attempt (h : d.IsTree) (path : String) :
    Attempt path (Path.named path) d (d.makeDirectories path) := by
  unfold makeDirectories
  split
  · subst path
    exact ⟨.refl h, fun _ => ⟨_, reaches_nil⟩, nofun⟩
  · rename_i hne
    cases hfirst : d.makeDirectory path with
    | ok d₁ => exact .ofMade (makeDirectory_builds h hfirst)
    | error fault =>
      dsimp only
      by_cases hmissing : fault.isNotFound = true
      · rw [if_pos hmissing]
        generalize e : ((Path.names path).filter fun name => name ≠ "" ∧ name ≠ ".").reverse.drop 1 = above
        have habove : above.reverse = (Path.moves (Path.named path)).dropLast := by
          rw [← e, ← Path.moves_names, List.drop_one, List.tail_reverse, List.reverse_reverse]
          rfl
        have hpre : above.reverse <+: Path.moves (Path.named path) := habove ▸ List.dropLast_prefix _
        have ancestors := makeAncestors_attempt h hpre
        generalize makeAncestors (d.start path) above d = result at ancestors ⊢
        obtain ⟨fault | _, d₁⟩ := result
        · exact ⟨ancestors.builds, nofun, fun fault e hm =>
            absurd (ancestors.lost fault e hm) (Path.getLast?_ne_dot hpre)⟩
        · dsimp only
          obtain ⟨q, hq⟩ := ancestors.made rfl
          have tree := ancestors.builds.tree
          rw [habove, ← ancestors.builds.keeps.start path] at hq
          cases hsecond : d₁.makeDirectory path with
          | ok d₂ => exact .after ancestors.builds (.ofMade (makeDirectory_builds tree hsecond))
          | error fault =>
            exact .after ancestors.builds (.orThere tree tree.reaches_of_hasDirectory
              (last_of_makeDirectory_eq_error tree hne hq hsecond))
      · rw [if_neg hmissing]
        exact .orThere h h.reaches_of_hasDirectory fun hm => absurd hm hmissing

end ServingLifecycle.Disk
