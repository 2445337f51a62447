import ServingLifecycle.Proofs.Disk.Agenda
import ServingLifecycle.Proofs.Disk.Wander
/-!
# How copies end

A copy makes directories where the names of its target, and those of the directories of its source after them, wander
to. If that is never a new place inside the source, it takes each directory of the source once at most and no other, so
it ends. A copy whose target lies in its source finds what it has just made and goes on for as long as paths may grow.
-/
namespace ServingLifecycle.TreeCopy
open ServingLifecycle.Path Disk

variable {d d₁ d' : Disk} {source target : String} {root loc : Location} {a a' : Agenda} {n : Nat}

namespace Agenda

/-- The directory that is taken next. -/
def next? (a : Agenda) : Option (List String) :=
  match a.opened with
  | none => a.pending.head?
  | some _ => none

theorem next?_copy (a : Agenda) (source target : String) :
    (a.copy source target).next? = a.next?.map (below source) := by
  obtain ⟨taken, copied, pending, opened⟩ := a
  cases opened <;> cases pending <;> rfl

theorem mem_pending_of_next? {names : List String} (h : a.next? = some names) : names ∈ a.pending := by
  unfold next? at h
  split at h
  · exact List.mem_of_head? h
  · cases h

theorem Fresh.nodup_taken (fresh : Fresh a.past a.ahead) : (a.taken ++ a.next?.toList).Nodup := by
  refine fresh.nodup.sublist ((List.sublist_append_left _ _).append ?_)
  cases next : a.next? with
  | none => exact List.nil_sublist _
  | some names =>
    have mem := List.mem_append_left (a.opened.elim [] fun dir => dir.2.map fun entry => dir.1 ++ [entry.1])
      (mem_pending_of_next? next)
    exact List.singleton_sublist.mpr mem

theorem Step.taken_eq (s : a.Step source target d₁ a' d') : a'.taken = a.taken ++ a.next?.toList := by
  cases s <;> simp [next?]

/-- A step makes directories only for a directory on the stack. -/
theorem Step.builds (s : Step source target a d₁ a' d') (tree : d₁.IsTree) :
    d₁.Builds (fun path => ∃ names ∈ a.pending, Leading (below target names) path) (fun _ _ => True) d' := by
  cases s with
  | @take _ _ names pending _ _ _ made listed =>
    have builds := (makeDirectories_attempt tree (below target names)).builds
    rw [made] at builds
    exact builds.mono (fun path leading => ⟨names, List.mem_cons_self, leading⟩) fun _ _ => False.elim
  | push => exact .refl tree
  | file other done => exact (copyFile_builds tree done).mono (fun _ => id) fun _ _ _ => trivial
  | close => exact .refl tree

end Agenda

/-- What is left to do in the directory that is open, its closing included. -/
def load (c : TreeCopy) : Nat :=
  c.opened.elim 0 fun dir => dir.entries.length + 1

/-- A step that takes no directory does something in the one that is open. -/
theorem load_lt {c c' : TreeCopy} (going : c.isDone = false) (none : c.next? = none)
    (stepped : c.step d₁ = (.ok c', d')) : c'.load < c.load := by
  obtain ⟨pending, _ | ⟨from', to', _ | ⟨⟨name, node⟩, rest⟩⟩⟩ := c
  · cases pending
    · cases going
    · cases none
  · cases stepped
    exact Nat.one_pos
  · simp only [step, copyEntry] at stepped
    split at stepped
    · cases stepped
      exact Nat.lt_succ_self _
    · split at stepped <;> cases stepped
      exact Nat.lt_succ_self _

/-- The way to the target, or from there to the counterpart of a directory of the source, comes to a new place inside
the source, on the disk as it is. -/
def Nested (d : Disk) (root : Location) (target : String) : Prop :=
  ∃ names walked loc, d.get? (root ++ names) = some .directory ∧ walked <+: moves (named target) ++ names
    ∧ d.Wanders (d.start target) walked loc ∧ root <+: loc ∧ d.get? loc = none

/-- No directory has been made inside the source. -/
def Spared (d : Disk) (root : Location) (d₁ : Disk) : Prop :=
  ∀ loc, root <+: loc → d₁.get? loc = some .directory → d.get? loc = some .directory

/-- A step spares the source, for it makes directories only where the copy has its names from the source. -/
theorem Spared.step (spared : Spared d root d₁) (apart : ¬Nested d root target) (tree : d.IsTree)
    (before : Fills source target d d₁) (fills : Fills source target d d') (original : a.Original d root)
    (s : Agenda.Step source target a d₁ a' d') : Spared d root d' := by
  intro loc inside now
  have builds := s.builds before.tree
  cases old : d₁.get? loc with
  | some node => exact spared loc inside (builds.keeps.was_directory old now)
  | none =>
    obtain ⟨_, ⟨names, pending, leading⟩, leads⟩ := builds.directory old now
    have hdir : d.get? (root ++ names) = some .directory :=
      original.directories names (List.mem_append_right _ pending)
    have proper : ∀ name ∈ names, IsProper name := tree.proper_of_append hdir
    have isName : ∀ name ∈ names, IsName name := fun name hn => (proper name hn).toIsName
    obtain ⟨walked, hpre, wanders⟩ := Wanders.of_leading fills.keeps fills.link fills.tree leading leads now
    rw [named_below target isName, moves_append,
      moves_eq_self fun name hn => ⟨(proper name hn).ne_empty, (proper name hn).ne_dot⟩] at hpre
    rw [start_congr (isAbsolute_below target isName)] at wanders
    exact absurd ⟨names, walked, loc, hdir, hpre, wanders, inside, before.keeps.get?_eq_none old⟩ apart

section
variable (tree : d.IsTree) (located : d.locate source = .ok root) (hdir : d.get? root = some .directory)
  (apart : ¬Nested d root target)
include tree located hdir apart

/-- However far a copy is, what it has taken are directories that its source had when it began, each once. -/
theorem taken_original (n : Nat) : ∃ names : List (List String),
    taken (start source target) d n = names.map (below source) ∧ names.Nodup
      ∧ (∀ names' ∈ names, d.get? (root ++ names') = some .directory)
      ∧ ∀ c d₁, after (start source target) d n = (.ok c, d₁) →
          ∃ a : Agenda, c = a.copy source target ∧ a.taken = names ∧ a.Original d root
            ∧ Agenda.Fresh a.past a.ahead ∧ Spared d root d₁ := by
  have there := tree.reaches_of_leadsTo (locate_eq_ok_iff.mp located).2 hdir
  induction n with
  | zero =>
    refine ⟨[], rfl, List.nodup_nil, fun _ none => absurd none List.not_mem_nil, ?_⟩
    rintro _ _ ⟨⟩
    exact ⟨.start, rfl, rfl, .start hdir, .start, fun _ _ => id⟩
  | succ n ih =>
    obtain ⟨names, htaken, nodup, directories, follows⟩ := ih
    have before := (after_fills tree source target n).1
    cases hafter : after (start source target) d n with
    | mk answer d₁ =>
      cases answer with
      | error error =>
        refine ⟨names, ?_, nodup, directories, ?_⟩
        · simp [taken, hafter, htaken, Except.toOption]
        · rw [after_succ_error hafter]
          rintro _ _ ⟨⟩
      | ok c =>
        obtain ⟨a, rfl, rfl, original, fresh, spared⟩ := follows c d₁ hafter
        refine ⟨a.taken ++ a.next?.toList, ?_, fresh.nodup_taken, fun names' hn => ?_, fun c' d' stepped => ?_⟩
        · rw [taken, htaken, hafter, List.map_append]
          simp only [Except.toOption, Option.bind_some, Agenda.next?_copy]
          cases a.next? <;> rfl
        · rcases List.mem_append.mp hn with hn | hn
          · exact directories names' hn
          · have pending := Agenda.mem_pending_of_next? (by simpa using hn)
            exact original.directories names' (List.mem_append_right _ pending)
        · rw [after_succ_ok hafter] at stepped
          have fills := (after_fills tree source target (n + 1)).1
          rw [after_succ_ok hafter, stepped] at fills
          rw [hafter] at before
          cases going : (a.copy source target).isDone with
          | true =>
            rw [step_of_isDone going] at stepped
            cases stepped
            obtain ⟨hpending, hopened⟩ := Agenda.isDone_iff.mp going
            exact ⟨a, rfl, by simp [Agenda.next?, hopened, hpending], original, fresh, spared⟩
          | false =>
            obtain ⟨a', rfl, s⟩ := Agenda.step_cases going stepped
            have spared' := spared.step apart tree before fills original s
            exact ⟨a', rfl, s.taken_eq, original.step s fills.tree fills.keeps there spared', s.fresh fills.tree fresh,
              spared'⟩

theorem length_taken_le (n : Nat) : (taken (start source target) d n).length ≤ d.entries.length + 1 := by
  obtain ⟨names, htaken, nodup, directories, -⟩ := taken_original tree located hdir apart n
  rw [htaken, List.length_map]
  refine length_le_entries (q := root) nodup fun names' hn missing => ?_
  rw [directories names' hn] at missing
  cases missing

/-- From wherever a copy has come it comes to an end: there are only so many directories to take, and in the one that
is open there is less and less to do. -/
theorem exists_end {c : TreeCopy} {d₁ : Disk} (n : Nat) (reached : after (start source target) d n = (.ok c, d₁)) :
    ∃ m, ∀ c, (after (start source target) d m).1 = .ok c → c.isDone = true := by
  cases going : c.isDone with
  | true =>
    refine ⟨n, ?_⟩
    rw [reached]
    rintro _ ⟨⟩
    exact going
  | false =>
    cases stepped : c.step d₁ with
    | mk answer d₂ =>
      have next := (after_succ_ok reached).trans stepped
      cases answer with
      | error error =>
        refine ⟨n + 1, ?_⟩
        rw [next]
        nofun
      | ok c' =>
        have htaken : taken (start source target) d (n + 1) = taken (start source target) d n ++ c.next?.toList := by
          rw [taken, reached]
          rfl
        have bound := length_taken_le tree located hdir apart (n + 1)
        have load : c.next? = none → c'.load < c.load := fun none => load_lt going none stepped
        exact exists_end (n + 1) next
termination_by (d.entries.length + 1 - (taken (start source target) d n).length, c.load)
decreasing_by
  rw [htaken, List.length_append] at bound ⊢
  cases next : c.next? with
  | none => exact Prod.Lex.right _ (load next)
  | some path =>
    rw [next] at bound
    exact Prod.Lex.left _ _ (Nat.sub_lt_sub_left bound (Nat.lt_succ_self _))

end

/-- A copy that is not nested comes to an end, by success or failure, and takes no directory but those that the source
had at the start, none of them twice. How long paths may be does not matter. -/
theorem ends_unless_nested (tree : d.IsTree) (located : d.locate source = .ok root)
    (hdir : d.get? root = some .directory) (apart : ¬Nested d root target) :
    (∃ n, ∀ c, (after (start source target) d n).1 = .ok c → c.isDone = true)
      ∧ ∀ n, (taken (start source target) d n).Nodup
        ∧ ∀ path ∈ taken (start source target) d n, ∃ names, path = below source names
          ∧ d.get? (root ++ names) = some .directory := by
  refine ⟨exists_end tree located hdir apart 0 rfl, fun n => ?_⟩
  obtain ⟨places, htaken, nodup, directories, -⟩ := taken_original tree located hdir apart n
  have isName (names : List String) (hn : names ∈ places) : ∀ name ∈ names, IsName name := fun name hm =>
    (tree.proper_of_append (directories names hn) name hm).toIsName
  rw [htaken]
  refine ⟨nodup.map_on fun names hn names' hn' e => ?_, fun path hp => ?_⟩
  · have same := congrArg named e
    rwa [named_below source (isName names hn), named_below source (isName names' hn'),
      List.append_cancel_left_eq] at same
  · obtain ⟨names, hn, rfl⟩ := List.mem_map.mp hp
    exact ⟨names, rfl, directories names hn⟩

/-- A disk with directories in one another and a target that has one of them already, as a link to beside it. -/
def branched : Disk where
  entries := [(["a"], .directory), (["a", "b"], .directory), (["a", "b", "c"], .directory), (["e"], .directory),
    (["t"], .directory), (["t", "b"], .link "../e")]
  home := []
  limits := ⟨none, none⟩

theorem isTree_branched : branched.IsTree :=
  isTree_of_entries (by decide) (by decide) rfl

/-- The names of the directories lead to where the link leads. -/
theorem not_nested_branched : ¬Nested branched ["a"] "t" := by
  rintro ⟨names, walked, loc, hdir, hpre, wanders, inside, -⟩
  have hnames : ["t"] ++ names <+: ["t", "b", "c"] := by
    have mem := mem_entries_of_get? hdir (by simp)
    simp only [branched, List.singleton_append, List.mem_cons, Prod.mk.injEq, List.cons.injEq, true_and, and_true]
      at mem
    rcases mem with rfl | rfl | rfl | mem
    · decide
    · decide
    · decide
    · simp at mem
  have at_t {rest : List String} (h : branched.Wanders [] ("t" :: rest) loc) : branched.Wanders ["t"] rest loc :=
    (wanders_cons (by decide) (by decide)).mp h
  have at_e {rest : List String} (h : branched.Wanders ["t"] ("b" :: rest) loc) : branched.Wanders ["e"] rest loc := by
    have link : branched.Wanders ["t"] (".." :: "e" :: rest) loc := (wanders_cons (by decide) (by decide)).mp h
    exact (wanders_cons (by decide) (by decide)).mp (wanders_up.mp link)
  have at_c (h : branched.Wanders ["e"] ["c"] loc) : loc = ["e", "c"] :=
    wanders_nil.mp ((wanders_cons (by decide) (by decide)).mp h)
  have along := hpre.trans hnames
  simp only [List.prefix_cons_iff, List.prefix_nil] at along
  rcases along with rfl | ⟨_, rfl, rfl | ⟨_, rfl, rfl | ⟨_, rfl, rfl⟩⟩⟩
  · obtain rfl := wanders_nil.mp wanders
    exact absurd inside (by decide)
  · obtain rfl := wanders_nil.mp (at_t wanders)
    exact absurd inside (by decide)
  · obtain rfl := wanders_nil.mp (at_e (at_t wanders))
    exact absurd inside (by decide)
  · obtain rfl := at_c (at_e (at_t wanders))
    exact absurd inside (by decide)

/-- Copied beside itself, a directory is taken with those in it, each once, though the target leads away by a link. -/
theorem ends_unless_nested_branched : (∃ n, ∀ c, (after (start "a" "t") branched n).1 = .ok c → c.isDone = true)
    ∧ (∀ n, (taken (start "a" "t") branched n).Nodup
      ∧ ∀ path ∈ taken (start "a" "t") branched n, ∃ names, path = below "a" names
        ∧ branched.get? (["a"] ++ names) = some .directory)
    ∧ taken (start "a" "t") branched 9 = ["a", "a/b", "a/b/c"] := by
  obtain ⟨ends, original⟩ :=
    ends_unless_nested isTree_branched (show branched.locate "a" = .ok ["a"] from rfl) rfl not_nested_branched
  exact ⟨ends, original, rfl⟩

/-! ### A copy into its own source -/

/-- A disk with one empty directory, on which names and paths may be as long as they like. -/
def hollow : Disk where
  entries := [(["a"], .directory)]
  home := []
  limits := ⟨none, none⟩

theorem isTree_hollow : hollow.IsTree :=
  isTree_of_entries (by decide) (by decide) rfl

theorem get?_hollow (loc : Location) : hollow.get? loc = if loc <+: ["a"] then some .directory else none := by
  simp only [List.prefix_cons_iff, List.prefix_nil, exists_eq_right]
  by_cases root : loc = []
  · simp [root, get?]
  · by_cases there : loc = ["a"]
    · simp [there, get?, hollow]
    · simp [root, there, get?, hollow, List.lookup_cons, beq_false_of_ne there]

variable {c : TreeCopy} {k m : Nat}

/-- A copy that is over stays as it is. -/
theorem after_of_le (ended : ∀ c', (after c d n).1 = .ok c' → c'.isDone = true) (h : n ≤ m) :
    after c d m = after c d n := by
  induction m, h using Nat.le_induction with
  | base => rfl
  | succ m _ ih =>
    rw [← ih] at ended ⊢
    cases reached : after c d m with
    | mk answer d₁ =>
      cases answer with
      | error error => exact after_succ_error reached
      | ok c' =>
        rw [reached] at ended
        rw [after_succ_ok reached, step_of_isDone (ended c' rfl)]

/-- The names of a directory in itself, so many times over. -/
def shaft (k : Nat) : List String :=
  List.replicate k "b"

/-- A disk on which the directory holds another, which holds another, and so on, and nothing else. -/
structure Dug (k : Nat) (d : Disk) : Prop where
  tree : d.IsTree
  home : d.home = []
  limits : d.limits = ⟨none, none⟩
  get? : ∀ loc, d.get? loc = if loc <+: "a" :: shaft k then some .directory else none

theorem isProper_shaft : ∀ name ∈ "a" :: shaft k, IsProper name := by
  intro name hn
  rcases List.mem_cons.mp hn with rfl | hn
  · decide
  · rw [List.eq_of_mem_replicate hn]
    decide

theorem isName_shaft : ∀ name ∈ shaft k, IsName name := fun name hn =>
  (isProper_shaft name (List.mem_cons_of_mem _ hn)).toIsName

/-- No path down is at fault by its text. -/
theorem Dug.pathFault? (dug : Dug k d) {base : String} (hbase : '\x00' ∉ base.toList) (hne : base ≠ "") (m : Nat) :
    d.pathFault? (below base (shaft m)) = none := by
  have text : '\x00' ∉ (below base (shaft m)).toList ∧ below base (shaft m) ≠ "" := by
    induction m with
    | zero => exact ⟨hbase, hne⟩
    | succ m ih =>
      rw [shaft, List.replicate_succ', below_append]
      refine ⟨?_, child_ne_empty _ (show IsProper "b" by decide).toIsName⟩
      have h := ih.1
      rw [shaft] at h
      unfold child
      split
      · decide
      · split <;> simp [h]
  unfold Disk.pathFault?
  rw [dug.limits]
  simp [text]

theorem Dug.clear (dug : Dug k d) (loc : Location) : d.get? loc = none ∨ d.get? loc = some .directory := by
  rw [dug.get?]
  split <;> simp

/-- The way to the next directory down. -/
def Dug.way (dug : Dug k d) : d.Way [] ("a" :: shaft (k + 1)) where
  front := []
  back := "a" :: shaft (k + 1)
  base := []
  parts := rfl
  reached := reaches_nil
  short _ _ := by
    unfold nameExceeds
    rw [dug.limits]
    rfl
  clear _ _ := dug.clear _

theorem Dug.mem_places (dug : Dug k d) {loc : Location} : loc ∈ dug.way.places ↔ loc <+: "a" :: shaft (k + 1) := by
  have straight (passed : List String) (hp : passed <+: "a" :: shaft (k + 1)) : along [] passed = passed :=
    along_eq_append [] fun name hn => (isProper_shaft name (hp.subset hn)).ne_up
  rw [Way.mem_places]
  constructor
  · rintro ⟨passed, hp, rfl⟩
    exact (straight passed hp).symm ▸ hp
  · intro hp
    exact ⟨loc, hp, straight loc hp⟩

theorem Dug.deepen (dug : Dug k d) :
    ∃ d', d.makeDirectories (below "a/b" (shaft k)) = (.ok (), d') ∧ Dug (k + 1) d' := by
  have names : named (below "a/b" (shaft k)) = "a" :: shaft (k + 1) := named_below _ isName_shaft
  have start : d.start (below "a/b" (shaft k)) = [] :=
    (start_congr (isAbsolute_below "a/b" isName_shaft)).trans dug.home
  have moving : moves (named (below "a/b" (shaft k))) = "a" :: shaft (k + 1) := by
    rw [names, moves_eq_self fun name hn => ⟨(isProper_shaft name hn).ne_empty, (isProper_shaft name hn).ne_dot⟩]
  obtain ⟨d', made, whole⟩ := dug.way.makeDirectories dug.tree start moving
    (Or.inr (dug.pathFault? (by decide) (by decide) k))
    (fun dot => absurd rfl (isProper_shaft "." (names ▸ List.mem_of_getLast? dot)).ne_dot)
  refine ⟨d', made, whole.tree, whole.keeps.home.trans dug.home, whole.keeps.limits.trans dug.limits, fun loc => ?_⟩
  rw [whole.get?]
  by_cases hp : loc <+: "a" :: shaft (k + 1)
  · rw [if_pos hp, Way.made_of_mem _ (dug.mem_places.mpr hp)]
  · rw [if_neg hp, Way.made_of_notMem _ fun hm => hp (dug.mem_places.mp hm), dug.get?, if_neg]
    refine fun shallow => hp (shallow.trans ?_)
    rw [shaft, shaft, List.replicate_succ', ← List.cons_append]
    exact List.prefix_append _ _

/-- The directory above the last one lists that one and nothing else. -/
theorem Dug.list (dug : Dug (k + 1) d) : d.list (below "a" (shaft k)) = .ok [("b", .directory)] := by
  have next : "a" :: shaft (k + 1) = "a" :: shaft k ++ ["b"] := by
    rw [shaft, shaft, List.replicate_succ', ← List.cons_append]
  have inner : d.get? ("a" :: shaft k) = some .directory := by
    rw [dug.get?, next, if_pos (List.prefix_append _ _)]
  have names : named (below "a" (shaft k)) = "a" :: shaft k := named_below _ isName_shaft
  have start : d.start (below "a" (shaft k)) = [] := (start_congr (isAbsolute_below "a" isName_shaft)).trans dug.home
  have located : d.locate (below "a" (shaft k)) = .ok ("a" :: shaft k) := by
    refine locate_eq_ok_iff.mpr ⟨dug.pathFault? (by decide) (by decide) k, dug.tree.leadsTo_of_reaches ?_⟩
    rw [names, start]
    rcases dug.tree.reaches_down (get?_nil d) reaches_nil isProper_shaft inner with there | ⟨⟨name, -, long⟩, -⟩
    · exact there
    · unfold nameExceeds at long
      rw [dug.limits] at long
      cases long
  have children : d.children ("a" :: shaft k) = [("b", .directory)] := by
    refine List.perm_singleton.mp ((List.perm_ext_iff_of_nodup ?_ (List.nodup_singleton _)).mpr ?_)
    · exact (dug.tree.children_nodup _).of_map
    · rintro ⟨name, node⟩
      have last : "a" :: shaft k ++ [name] <+: "a" :: shaft k ++ ["b"] ↔ name = "b" := by
        rw [List.prefix_append_right_inj]
        simp
      rw [dug.tree.mem_children_iff, dug.get?, next, List.mem_singleton, Prod.mk.injEq]
      split
      · rename_i h
        simp [last.mp h, eq_comm]
      · rename_i h
        simp [mt last.mpr h]
  unfold Disk.list
  rw [located]
  dsimp only
  rw [if_pos inner, children]

/-- A copy that is about to take the last directory of a disk like that, to put it into itself. -/
def digging (k : Nat) : TreeCopy :=
  Agenda.copy "a" "a/b" ⟨[], [], [shaft k], none⟩

/-- After three steps the copy is at the same point one directory further down. -/
theorem Dug.dig (dug : Dug k d) (at' : after c d₁ n = (.ok (digging k), d)) :
    ∃ d', after c d₁ (n + 3) = (.ok (digging (k + 1)), d') ∧ Dug (k + 1) d' := by
  obtain ⟨d', made, deeper⟩ := dug.deepen
  have next : shaft k ++ ["b"] = shaft (k + 1) := List.replicate_succ'.symm
  have take : (digging k).step d =
      (.ok (Agenda.copy "a" "a/b" ⟨[shaft k], [], [], some (shaft k, [("b", .directory)])⟩), d') :=
    (Agenda.Step.take made deeper.list).step_eq
  have push : (Agenda.copy "a" "a/b" ⟨[shaft k], [], [], some (shaft k, [("b", .directory)])⟩).step d' =
      (.ok (Agenda.copy "a" "a/b" ⟨[shaft k], [], [shaft (k + 1)], some (shaft k, [])⟩), d') :=
    next ▸ Agenda.Step.push.step_eq
  have taken := (after_succ_ok at').trans take
  have pushed := (after_succ_ok taken).trans push
  exact ⟨d', (after_succ_ok pushed).trans Agenda.Step.close.step_eq, deeper⟩

/-- A copy into a new directory of its own source never ends where paths may be of any length. -/
theorem nested_never_ends : ¬∃ n, ∀ c, (after (start "a" "a/b") hollow n).1 = .ok c → c.isDone = true := by
  have digs (k : Nat) : ∃ d, after (start "a" "a/b") hollow (3 * k) = (.ok (digging k), d) ∧ Dug k d := by
    induction k with
    | zero => exact ⟨hollow, rfl, isTree_hollow, rfl, rfl, get?_hollow⟩
    | succ k ih =>
      obtain ⟨d, at', dug⟩ := ih
      exact dug.dig at'
  rintro ⟨n, ended⟩
  -- by then it has not ended, for every three steps it only gets one directory further
  obtain ⟨d, at', -⟩ := digs n
  have same := after_of_le ended (Nat.le_mul_of_pos_left n (Nat.succ_pos 2))
  rw [at'] at same
  have done := ended (digging n) (congrArg Prod.fst same.symm)
  cases done

end ServingLifecycle.TreeCopy
