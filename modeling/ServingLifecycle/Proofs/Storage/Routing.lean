import Mathlib.Data.List.Induction
import ServingLifecycle.Storage
/-!
# Routing

Of the routes that match a uri storage takes the one of the greatest priority, among those the one with the longest
scheme, and among those the one that was registered first. Storage sorts its routes again with each registration and
takes the first that matches; that this is the best one rests on sorting being stable. So how registrations stand to
each other matters only where they share a scheme and a priority.
-/
namespace ServingLifecycle

namespace Uri

theorem occursIn_iff {part text : List Char} : occursIn part text = true ↔ part <:+: text := by
  induction text with
  | nil => simp [occursIn]
  | cons c text ih => simp [occursIn, List.infix_cons_iff, ih]

theorem hasScheme_iff {uri : String} : hasScheme uri = true ↔ "://".toList <:+: uri.toList :=
  occursIn_iff

theorem startsWith_iff {uri start : String} : startsWith uri start = true ↔ start.toList <+: uri.toList :=
  List.isPrefixOf_iff_prefix

/-- Of two starts of one text the one with fewer characters has fewer bytes, too. -/
theorem length_le_iff {a b : String} {text : List Char} (ha : a.toList <+: text) (hb : b.toList <+: text) :
    a.length ≤ b.length ↔ a.utf8ByteSize ≤ b.utf8ByteSize := by
  have grows {a b : String} (h : a.toList <+: b.toList) : ∃ rest, b = a ++ rest := by
    obtain ⟨rest, h⟩ := h
    exact ⟨String.ofList rest, String.toList_inj.mp (by simp [← h])⟩
  constructor
  · intro h
    obtain ⟨rest, rfl⟩ := grows (List.prefix_of_prefix_length_le ha hb (by
      rwa [String.length_toList, String.length_toList]))
    rw [String.utf8ByteSize_append]
    omega
  · intro h
    by_contra longer
    obtain ⟨rest, rfl⟩ := grows (List.prefix_of_prefix_length_le hb ha (by
      rw [String.length_toList, String.length_toList]
      omega))
    have : rest ≠ "" := by
      rintro rfl
      simp at longer
    have := mt String.utf8ByteSize_eq_zero_iff.mp this
    rw [String.utf8ByteSize_append] at h
    omega

end Uri

/-- A stable sort: of two that may stand in either order the one that stood first stands first. -/
theorem pairwise_mergeSort_of_ties {α : Type} {le : α → α → Bool} {R : α → α → Prop} {l : List α}
    (trans : ∀ a b c, le a b = true → le b c = true → le a c = true) (total : ∀ a b, (le a b || le b a) = true)
    (refl : ∀ a, R a a) (h : l.Pairwise fun a b => le b a = true → R a b) :
    (l.mergeSort le).Pairwise fun a b => le a b = true ∧ (le b a = true → R a b) := by
  have sorted := List.pairwise_mergeSort (List.zipIdxLE_trans trans) (List.zipIdxLE_total total) l.zipIdx
  rw [← List.mergeSort_zipIdx, List.pairwise_map]
  refine sorted.imp_of_mem fun {p q} hp hq hle => ?_
  -- the numbers are places in the list, where elements stand as `h` says
  obtain ⟨hi, ei⟩ := List.getElem?_eq_some_iff.mp (List.mem_zipIdx_iff_getElem?.mp (List.mem_mergeSort.mp hp))
  obtain ⟨hj, ej⟩ := List.getElem?_eq_some_iff.mp (List.mem_zipIdx_iff_getElem?.mp (List.mem_mergeSort.mp hq))
  unfold List.zipIdxLE at hle
  split at hle
  · refine ⟨‹_›, fun tie => ?_⟩
    rw [if_pos tie, decide_eq_true_iff] at hle
    rcases Nat.eq_or_lt_of_le hle with e | hlt
    · have same : p.1 = q.1 := by rw [← ei, ← ej]; congr
      exact same ▸ refl _
    · have := List.pairwise_iff_getElem.mp h p.2 q.2 hi hj hlt
      rw [ei, ej] at this
      exact this tie
  · cases hle

variable {σ : Type}

namespace Route

variable {a b c route : Route σ} {uri : String}

theorem before_iff : a.before b = true ↔ b.priority < a.priority
    ∨ a.priority = b.priority ∧ b.scheme.utf8ByteSize ≤ a.scheme.utf8ByteSize := by
  simp [before]

theorem before_trans (hab : a.before b = true) (hbc : b.before c = true) : a.before c = true := by
  rw [before_iff] at *
  omega

theorem before_total (a b : Route σ) : (a.before b || b.before a) = true := by
  rw [Bool.or_eq_true, before_iff, before_iff]
  omega

/-- A route matches the uris that start with its scheme; that of bare paths matches no uri with `://` in it. -/
def Matches (route : Route σ) (uri : String) : Prop :=
  route.scheme.toList <+: uri.toList ∧ ¬(route.scheme = "" ∧ "://".toList <:+: uri.toList)

theorem takes_iff : route.takes uri = true ↔ route.Matches uri := by
  unfold takes Matches
  rw [Bool.and_eq_true, Uri.startsWith_iff, ← Uri.hasScheme_iff, and_comm]
  simp [imp_iff_not_or]

/-- `a` has the greater priority, or else the longer scheme, or else the earlier registration. -/
def Outranks (a b : Route σ) : Prop :=
  b.priority < a.priority ∨ a.priority = b.priority ∧
    (b.scheme.length < a.scheme.length ∨ a.scheme.length = b.scheme.length ∧ a.owner < b.owner)

theorem Outranks.asymm (h : a.Outranks b) : ¬b.Outranks a := by
  unfold Outranks at *
  omega

theorem Matches.scheme_eq (ha : a.Matches uri) (hb : b.Matches uri) (h : a.scheme.length = b.scheme.length) :
    a.scheme = b.scheme := by
  rw [← String.length_toList, ← String.length_toList] at h
  exact String.toList_inj.mp ((List.prefix_of_prefix_length_le ha.1 hb.1 (Nat.le_of_eq h)).eq_of_length h)

end Route

namespace Storage

variable {registrations registrations' : List (Filesystem σ × Int)} {s : Storage σ} {fs : Filesystem σ} {priority : Int}
  {route other a b : Route σ} {uri : String}

theorem mem_routes_register : route ∈ (s.register fs priority).routes ↔
    route ∈ s.routes ∨ ∃ scheme ∈ fs.schemes, ⟨scheme, priority, s.registered, fs⟩ = route := by
  unfold register
  rw [List.mem_mergeSort, List.mem_append, List.mem_map]

/-- One of the registrations offers the route: a scheme that its filesystem names, with its priority and its place
among the registrations. -/
def Offers (registrations : List (Filesystem σ × Int)) (route : Route σ) : Prop :=
  registrations[route.owner]? = some (route.filesystem, route.priority) ∧ route.scheme ∈ route.filesystem.schemes

theorem offers_concat : Offers (registrations ++ [(fs, priority)]) route ↔
    Offers registrations route ∨ ∃ scheme ∈ fs.schemes, ⟨scheme, priority, registrations.length, fs⟩ = route := by
  obtain ⟨scheme, priority', owner, fs'⟩ := route
  unfold Offers
  rcases Nat.lt_trichotomy owner registrations.length with h | rfl | h
  · simp [List.getElem?_append_left h, Nat.ne_of_gt h]
  · simp
    grind
  · have beyond : (registrations ++ [(fs, priority)])[owner]? = none :=
      List.getElem?_eq_none (by rw [List.length_append]; exact h)
    have behind : registrations[owner]? = none := List.getElem?_eq_none (Nat.le_of_lt h)
    simp [beyond, behind, Nat.ne_of_lt h]

/-- Routes of one registration have its filesystem and its priority. -/
theorem Offers.eq (ha : Offers registrations a) (hb : Offers registrations b) (owner : a.owner = b.owner)
    (scheme : a.scheme = b.scheme) : a = b := by
  obtain ⟨h, -⟩ := ha
  rw [owner, hb.1] at h
  obtain ⟨⟩ := a
  obtain ⟨⟩ := b
  simp_all

/-- The routes are those that the registrations offer, in the order in which they are to be tried. -/
structure Arranged (registrations : List (Filesystem σ × Int)) (s : Storage σ) : Prop where
  registered : s.registered = registrations.length
  mem_iff : ∀ route, route ∈ s.routes ↔ Offers registrations route
  ordered : s.routes.Pairwise fun a b => a.before b = true ∧ (b.before a = true → a.owner ≤ b.owner)

theorem Arranged.register (h : Arranged registrations s) (fs : Filesystem σ) (priority : Int) :
    Arranged (registrations ++ [(fs, priority)]) (s.register fs priority) where
  registered := by simp [Storage.register, h.registered]
  mem_iff route := by rw [mem_routes_register, offers_concat, h.mem_iff, h.registered]
  ordered := by
    refine pairwise_mergeSort_of_ties (R := fun a b : Route σ => a.owner ≤ b.owner) (fun _ _ _ => Route.before_trans)
      Route.before_total (fun _ => Nat.le_refl _) (List.pairwise_append.mpr ⟨?_, ?_, ?_⟩)
    · exact h.ordered.imp And.right
    · exact List.pairwise_map.mpr (List.pairwise_of_forall fun _ _ _ => Nat.le_refl _)
    · intro a ha b hb _
      obtain ⟨scheme, -, rfl⟩ := List.mem_map.mp hb
      obtain ⟨hlt, -⟩ := List.getElem?_eq_some_iff.mp ((h.mem_iff a).mp ha).1
      exact h.registered ▸ Nat.le_of_lt hlt

theorem ofList_concat (registrations : List (Filesystem σ × Int)) (fs : Filesystem σ) (priority : Int) :
    ofList (registrations ++ [(fs, priority)]) = (ofList registrations).register fs priority :=
  List.foldl_append

theorem arranged_ofList (registrations : List (Filesystem σ × Int)) :
    Arranged registrations (ofList registrations) := by
  induction registrations using List.reverseRecOn with
  | nil => exact ⟨rfl, by simp [ofList, empty, Offers], List.Pairwise.nil⟩
  | append_singleton registrations last ih =>
    rw [ofList_concat]
    exact ih.register last.1 last.2

/-- The route is offered and matches the uri, and it outranks all others that do. -/
structure IsBest (registrations : List (Filesystem σ × Int)) (uri : String) (route : Route σ) : Prop where
  offered : Offers registrations route
  fits : route.Matches uri
  outranks : ∀ other, Offers registrations other → other.Matches uri → other = route ∨ route.Outranks other

theorem IsBest.eq (h : IsBest registrations uri route) (h' : IsBest registrations uri other) : other = route := by
  rcases h.outranks other h'.offered h'.fits with e | above
  · exact e
  · exact ((h'.outranks route h.offered h.fits).resolve_right above.asymm).symm

/-- Of two that match a uri the one that is tried first outranks the other. -/
theorem outranks_of_before (ha : Offers registrations a) (hb : Offers registrations b) (fa : a.Matches uri)
    (fb : b.Matches uri) (before : a.before b = true) (tie : b.before a = true → a.owner ≤ b.owner) :
    b = a ∨ a.Outranks b := by
  have sizes := Uri.length_le_iff fb.1 fa.1
  have sizes' := Uri.length_le_iff fa.1 fb.1
  rw [Route.before_iff] at before tie
  unfold Route.Outranks
  by_cases same : a.priority = b.priority ∧ a.scheme.length = b.scheme.length ∧ a.owner = b.owner
  · exact Or.inl (hb.eq ha same.2.2.symm (fb.scheme_eq fa same.2.1.symm))
  · right
    omega

theorem isBest_of_find (h : Arranged registrations s) (found : s.route? uri = some route) :
    IsBest registrations uri route := by
  obtain ⟨takes, front, back, split, passed⟩ := List.find?_eq_some_iff_append.mp found
  have offered : ∀ r ∈ front ++ route :: back, Offers registrations r := fun r hr => (h.mem_iff r).mp (split ▸ hr)
  have fits := Route.takes_iff.mp takes
  refine ⟨offered route (by simp), fits, fun other ho fo => ?_⟩
  have hm := (h.mem_iff other).mpr ho
  have ordered := h.ordered
  rw [split] at hm ordered
  rcases List.mem_append.mp hm with hm | hm
  · have := passed other hm
    simp [Route.takes_iff.mpr fo] at this
  · rcases List.mem_cons.mp hm with rfl | hm
    · exact Or.inl rfl
    · obtain ⟨before, tie⟩ := (List.pairwise_cons.mp (List.pairwise_append.mp ordered).2.1).1 other hm
      exact outranks_of_before (offered route (by simp)) ho fits fo before tie

theorem resolve_eq_ok_iff_isBest : (ofList registrations).resolve uri = .ok route ↔ IsBest registrations uri route := by
  have arranged := arranged_ofList registrations
  rw [resolve_eq_ok_iff]
  refine ⟨isBest_of_find arranged, fun best => ?_⟩
  have some : ((ofList registrations).route? uri).isSome = true :=
    List.find?_isSome.mpr ⟨route, (arranged.mem_iff route).mpr best.offered, Route.takes_iff.mpr best.fits⟩
  obtain ⟨other, found⟩ := Option.isSome_iff_exists.mp some
  rw [found, best.eq (isBest_of_find arranged found)]

theorem resolve_eq_error_iff_none {error : StorageError} : (ofList registrations).resolve uri = .error error ↔
    (∀ route, Offers registrations route → ¬route.Matches uri) ∧ error = .unsupportedScheme uri := by
  rw [resolve_eq_error_iff]
  simp only [(arranged_ofList registrations).mem_iff, ← Route.takes_iff, Bool.not_eq_true]

/-- Those of some registrations that name a scheme and have a priority, in their order. -/
def sharing (scheme : String) (priority : Int) (registrations : List (Filesystem σ × Int)) :
    List (Filesystem σ × Int) :=
  registrations.filter fun r => scheme ∈ r.1.schemes ∧ r.2 = priority

theorem mem_sharing {r : Filesystem σ × Int} {scheme : String} :
    r ∈ sharing scheme priority registrations ↔ r ∈ registrations ∧ scheme ∈ r.1.schemes ∧ r.2 = priority := by
  simp [sharing]

/-- The first of them is the one that offers a route with that scheme and priority before any other does. -/
theorem head_sharing_iff {scheme : String} : (sharing scheme priority registrations).head? = some (fs, priority) ↔
    ∃ n, Offers registrations ⟨scheme, priority, n, fs⟩
      ∧ ∀ other, Offers registrations other → other.scheme = scheme → other.priority = priority → n ≤ other.owner := by
  rw [sharing, List.head?_filter, List.find?_eq_some_iff_getElem]
  constructor
  · rintro ⟨names, n, hn, e, passed⟩
    refine ⟨n, ⟨List.getElem?_eq_some_iff.mpr ⟨hn, e⟩, by simpa using names⟩, fun other ho es ep => ?_⟩
    by_contra earlier
    obtain ⟨_, eo⟩ := List.getElem?_eq_some_iff.mp ho.1
    have := passed other.owner (by omega)
    rw [eo, ← es, ← ep] at this
    simp [ho.2] at this
  · rintro ⟨n, ⟨at', names⟩, first⟩
    obtain ⟨hn, e⟩ := List.getElem?_eq_some_iff.mp at'
    refine ⟨by simpa using names, n, hn, e, fun j hj => ?_⟩
    by_contra found
    simp only [Bool.not_eq_true', decide_eq_false_iff_not, not_not] at found
    have hj' : j < registrations.length := Nat.lt_trans hj hn
    have offered : Offers registrations ⟨scheme, priority, j, registrations[j].1⟩ :=
      ⟨List.getElem?_eq_some_iff.mpr ⟨hj', by rw [← found.2]⟩, found.1⟩
    exact absurd (first _ offered rfl rfl) (Nat.not_le_of_lt hj)

/-- The best route is the first one of its scheme and priority. -/
theorem IsBest.head_sharing (h : IsBest registrations uri route) :
    (sharing route.scheme route.priority registrations).head? = some (route.filesystem, route.priority) := by
  refine head_sharing_iff.mpr ⟨route.owner, h.offered, fun other ho es ep => ?_⟩
  rcases h.outranks other ho (by rw [Route.Matches, es]; exact h.fits) with rfl | above
  · exact Nat.le_refl _
  · have : other.scheme.length = route.scheme.length := by rw [es]
    unfold Route.Outranks at above
    omega

/-- Registrations that stand to each other alike wherever they share a scheme and a priority have best routes with the
same filesystem. -/
theorem IsBest.transfer (h : IsBest registrations uri route)
    (same : ∀ scheme priority, sharing scheme priority registrations = sharing scheme priority registrations') :
    ∃ route', IsBest registrations' uri route' ∧ route'.filesystem = route.filesystem := by
  have first := h.head_sharing
  rw [same, head_sharing_iff] at first
  obtain ⟨n, offered, first⟩ := first
  refine ⟨_, ⟨offered, h.fits, fun other ho fo => ?_⟩, rfl⟩
  by_cases key : other.scheme = route.scheme ∧ other.priority = route.priority
  · rcases Nat.eq_or_lt_of_le (first other ho key.1 key.2) with e | later
    · exact Or.inl (ho.eq offered e.symm key.1)
    · exact Or.inr (Or.inr ⟨key.2.symm, Or.inr ⟨by rw [key.1], later⟩⟩)
  · -- the registration of the other stands somewhere among the first ones, too
    have hm : (other.filesystem, other.priority) ∈ sharing other.scheme other.priority registrations := by
      rw [same]
      exact mem_sharing.mpr ⟨List.mem_of_getElem? ho.1, ho.2, rfl⟩
    obtain ⟨m, hm⟩ := List.mem_iff_getElem?.mp (mem_sharing.mp hm).1
    rcases h.outranks { other with owner := m } ⟨hm, ho.2⟩ fo with rfl | above | ⟨ep, longer | ⟨el, -⟩⟩
    · exact absurd ⟨rfl, rfl⟩ key
    · exact Or.inr (Or.inl above)
    · exact Or.inr (Or.inr ⟨ep, Or.inl longer⟩)
    · exact absurd ⟨(h.fits.scheme_eq fo el).symm, ep.symm⟩ key

/-- A uri is resolved to the best of the routes that match it, and to an error exactly if there is none. The order of
the registrations matters only among those that share a scheme and a priority. -/
theorem resolves_to_best (registrations : List (Filesystem σ × Int)) (uri : String) :
    (∀ route, (ofList registrations).resolve uri = .ok route ↔ IsBest registrations uri route)
      ∧ (∀ error, (ofList registrations).resolve uri = .error error ↔
          (∀ route, Offers registrations route → ¬route.Matches uri) ∧ error = .unsupportedScheme uri)
      ∧ ∀ registrations',
          (∀ scheme priority, sharing scheme priority registrations = sharing scheme priority registrations') →
          ((ofList registrations).resolve uri).map Route.filesystem
            = ((ofList registrations').resolve uri).map Route.filesystem := by
  refine ⟨fun _ => resolve_eq_ok_iff_isBest, fun _ => resolve_eq_error_iff_none, fun registrations' same => ?_⟩
  cases h : (ofList registrations).resolve uri with
  | ok route =>
    obtain ⟨route', best, e⟩ := (resolve_eq_ok_iff_isBest.mp h).transfer same
    rw [resolve_eq_ok_iff_isBest.mpr best]
    exact congrArg Except.ok e.symm
  | error error =>
    cases h' : (ofList registrations').resolve uri with
    | ok route' =>
      obtain ⟨route, best, -⟩ := (resolve_eq_ok_iff_isBest.mp h').transfer fun scheme priority =>
        (same scheme priority).symm
      rw [resolve_eq_ok_iff_isBest.mpr best] at h
      cases h
    | error error' =>
      rw [(resolve_eq_error_iff_none.mp h).2, (resolve_eq_error_iff_none.mp h').2]

end Storage
end ServingLifecycle
