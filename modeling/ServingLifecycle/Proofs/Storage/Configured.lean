import ServingLifecycle.Proofs.Storage.Local
/-!
# Configured storage

However many filesystems are configured, with whatever priorities, they are all the local one, each under both of its
schemes. For either scheme the first one of the greatest priority wins, so it is one registration that takes all local
uris, and no copy between two of them crosses filesystems. Storage with the local filesystem alone does just the same.
-/
namespace ServingLifecycle

/-- The scheme of the local filesystem that a uri is taken under, if it is taken at all. -/
def LocalFilesystem.schemeOf (uri : String) : String :=
  if Uri.hasScheme uri then scheme else ""

namespace Storage

variable {configs : List FilesystemConfig} {n : Nat} {first : FilesystemConfig} {uri : String} {route : Route Disk}
  {α : Type}

theorem hasScheme_of_startsWith (h : Uri.startsWith uri LocalFilesystem.scheme = true) : Uri.hasScheme uri = true := by
  have own : Uri.hasScheme LocalFilesystem.scheme = true := by decide
  exact Uri.hasScheme_iff.mpr ((Uri.hasScheme_iff.mp own).trans (Uri.startsWith_iff.mp h).isInfix)

/-- A uri is matched by those routes of the local filesystem that have its scheme, if it is taken at all. -/
theorem matches_iff_schemeOf (h : route.scheme ∈ localFilesystem.schemes) :
    route.Matches uri ↔ LocalFilesystem.Takes uri ∧ route.scheme = LocalFilesystem.schemeOf uri := by
  have named : LocalFilesystem.scheme ≠ "" := by decide
  rw [← Route.takes_iff, Route.takes, LocalFilesystem.Takes, LocalFilesystem.schemeOf]
  rcases (by simpa [localFilesystem] using h : route.scheme = LocalFilesystem.scheme ∨ route.scheme = "") with e | e
  · cases hf : Uri.startsWith uri LocalFilesystem.scheme with
    | true => simp [e, hf, hasScheme_of_startsWith hf, named]
    | false => cases Uri.hasScheme uri <;> simp [e, hf, named]
  · have bare : Uri.startsWith uri "" = true := Uri.startsWith_iff.mpr List.nil_prefix
    cases Uri.hasScheme uri <;> simp [e, bare, named.symm]

/-- The configured filesystem at `n` has the greatest priority, and none before it has the same. -/
def Leads (configs : List FilesystemConfig) (n : Nat) (first : FilesystemConfig) : Prop :=
  configs[n]? = some first ∧ ∀ m other, configs[m]? = some other →
    other.priority < first.priority ∨ other.priority = first.priority ∧ n ≤ m

/-- What is configured offers the local filesystem under both schemes, with the priority given at its place. -/
theorem offers_configured : Offers (configs.map fun c => (localFilesystem, c.priority)) route ↔
    configs[route.owner]? = some ⟨route.priority⟩ ∧ route.filesystem = localFilesystem
      ∧ route.scheme ∈ localFilesystem.schemes := by
  rw [Offers, List.getElem?_map, Option.map_eq_some_iff]
  constructor
  · rintro ⟨⟨c, hc, e⟩, hs⟩
    obtain ⟨hfs, hp⟩ := Prod.mk.inj e
    rw [← hfs] at hs
    exact ⟨by rw [hc, ← hp], hfs.symm, hs⟩
  · rintro ⟨hc, hfs, hs⟩
    exact ⟨⟨_, hc, by rw [hfs]⟩, by rwa [hfs]⟩

theorem schemeOf_mem (uri : String) : LocalFilesystem.schemeOf uri ∈ localFilesystem.schemes := by
  unfold LocalFilesystem.schemeOf
  split <;> simp [localFilesystem]

/-- Whichever scheme a uri has, it is taken by the configured filesystem that leads. -/
theorem isBest_of_leads (leads : Leads configs n first) (h : LocalFilesystem.Takes uri) :
    IsBest (configs.map fun c => (localFilesystem, c.priority)) uri
      ⟨LocalFilesystem.schemeOf uri, first.priority, n, localFilesystem⟩ where
  offered := offers_configured.mpr ⟨leads.1, rfl, schemeOf_mem uri⟩
  fits := (matches_iff_schemeOf (schemeOf_mem uri)).mpr ⟨h, rfl⟩
  outranks := by
    intro other ho fits
    obtain ⟨hc, hfs, hs⟩ := offers_configured.mp ho
    obtain ⟨-, same⟩ := (matches_iff_schemeOf hs).mp fits
    rcases leads.2 _ _ hc with less | ⟨equal, behind⟩
    · exact Or.inr (Or.inl less)
    · rcases Nat.eq_or_lt_of_le behind with rfl | later
      · left
        obtain ⟨scheme, priority, owner, fs⟩ := other
        simp_all
      · exact Or.inr (Or.inr ⟨equal.symm, Or.inr ⟨by rw [same], later⟩⟩)

/-- One of the configured filesystems leads: the one that takes bare paths. -/
theorem exists_leads (h : configs ≠ []) : ∃ n first, Leads configs n first := by
  have taken : LocalFilesystem.Takes "" := by decide
  obtain ⟨route, hr, -⟩ := ((isLocal_ofConfig h).resolve "").resolve_right fun none => none.2 taken
  have best := resolve_eq_ok_iff_isBest.mp hr
  obtain ⟨hc, -, hs⟩ := offers_configured.mp best.offered
  obtain ⟨-, scheme⟩ := (matches_iff_schemeOf hs).mp best.fits
  refine ⟨route.owner, ⟨route.priority⟩, hc, fun m other ho => ?_⟩
  have offered : Offers (configs.map fun c => (localFilesystem, c.priority))
      ⟨route.scheme, other.priority, m, localFilesystem⟩ := offers_configured.mpr ⟨ho, rfl, hs⟩
  rcases best.outranks _ offered ((matches_iff_schemeOf hs).mpr ⟨taken, scheme⟩) with e | above
  · right
    rw [← e]
    exact ⟨rfl, Nat.le_refl _⟩
  · unfold Route.Outranks at above
    dsimp only at above ⊢
    omega

theorem resolve_ofConfig (leads : Leads configs n first) (uri : String) :
    (ofConfig localFilesystem configs).resolve uri =
      if LocalFilesystem.Takes uri then .ok ⟨LocalFilesystem.schemeOf uri, first.priority, n, localFilesystem⟩
      else .error (.unsupportedScheme uri) := by
  split
  · rename_i h
    exact resolve_eq_ok_iff_isBest.mpr (isBest_of_leads leads h)
  · rename_i h
    refine resolve_eq_error_iff_none.mpr ⟨fun route offered fits => h ?_, rfl⟩
    exact ((matches_iff_schemeOf (offers_configured.mp offered).2.2).mp fits).1

/-- An operation that takes a uri is that of the local filesystem, on the uris that it takes. -/
theorem routed_ofConfig (h : configs ≠ []) (uri : String) (op : Filesystem Disk → StorageEffect Disk α) :
    (ofConfig localFilesystem configs).routed uri op =
      if LocalFilesystem.Takes uri then op localFilesystem else StorageEffect.fail (.unsupportedScheme uri) := by
  obtain ⟨n, first, leads⟩ := exists_leads h
  rw [routed, resolve_ofConfig leads]
  by_cases taken : LocalFilesystem.Takes uri
  · rw [if_pos taken, if_pos taken]
  · rw [if_neg taken, if_neg taken]

/-- Two uris share the local filesystem if it takes both. -/
theorem shared_ofConfig (h : configs ≠ []) (source target : String) :
    (ofConfig localFilesystem configs).shared source target =
      if ¬LocalFilesystem.Takes source then .error (.unsupportedScheme source)
      else if ¬LocalFilesystem.Takes target then .error (.unsupportedScheme target)
      else .ok localFilesystem := by
  obtain ⟨n, first, leads⟩ := exists_leads h
  rw [shared, resolve_ofConfig leads, resolve_ofConfig leads]
  by_cases hs : LocalFilesystem.Takes source <;> by_cases ht : LocalFilesystem.Takes target <;> simp [hs, ht]

/-- An operation that takes two uris is that of the local filesystem, on the uris that it takes. -/
theorem between_ofConfig (h : configs ≠ []) (source target : String) (op : Filesystem Disk → StorageEffect Disk α) :
    (ofConfig localFilesystem configs).between source target op =
      if ¬LocalFilesystem.Takes source then StorageEffect.fail (.unsupportedScheme source)
      else if ¬LocalFilesystem.Takes target then StorageEffect.fail (.unsupportedScheme target)
      else op localFilesystem := by
  rw [between, shared_ofConfig h]
  by_cases hs : LocalFilesystem.Takes source <;> by_cases ht : LocalFilesystem.Takes target <;> simp [hs, ht]

/-- Storage with the local filesystem alone is configured with one of the default priority. -/
theorem ofFilesystem_eq_ofConfig :
    ofFilesystem localFilesystem = ofConfig localFilesystem [⟨defaultPriority⟩] :=
  rfl

/-- With any filesystems configured, all local uris are taken by one and the same of them. Every operation on local
uris is the one of the local filesystem, so no copy from one to another is turned away, and on all uris every
operation does what it does with the local filesystem alone. -/
theorem configured_acts_as_plain (h : configs ≠ []) :
    (∃ n, ∀ uri, LocalFilesystem.Takes uri → ∃ route, (ofConfig localFilesystem configs).resolve uri = .ok route
        ∧ route.owner = n ∧ route.filesystem = localFilesystem)
      ∧ (∀ source target, LocalFilesystem.Takes source → LocalFilesystem.Takes target →
          (ofConfig localFilesystem configs).shared source target = .ok localFilesystem
          ∧ (ofConfig localFilesystem configs).copyFile source target = localFilesystem.copyFile source target
          ∧ (ofConfig localFilesystem configs).copyDirectory source target
            = localFilesystem.copyDirectory source target)
      ∧ (∀ uri, LocalFilesystem.Takes uri →
          (ofConfig localFilesystem configs).present uri = localFilesystem.present uri
          ∧ (ofConfig localFilesystem configs).isDirectory uri = localFilesystem.isDirectory uri
          ∧ (ofConfig localFilesystem configs).makeDirectories uri = localFilesystem.makeDirectories uri)
      ∧ (∀ uri, (ofConfig localFilesystem configs).present uri = (ofFilesystem localFilesystem).present uri)
      ∧ (∀ uri, (ofConfig localFilesystem configs).isDirectory uri = (ofFilesystem localFilesystem).isDirectory uri)
      ∧ (∀ uri, (ofConfig localFilesystem configs).makeDirectories uri
          = (ofFilesystem localFilesystem).makeDirectories uri)
      ∧ (∀ source target, (ofConfig localFilesystem configs).copyFile source target
          = (ofFilesystem localFilesystem).copyFile source target)
      ∧ ∀ source target, (ofConfig localFilesystem configs).copyDirectory source target
          = (ofFilesystem localFilesystem).copyDirectory source target := by
  have plain : [FilesystemConfig.mk defaultPriority] ≠ [] := List.cons_ne_nil _ _
  have routed {α : Type} (uri : String) (op : Filesystem Disk → StorageEffect Disk α) :
      (ofConfig localFilesystem configs).routed uri op = (ofFilesystem localFilesystem).routed uri op := by
    rw [ofFilesystem_eq_ofConfig, routed_ofConfig h, routed_ofConfig plain]
  have between {α : Type} (source target : String) (op : Filesystem Disk → StorageEffect Disk α) :
      (ofConfig localFilesystem configs).between source target op
        = (ofFilesystem localFilesystem).between source target op := by
    rw [ofFilesystem_eq_ofConfig, between_ofConfig h, between_ofConfig plain]
  have own {α : Type} {uri : String} (hu : LocalFilesystem.Takes uri) (op : Filesystem Disk → StorageEffect Disk α) :
      (ofConfig localFilesystem configs).routed uri op = op localFilesystem := by
    rw [routed_ofConfig h, if_pos hu]
  have copies {α : Type} {source target : String} (hs : LocalFilesystem.Takes source)
      (ht : LocalFilesystem.Takes target) (op : Filesystem Disk → StorageEffect Disk α) :
      (ofConfig localFilesystem configs).between source target op = op localFilesystem := by
    rw [between_ofConfig h, if_neg (not_not.mpr hs), if_neg (not_not.mpr ht)]
  refine ⟨?_, fun source target hs ht => ⟨?_, copies hs ht _, copies hs ht _⟩,
    fun uri hu => ⟨own hu _, own hu _, own hu _⟩, fun _ => routed _ _, fun _ => routed _ _, fun _ => routed _ _,
    fun _ _ => between _ _ _, fun _ _ => between _ _ _⟩
  · obtain ⟨n, first, leads⟩ := exists_leads h
    refine ⟨n, fun uri taken => ⟨⟨LocalFilesystem.schemeOf uri, first.priority, n, localFilesystem⟩, ?_, rfl, rfl⟩⟩
    rw [resolve_ofConfig leads, if_pos taken]
  · rw [shared_ofConfig h, if_neg (not_not.mpr hs), if_neg (not_not.mpr ht)]

/-- Three filesystems, of which the second and the third share the greatest priority. -/
theorem configured_acts_as_plain_ties :
    (ofConfig localFilesystem [⟨1⟩, ⟨7⟩, ⟨7⟩]).copyDirectory "file:///art" "served"
        = localFilesystem.copyDirectory "file:///art" "served"
      ∧ (ofConfig localFilesystem [⟨1⟩, ⟨7⟩, ⟨7⟩]).copyDirectory "file:///art" "served"
        = (ofFilesystem localFilesystem).copyDirectory "file:///art" "served" := by
  obtain ⟨_, copies, _, _, _, _, _, plain⟩ :=
    configured_acts_as_plain (List.cons_ne_nil (⟨1⟩ : FilesystemConfig) [⟨7⟩, ⟨7⟩])
  exact ⟨(copies _ _ (by decide) (by decide)).2.2, plain _ _⟩

end Storage
end ServingLifecycle
