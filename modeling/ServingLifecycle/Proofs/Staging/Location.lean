import ServingLifecycle.Proofs.Staging.Inside
/-!
# Where runs are staged

Below one staging root, every run of every slot has a location of its own, except that slashes at the start of a run id
do not count. The segments of an identity have no slashes, so the first three names after the root are theirs and all
that follows is the run's. How many slashes the staging root ends with makes no difference.
-/
namespace ServingLifecycle

/-- What stands in front of the first slash, and what follows it, can be read off a text. -/
theorem Path.append_slash_inj {a a' b b' : List Char} (ha : '/' ∉ a) (ha' : '/' ∉ a') :
    a ++ '/' :: b = a' ++ '/' :: b' ↔ a = a' ∧ b = b' := by
  refine ⟨fun e => ?_, fun ⟨e, e'⟩ => by rw [e, e']⟩
  have parts := congrArg Path.split e
  rw [Path.split_append_slash, Path.split_append_slash, Path.split_of_notMem ha, Path.split_of_notMem ha'] at parts
  obtain ⟨rfl, -⟩ := List.cons.inj parts
  exact ⟨rfl, (List.cons.inj (List.append_cancel_left e)).2⟩

namespace Uri

theorem leaf_of_notMem {cs : List Char} (h : '/' ∉ cs) : leaf cs = cs := by
  cases cs with
  | nil => rfl
  | cons c cs =>
    have : c ≠ '/' := fun e => h (e ▸ List.mem_cons_self)
    simp [leaf, this]

theorem stem_of_notMem {cs : List Char} (h : '/' ∉ cs) : stem cs = cs := by
  have hleaf : leaf cs.reverse = cs.reverse := leaf_of_notMem (by simpa using h)
  rw [stem, ← leaf, hleaf, List.reverse_reverse]

/-- A name loses no slash when it is joined onto a base, and none when something is joined onto it. -/
theorem stem_join_name (base : String) {name : String} (h : Path.IsName name) :
    stem (join base name).toList = stem base.toList ++ '/' :: name.toList := by
  have hname : stem name.toList = name.toList := stem_of_notMem h.no_slash
  have hne : stem name.toList ≠ [] := by simpa [hname] using h.ne_empty
  rw [toList_join, leaf_of_notMem h.no_slash, ← List.singleton_append, ← List.append_assoc, stem_append hne, hname,
    List.append_assoc]

end Uri

namespace Identity

/-- An identity that nothing is wrong with. -/
def Valid (i : Identity) : Prop :=
  i.violations "" = []

instance (i : Identity) : Decidable i.Valid :=
  inferInstanceAs (Decidable (_ = []))

theorem Valid.isName {i : Identity} (h : i.Valid) :
    Path.IsName i.pipeline ∧ Path.IsName i.step ∧ Path.IsName i.model := by
  unfold Identity.Valid Identity.violations at h
  simp only [List.append_eq_nil_iff] at h
  obtain ⟨⟨hmodel, hpipeline⟩, hstep⟩ := h
  have name {field value : String} (h : Violation.ofSegment field value = []) : Path.IsName value :=
    isName_of_isSegment (Violation.isSegment_of_ofSegment h)
  exact ⟨name hpipeline, name hstep, name hmodel⟩

end Identity

namespace Settings

variable {s : Settings} {i i' : Identity}

/-- After the staging root come the three segments, each after a slash, and then what is left of the run id. -/
theorem toList_servedRoot (s : Settings) (h : i.Valid) (runId : String) : (s.servedRoot i runId).toList =
    Uri.stem s.stagingRoot.toList ++ '/' :: (i.pipeline.toList ++ '/' :: (i.step.toList ++ '/' ::
      (i.model.toList ++ '/' :: Uri.leaf runId.toList))) := by
  obtain ⟨hpipeline, hstep, hmodel⟩ := h.isName
  rw [servedRoot, Uri.toList_join, Uri.stem_join_name _ hmodel, Uri.stem_join_name _ hstep,
    Uri.stem_join_name _ hpipeline]
  simp only [List.append_assoc, List.cons_append]

/-- Two runs are staged at one location exactly if they are runs of one slot whose ids are the same but for slashes at
the start. Slashes at the end of the staging root change no location. -/
theorem served_roots_tell_runs_apart (s : Settings) (hi : i.Valid) (hi' : i'.Valid) (runId runId' : String) :
    (s.servedRoot i runId = s.servedRoot i' runId' ↔ i = i' ∧ Uri.leaf runId.toList = Uri.leaf runId'.toList)
      ∧ ∀ slashes : List Char, (∀ c ∈ slashes, c = '/') →
          { s with stagingRoot := s.stagingRoot ++ String.ofList slashes }.servedRoot i runId
            = s.servedRoot i runId := by
  obtain ⟨hpipeline, hstep, hmodel⟩ := hi.isName
  obtain ⟨hpipeline', hstep', hmodel'⟩ := hi'.isName
  refine ⟨?_, fun slashes hs => ?_⟩
  · rw [← String.toList_inj, toList_servedRoot s hi, toList_servedRoot s hi', List.append_cancel_left_eq,
      List.cons_inj_right, Path.append_slash_inj hpipeline.no_slash hpipeline'.no_slash,
      Path.append_slash_inj hstep.no_slash hstep'.no_slash, Path.append_slash_inj hmodel.no_slash hmodel'.no_slash,
      String.toList_inj, String.toList_inj, String.toList_inj]
    cases i
    cases i'
    simp [and_assoc]
  · have same : Uri.stem (s.stagingRoot ++ String.ofList slashes).toList = Uri.stem s.stagingRoot.toList := by
      rw [String.toList_append, String.toList_ofList, Uri.stem_append_slashes _ hs]
    unfold servedRoot
    rw [Uri.join_congr same]

/-- Two spellings of one run, below a root that is nothing but slashes. -/
theorem served_roots_tell_runs_apart_slashes : (⟨"p", "s", "m"⟩ : Identity).Valid
    ∧ { Settings.default with stagingRoot := "//" }.servedRoot ⟨"p", "s", "m"⟩ "/run"
      = { Settings.default with stagingRoot := "//" }.servedRoot ⟨"p", "s", "m"⟩ "///run" := by
  have valid : (⟨"p", "s", "m"⟩ : Identity).Valid := by decide
  exact ⟨valid, (served_roots_tell_runs_apart { Settings.default with stagingRoot := "//" } valid valid "/run"
    "///run").1.mpr ⟨rfl, by decide⟩⟩

end Settings
end ServingLifecycle
