import ServingLifecycle.Proofs.Instant.Timestamp
import ServingLifecycle.Proofs.Text.Lowercase
import ServingLifecycle.Proofs.Value.Written
import ServingLifecycle.Staging.Locator
import ServingLifecycle.Value.Service
/-!
# Services read back

What is read from the value form of a service, a layout or a predictor kind is the same service, layout or kind. A kind
is brought to its normal form again when it is read, which changes nothing.
-/
namespace ServingLifecycle

open Reads

namespace Uuid

variable {n width d : Nat} {a b c e f : List Char} {cs : List Char}

theorem length_hexOf (n width : Nat) : (hexOf n width).length = width := by
  induction width generalizing n with
  | zero => rfl
  | succ width ih => simp [hexOf, ih]

theorem hexDigit?_digitChar : ∀ d, d < 16 → hexDigit? (Nat.digitChar d) = some d := by
  decide

theorem readHex_concat (m : Nat) (cs : List Char) (c : Char) :
    readHex m (cs ++ [c]) = (readHex m cs).bind fun n => (hexDigit? c).map fun d => n * 16 + d := by
  induction cs generalizing m with
  | nil =>
    simp only [List.nil_append, readHex, Option.bind_some]
    cases hexDigit? c <;> rfl
  | cons c' cs ih =>
    rw [List.cons_append, readHex, readHex]
    cases hexDigit? c' with
    | none => rfl
    | some d => exact ih _

/-- Hexadecimal digits are read as the number that they were written for, as far as they reach. -/
theorem readHex_hexOf (n width : Nat) : readHex 0 (hexOf n width) = some (n % 16 ^ width) := by
  induction width generalizing n with
  | zero => simp [hexOf, readHex, Nat.mod_one]
  | succ width ih =>
    have digit := hexDigit?_digitChar (n % 16) (Nat.mod_lt n (by decide))
    have whole : n / 16 % 16 ^ width * 16 + n % 16 = n % 16 ^ (width + 1) := by
      rw [Nat.pow_succ', Nat.mod_mul, Nat.mul_comm, Nat.add_comm]
    rw [hexOf, readHex_concat, ih, Option.bind_some, digit, Option.map_some, whole]

theorem ofDigits?_hexOf (u : Uuid) : ofDigits? (hexOf u.value.toNat 32) = some u := by
  have inRange : u.value.toNat % 16 ^ 32 = u.value.toNat := Nat.mod_eq_of_lt u.value.isLt
  rw [ofDigits?, if_pos (length_hexOf _ _), readHex_hexOf, inRange, Option.map_some, ofNat, BitVec.ofNat_toNat,
    BitVec.setWidth_eq]

/-- Hyphens in their places are taken out again. -/
theorem ofHyphenated?_append (ha : a.length = 8) (hb : b.length = 4) (hc : c.length = 4) (he : e.length = 4)
    (hf : f.length = 12) : ofHyphenated? (a ++ '-' :: b ++ '-' :: c ++ '-' :: e ++ '-' :: f) =
      ofDigits? (a ++ b ++ c ++ e ++ f) := by
  rw [ofHyphenated?, if_pos]
  · congr 1
    simp [List.drop_append, List.drop_eq_nil_of_le, ha, hb, hc, he]
  · simp [ha, hb, hc, he, hf]

theorem ofHyphenated?_hyphenated (h : cs.length = 32) : ofHyphenated? (hyphenated cs) = ofDigits? cs := by
  have parts : cs.take 8 ++ (cs.drop 8).take 4 ++ (cs.drop 12).take 4 ++ (cs.drop 16).take 4 ++ cs.drop 20 = cs := by
    have next : ∀ k m, (cs.drop k).take m ++ cs.drop (k + m) = cs.drop k := by
      intro k m
      rw [← List.drop_drop, List.take_append_drop]
    rw [List.append_assoc, List.append_assoc, List.append_assoc, next 16 4, next 12 4, next 8 4, List.take_append_drop]
  rw [hyphenated, ofHyphenated?_append, parts] <;> simp [h]

/-- An id is read back from its text. -/
theorem parse?_text (u : Uuid) : parse? u.text = some u := by
  have length : (hyphenated (hexOf u.value.toNat 32)).length = 36 := by simp [hyphenated, length_hexOf]
  rw [parse?, text, String.toList_ofList]
  rw [length, if_neg (by decide), if_pos rfl, ofHyphenated?_hyphenated (length_hexOf _ _), ofDigits?_hexOf]

end Uuid

namespace PredictorKind

variable {k : PredictorKind} {s t : String}

theorem ofText_name (k : PredictorKind) : ofText k.name = k := by
  obtain ⟨name, text, rfl⟩ := k
  exact ext_name (normalize_normalize text)

theorem ofValue_toValue (k : PredictorKind) : PredictorKind.ofValue k.toValue = .ok k :=
  congrArg Except.ok k.ofText_name

end PredictorKind

theorem Identity.ofValue_toValue (strict : Strictness) (i : Identity) : Identity.ofValue strict i.toValue = .ok i := rfl

theorem Layout.ofValue_toValue (strict : Strictness) (l : Layout) : Layout.ofValue strict l.toValue = .ok l := by
  have kind := l.kind.ofValue_toValue
  have fields : GivenFields.of strict ["served_uri", "predictor_kind"] l.toValue =
      .ok ⟨["served_uri", "predictor_kind"],
        [⟨"predictor_kind", "predictor_kind", l.kind.toValue⟩, ⟨"served_uri", "served_uri", .text l.servedUri⟩],
        false⟩ := rfl
  rw [ofValue, fields, ok_bind, GivenFields.readInto]
  simp only [List.foldlM_cons, List.foldlM_nil, kind]
  rfl

theorem ServiceState.ofValue_toValue (strict : Strictness) (x : ServiceState) :
    ServiceState.ofValue strict x.toValue = .ok x := by
  cases x <;> rfl

theorem Uuid.ofValue_text (u : Uuid) : Uuid.ofValue (.text u.text) = .ok u := by
  have text : (Value.text u.text).asText = .ok u.text := rfl
  rw [ofValue, text, ok_bind, parse?_text]
  rfl

theorem Instant.ofValue_timestamp {i : Instant} (h : i.Valid) : Instant.ofValue (.text i.timestamp) = .ok i := by
  have text : (Value.text i.timestamp).asText = .ok i.timestamp := rfl
  rw [ofValue, text, ok_bind, parse?_timestamp h]
  rfl

namespace Service

variable {strict : Strictness} {s : Service}

/-- The value form of the url of a service. -/
def urlValue (s : Service) : Value :=
  match s.url with
  | some url => .text url
  | none => .null

theorem asOptionalText_urlValue (s : Service) : s.urlValue.asOptionalText = .ok s.url := by
  unfold urlValue
  cases s.url <;> rfl

/-- The entries of the value form of a service, as they are given for its fields. -/
def given (s : Service) : List GivenField :=
  [⟨"created_at", "created_at", .text s.createdAt.timestamp⟩, ⟨"identity", "identity", s.identity.toValue⟩,
    ⟨"pipeline_run_id", "pipeline_run_id", .text s.runId⟩, ⟨"prediction_url", "prediction_url", s.urlValue⟩,
    ⟨"predictor_kind", "predictor_kind", s.kind.toValue⟩, ⟨"served_uri", "served_uri", .text s.servedUri⟩,
    ⟨"state", "state", s.state.toValue⟩, ⟨"uuid", "uuid", .text s.uuid.text⟩]

theorem ofValue_toValue (h : s.createdAt.Valid) : Service.ofValue strict s.toValue = .ok s := by
  have createdAt := Instant.ofValue_timestamp h
  have identity := s.identity.ofValue_toValue strict
  have url := s.asOptionalText_urlValue
  have kind := s.kind.ofValue_toValue
  have state := s.state.ofValue_toValue strict
  have uuid := s.uuid.ofValue_text
  have fields : GivenFields.of strict fieldNames s.toValue = .ok ⟨fieldNames, s.given, false⟩ := rfl
  rw [ofValue, fields, ok_bind, GivenFields.readInto, given]
  simp only [List.foldlM_cons, List.foldlM_nil, createdAt, identity, url, kind, state, uuid]
  rfl

end Service

/-- A kind is its own normal form, whatever text it comes from, and texts that are the same between their blanks but for
the case of ASCII letters are of one kind, so that a locator has one policy for them. Kinds, layouts and services are
read back from their value forms. -/
theorem normal_forms_read_back (strict : Strictness) :
    (∀ t, PredictorKind.ofText (PredictorKind.ofText t).name = PredictorKind.ofText t)
      ∧ (∀ s t, (Text.trim s.toList).map Char.toLower = (Text.trim t.toList).map Char.toLower →
          PredictorKind.ofText s = PredictorKind.ofText t
            ∧ ∀ {σ : Type} (l : Locator σ) (p : StagingPolicy),
                l.policies.policy (.ofText s) = l.policies.policy (.ofText t)
                  ∧ (l.withPolicy (.ofText s) p).policies.policy (.ofText t) = p)
      ∧ (∀ k, PredictorKind.ofValue k.toValue = .ok k) ∧ (∀ l, Layout.ofValue strict l.toValue = .ok l)
      ∧ ∀ s : Service, s.createdAt.Valid → Service.ofValue strict s.toValue = .ok s := by
  refine ⟨fun t => (PredictorKind.ofText t).ofText_name, ?_, PredictorKind.ofValue_toValue,
    Layout.ofValue_toValue strict, fun s => Service.ofValue_toValue⟩
  intro s t same
  have kind : PredictorKind.ofText s = PredictorKind.ofText t := PredictorKind.ofText_eq_of_toLower same
  refine ⟨kind, ?_⟩
  intro σ l p
  have set : (l.withPolicy (.ofText s) p).policies.policy (.ofText t) = p := by
    rw [Locator.withPolicy, PolicyTable.policy_set, if_pos kind.symm]
  exact ⟨by rw [kind], set⟩

/-- A service of a year before the first, whose kind ends in a final sigma. -/
def ancient : Service where
  uuid := .ofNat 255
  identity := ⟨"", "a/b", "\u00E9"⟩
  runId := ""
  servedUri := "s3://bucket/model"
  kind := .ofText "\u3000Logos \u03A3\u039F\u03A6\u039F\u03A3 "
  url := none
  state := .failed
  createdAt := ⟨-776, 2, 29, 23, 59, 60, 1020⟩

theorem normal_forms_read_back_ancient :
    (Text.trim "\tTensorFlow".toList).map Char.toLower = (Text.trim "tensorFLOW\u2003".toList).map Char.toLower
      ∧ PredictorKind.ofText "\tTensorFlow" = PredictorKind.ofText "tensorFLOW\u2003"
      ∧ ancient.createdAt.Valid ∧ Service.ofValue ⟨true, true⟩ ancient.toValue = .ok ancient := by
  have same : (Text.trim "\tTensorFlow".toList).map Char.toLower =
      (Text.trim "tensorFLOW\u2003".toList).map Char.toLower := by decide
  have valid : ancient.createdAt.Valid := by decide
  obtain ⟨-, kinds, -, -, services⟩ := normal_forms_read_back ⟨true, true⟩
  exact ⟨same, (kinds _ _ same).1, valid, services ancient valid⟩

end ServingLifecycle
