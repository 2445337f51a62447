/-!
# Values

Data of no fixed shape, as it stands in a document: texts, numbers, lists and tables of values. The
entries of a table are kept in the order of their keys, each key once. Tables merge key by key; any
other value takes the place of what was there.
-/
namespace ServingLifecycle

inductive Value
  | null
  | bool (b : Bool)
  | integer (n : Int)
  /-- a number without a sign, which may also stand for a place in a list of choices -/
  | count (n : Nat)
  /-- a number with a fraction or an exponent, as it was written -/
  | decimal (text : String)
  | character (c : Char)
  | text (s : String)
  | list (items : List Value)
  | table (entries : List (String × Value))
deriving Repr, Inhabited

namespace Value

def set (key : String) (v : Value) : List (String × Value) → List (String × Value)
  | [] => [(key, v)]
  | (k, w) :: rest =>
    if k = key then (key, v) :: rest
    else if key < k then (key, v) :: (k, w) :: rest
    else (k, w) :: set key v rest

/-- The entries of a table, in the order of their keys; of two with one key the later counts. -/
def sorted (entries : List (String × Value)) : List (String × Value) :=
  entries.foldl (fun t e => set e.1 e.2 t) []

mutual

/-- The newer value laid over the older one. -/
def merge (older : Value) : Value → Value
  | table new =>
    match older with
    | table old => table (mergeEntries old new)
    | _ => table new
  | v => v

/-- The newer entries laid over the older ones. -/
def mergeEntries (older : List (String × Value)) :
    List (String × Value) → List (String × Value)
  | [] => older
  | (key, v) :: rest =>
    mergeEntries (set key (match older.lookup key with
      | some w => merge w v
      | none => v) older) rest

end

def at? (v : Value) : List String → Option Value
  | [] => some v
  | key :: path =>
    match v with
    | table entries => (entries.lookup key).bind fun w => w.at? path
    | _ => none

theorem lookup_set (key other : String) (v : Value) (t : List (String × Value)) :
    (set key v t).lookup other = if other = key then some v else t.lookup other := by
  induction t with
  | nil =>
    by_cases h : other = key
    · simp [set, h]
    · simp [set, List.lookup_cons, beq_false_of_ne h, h]
  | cons e t ih =>
    obtain ⟨k, w⟩ := e
    unfold set
    by_cases hk : k = key
    · subst hk
      by_cases h : other = k
      · simp [h]
      · simp [List.lookup_cons, beq_false_of_ne h, h]
    · rw [if_neg hk]
      split
      · by_cases h : other = key
        · simp [h]
        · simp [List.lookup_cons, beq_false_of_ne h, h]
      · by_cases h : other = k
        · subst h; simp [hk]
        · simp [List.lookup_cons, beq_false_of_ne h, ih]

end Value
end ServingLifecycle
