import ServingLifecycle.Text.Blank
import ServingLifecycle.Text.CaseTable
/-!
# Lower case

Lower-casing of a whole text by the rules of the Unicode standard. One character may become two, and
a capital sigma becomes a final sigma exactly when a cased letter stands before it and none after it,
letters that are ignored for case being skipped on both sides.
-/
namespace ServingLifecycle.Text

def isCased (c : Char) : Bool :=
  inRanges casedRanges c.toNat

def isCaseIgnorable (c : Char) : Bool :=
  inRanges caseIgnorableRanges c.toNat

/-- The lower-case partner that a run gives to a code point of it. -/
def CaseRun.partnerOf (r : CaseRun) (n : Nat) : Option Nat :=
  if r.first ≤ n ∧ n ≤ r.last ∧ (n - r.first) % r.step = 0 then some (r.partner + (n - r.first))
  else none

/-- The lower-case form of a character on its own. -/
def lowercaseChar (c : Char) : List Char :=
  if c = '\u0130' then ['i', '\u0307']
  else
    match lowercaseRuns.findSome? (·.partnerOf c.toNat) with
    | some n => [Char.ofNat n]
    | none => [c]

/-- Whether the first character that counts for case is a cased letter. -/
def seesCased (cs : List Char) : Bool :=
  match cs.dropWhile isCaseIgnorable with
  | [] => false
  | c :: _ => isCased c

/-- Lower-cases a text whose characters before it, last one first, are given. -/
def lowercaseAfter (before : List Char) : List Char → List Char
  | [] => []
  | c :: rest =>
    (if c = 'Σ' then [if seesCased before && !seesCased rest then 'ς' else 'σ'] else lowercaseChar c)
      ++ lowercaseAfter (c :: before) rest

def lowercase (cs : List Char) : List Char :=
  lowercaseAfter [] cs

end ServingLifecycle.Text
