/-!
# Service ids

A universally unique id is a 128-bit number. It is written as 32 lower-case hexadecimal digits in
groups of 8, 4, 4, 4 and 12. It is read in either case, with or without the hyphens, and with the
hyphens also in braces or after `urn:uuid:`.
-/
namespace ServingLifecycle

structure Uuid where
  value : BitVec 128
deriving DecidableEq, Repr

namespace Uuid

def ofNat (n : Nat) : Uuid := ⟨BitVec.ofNat 128 n⟩

/-- The digits of `n` in base 16, exactly `width` of them, the last ones if there are more. -/
def hexOf (n : Nat) : Nat → List Char
  | 0 => []
  | width + 1 => hexOf (n / 16) width ++ [Nat.digitChar (n % 16)]

/-- Puts hyphens after the 8th, 12th, 16th and 20th character. -/
def hyphenated (cs : List Char) : List Char :=
  cs.take 8 ++ '-' :: (cs.drop 8).take 4 ++ '-' :: (cs.drop 12).take 4 ++ '-' :: (cs.drop 16).take 4
    ++ '-' :: cs.drop 20

def text (u : Uuid) : String :=
  String.ofList (hyphenated (hexOf u.value.toNat 32))

def hexDigit? (c : Char) : Option Nat :=
  if c.isDigit then some (c.toNat - '0'.toNat)
  else if 'a' ≤ c ∧ c ≤ 'f' then some (c.toNat - 'a'.toNat + 10)
  else if 'A' ≤ c ∧ c ≤ 'F' then some (c.toNat - 'A'.toNat + 10)
  else none

/-- Reads hexadecimal digits on top of what was read before. -/
def readHex (n : Nat) : List Char → Option Nat
  | [] => some n
  | c :: rest =>
    match hexDigit? c with
    | some d => readHex (n * 16 + d) rest
    | none => none

/-- Reads exactly 32 digits. -/
def ofDigits? (cs : List Char) : Option Uuid :=
  if cs.length = 32 then (readHex 0 cs).map ofNat else none

/-- Reads 36 characters with hyphens in their places. -/
def ofHyphenated? (cs : List Char) : Option Uuid :=
  if cs.length = 36 ∧ cs[8]? = some '-' ∧ cs[13]? = some '-' ∧ cs[18]? = some '-' ∧ cs[23]? = some '-'
  then ofDigits? (cs.take 8 ++ (cs.drop 9).take 4 ++ (cs.drop 14).take 4 ++ (cs.drop 19).take 4
    ++ cs.drop 24)
  else none

def parse? (s : String) : Option Uuid :=
  let cs := s.toList
  if cs.length = 32 then ofDigits? cs
  else if cs.length = 36 then ofHyphenated? cs
  else if cs.length = 38 ∧ cs.head? = some '\x7b' ∧ cs.getLast? = some '\x7d' then
    ofHyphenated? ((cs.drop 1).take 36)
  else if "urn:uuid:".toList.isPrefixOf cs then ofHyphenated? (cs.drop 9)
  else none

end Uuid
end ServingLifecycle
