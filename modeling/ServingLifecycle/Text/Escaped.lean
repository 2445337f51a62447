/-!
# Escaped texts

Texts between double quotes in settings. A backslash starts an escape: a short name for a common
control, a quote, a backslash, or the code point in four or eight hexadecimal digits. Controls other
than the tab must be escaped.
-/
namespace ServingLifecycle.Text

/-- A character that may stand in a line of settings. -/
def isLegal (c : Char) : Bool :=
  c == '\t' || (0x20 ≤ c.toNat && c.toNat != 0x7F)

def isHexDigit (c : Char) : Bool :=
  c.isDigit || ('a' ≤ c && c ≤ 'f') || ('A' ≤ c && c ≤ 'F')

def hexValue (c : Char) : Nat :=
  if c.isDigit then c.toNat - '0'.toNat else c.toLower.toNat - 'a'.toNat + 10

/-- The number that digits of some base write. -/
def numberIn (base : Nat) (ds : List Char) : Nat :=
  ds.foldl (fun n c => n * base + hexValue c) 0

/-- The character whose code point the next `width` hexadecimal digits write. -/
def coded (width : Nat) (s : List Char) : Option (Char × List Char) :=
  let ds := s.take width
  let n := numberIn 16 ds
  if ds.length = width ∧ ds.all isHexDigit ∧ n.isValidChar then some (Char.ofNat n, s.drop width)
  else none

/-- The character of an escape, read after its backslash. -/
def escape? : List Char → Option (Char × List Char)
  | 'b' :: rest => some ('\x08', rest)
  | 't' :: rest => some ('\t', rest)
  | 'n' :: rest => some ('\n', rest)
  | 'f' :: rest => some ('\x0c', rest)
  | 'r' :: rest => some ('\x0d', rest)
  | '"' :: rest => some ('"', rest)
  | '\\' :: rest => some ('\\', rest)
  | 'u' :: rest => coded 4 rest
  | 'U' :: rest => coded 8 rest
  | _ => none

/-- Adds a character to a text that was read after it. -/
def precede (c : Char) (r : List Char × List Char) : List Char × List Char :=
  (c :: r.1, r.2)

def untilQuote : (most : Nat) → List Char → Option (List Char × List Char)
  | 0, _ => none
  | _ + 1, [] => none
  | most + 1, c :: rest =>
    if c = '"' then some ([], rest)
    else if c = '\\' then
      match escape? rest with
      | some (e, rest) => (untilQuote most rest).map (precede e)
      | none => none
    else if isLegal c then (untilQuote most rest).map (precede c)
    else none

/-- The text up to the closing quote, with its escapes resolved, and what follows the quote. -/
def escaped (s : List Char) : Option (List Char × List Char) :=
  untilQuote s.length s

end ServingLifecycle.Text
