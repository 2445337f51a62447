import ServingLifecycle.Text.Blank
import ServingLifecycle.Text.PrintableTable
/-!
# Quoted texts

The form in which a message shows a text: between double quotes, with a backslash before quotes and
backslashes, short names for the common controls, and the code point for whatever has no visible form
of its own.
-/
namespace ServingLifecycle.Text

/-- A character that stands for itself: printable, and not an extension of the one before it. -/
def isPlain (c : Char) : Bool :=
  !inRanges graphemeExtendRanges c.toNat && inRanges printableRanges c.toNat

def hexDigits (n : Nat) : List Char :=
  Nat.toDigits 16 n

def quoteChar (c : Char) : List Char :=
  if c = '\x00' then ['\\', '0']
  else if c = '\t' then ['\\', 't']
  else if c = '\n' then ['\\', 'n']
  else if c = '\x0d' then ['\\', 'r']
  else if c = '"' then ['\\', '"']
  else if c = '\\' then ['\\', '\\']
  else if isPlain c then [c]
  else "\\u\x7b".toList ++ hexDigits c.toNat ++ ['\x7d']

/-- The text between double quotes, with everything in it visible. -/
def quoted (s : String) : String :=
  String.ofList ('"' :: s.toList.flatMap quoteChar ++ ['"'])

end ServingLifecycle.Text
