/-!
# Series

Items with commas between them, up to a closing mark. A comma may stand before the mark.
-/
namespace ServingLifecycle.Text

/-- Reads up to `most` items and the closing mark. `skip` drops what may stand around the items. -/
def series {α : Type} (skip : List Char → List Char)
    (item : List Char → Option (α × List Char)) (close : Char) :
    (most : Nat) → List Char → Option (List α × List Char)
  | 0, _ => none
  | most + 1, s =>
    match skip s with
    | [] => none
    | c :: rest =>
      if c = close then some ([], rest)
      else
        match item (c :: rest) with
        | none => none
        | some (a, rest) =>
          match skip rest with
          | [] => none
          | d :: rest =>
            if d = ',' then (series skip item close most rest).map fun r => (a :: r.1, r.2)
            else if d = close then some ([a], rest)
            else none

end ServingLifecycle.Text
