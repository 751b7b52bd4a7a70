/-! Cutting texts at byte offsets. Offsets count the bytes of the UTF-8 encoding, and a cut is
possible only between two characters. -/

namespace TreeLint.Text

/-- The characters of the first `count` bytes and the characters after them; none if the cut would
fall inside a character or past the end. -/
def splitBytes? : List Char → Nat → Option (List Char × List Char)
  | chars, 0 => some ([], chars)
  | [], _ + 1 => none
  | char :: rest, count + 1 =>
    if char.utf8Size ≤ count + 1 then
      (splitBytes? rest (count + 1 - char.utf8Size)).map fun (before, after) =>
        (char :: before, after)
    else none

def sliceFrom? (text : String) (start : Nat) : Option String :=
  (splitBytes? text.toList start).map fun (_, after) => String.ofList after

def slice? (text : String) (start stop : Nat) : Option String :=
  if start ≤ stop then
    match splitBytes? text.toList start with
    | some (_, after) =>
      (splitBytes? after (stop - start)).map fun (before, _) => String.ofList before
    | none => none
  else none

end TreeLint.Text
