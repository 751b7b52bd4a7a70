/-! Searching and replacing in texts, and comparing them without regard to case. -/

namespace TreeLint.Text

def occursIn (pattern : List Char) : List Char → Bool
  | [] => pattern.isEmpty
  | char :: rest => pattern.isPrefixOf (char :: rest) || occursIn pattern rest

def contains (text pattern : String) : Bool :=
  occursIn pattern.toList text.toList

/-- Skips `skip` characters, then replaces the occurrences of `pattern` from left to right. -/
def replaceFrom (pattern replacement : List Char) : Nat → List Char → List Char
  | _, [] => []
  | skip + 1, _ :: rest => replaceFrom pattern replacement skip rest
  | 0, char :: rest =>
    if pattern.isPrefixOf (char :: rest) then
      replacement ++ replaceFrom pattern replacement (pattern.length - 1) rest
    else char :: replaceFrom pattern replacement 0 rest

/-- The text with every occurrence of a non-empty `pattern` replaced. Occurrences are found from
left to right, without overlap, and replacements are not searched again. -/
def replaceAll (text pattern replacement : String) : String :=
  String.ofList (replaceFrom pattern.toList replacement.toList 0 text.toList)

/-- Equality up to the case of the letters `a` to `z`. -/
def sameIgnoringCase (first second : String) : Bool :=
  first.toList.map Char.toLower = second.toList.map Char.toLower

end TreeLint.Text
