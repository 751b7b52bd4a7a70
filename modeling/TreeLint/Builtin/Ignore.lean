import TreeLint.Text.Lines
import TreeLint.Text.WhiteSpace

/-! Ignore files: one pattern a line, the last pattern that matches decides. A pattern with a slash
inside or in front is matched against the whole path below the folder of the ignore file, any other
pattern against the name alone. A slash at the end restricts it to folders, and an exclamation mark
in front takes back what earlier patterns ignore. -/

namespace TreeLint.Ignore

inductive Glob where
  /-- Any characters. -/
  | star
  /-- Any one character. -/
  | one
  | char (char : Char)

inductive Segment where
  /-- Any number of folders. -/
  | deep
  | name (globs : List Glob)

structure Pattern where
  segments : List Segment
  /-- Takes back what earlier patterns ignore. -/
  negated : Bool
  foldersOnly : Bool

def globsOf : List Char → List Glob
  | [] => []
  | '\\' :: char :: rest => .char char :: globsOf rest
  | '*' :: rest => .star :: globsOf rest
  | '?' :: rest => .one :: globsOf rest
  | char :: rest => .char char :: globsOf rest

def matchName : List Glob → List Char → Bool
  | [], chars => chars.isEmpty
  | .star :: globs, chars => (Text.endings chars).any (matchName globs)
  | .one :: globs, chars =>
    match chars with
    | _ :: rest => matchName globs rest
    | [] => false
  | .char wanted :: globs, chars =>
    match chars with
    | char :: rest => char = wanted && matchName globs rest
    | [] => false

def matchPath : List Segment → List String → Bool
  | [], names => names.isEmpty
  | .deep :: segments, names => (Text.endings names).any (matchPath segments)
  | .name globs :: segments, names =>
    match names with
    | name :: rest => matchName globs name.toList && matchPath segments rest
    | [] => false

def segmentOf (piece : String) : Segment :=
  if piece = "**" then .deep else .name (globsOf piece.toList)

/-- Segments of a pattern that is matched against the whole path. What ends with any number of
folders matches what is inside, not the folder itself. -/
def anchoredSegments (pattern : String) : List Segment :=
  let pieces := Text.split pattern '/'
  let segments := pieces.map segmentOf
  if 1 < pieces.length && pieces.getLast? = some "**" then segments ++ [.name [.star]]
  else segments

def trimLine (line : String) : String :=
  let reversed := line.toList.reverse
  match reversed with
  | ' ' :: '\\' :: _ => line
  | _ => String.ofList (reversed.dropWhile Text.isWhiteSpace).reverse

/-- Without the slash at its end, which may be escaped. -/
def dropEndSlash (chars : List Char) : List Char :=
  match chars.reverse with
  | '/' :: '\\' :: rest => rest.reverse
  | '/' :: rest => rest.reverse
  | _ => chars

/-- Whether the last character is a backslash that escapes nothing. -/
def hasOpenEscape (chars : List Char) : Bool :=
  (chars.reverse.takeWhile (· = '\\')).length % 2 = 1

def patternOf? (negated anchored : Bool) (chars : List Char) : Option Pattern :=
  let foldersOnly := chars.getLast? = some '/'
  let chars := dropEndSlash chars
  let text := String.ofList chars
  let segments :=
    if anchored || chars.contains '/' then anchoredSegments text
    else if text = "" || text = "**" then [.deep]
    else [.deep, .name (globsOf chars)]
  if hasOpenEscape chars then none else some ⟨segments, negated, foldersOnly⟩

/-- The pattern of a line; none for comments, empty lines and broken patterns. -/
def pattern? (line : String) : Option Pattern :=
  match (trimLine line).toList with
  | [] => none
  | '#' :: _ => none
  | '\\' :: '!' :: rest => patternOf? false false ('!' :: rest)
  | '\\' :: '#' :: rest => patternOf? false false ('#' :: rest)
  | '!' :: '/' :: rest => patternOf? true true rest
  | '!' :: rest => patternOf? true false rest
  | '/' :: rest => patternOf? false true rest
  | chars => patternOf? false false chars

/-- The patterns of an ignore file. Byte order marks in front of it are passed over. -/
def patterns (text : String) : List Pattern :=
  let text := String.ofList (text.toList.dropWhile (· = '\ufeff'))
  (Text.lines text).filterMap pattern?

/-- What a list of patterns says about a path: ignored, kept, or nothing. -/
def verdict? (patterns : List Pattern) (names : List String) (isFolder : Bool) : Option Bool :=
  match patterns.reverse.find? fun pattern =>
    (!pattern.foldersOnly || isFolder) && matchPath pattern.segments names with
  | some pattern => some (!pattern.negated)
  | none => none

end TreeLint.Ignore
