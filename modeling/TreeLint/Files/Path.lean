import TreeLint.Text.Search
import TreeLint.Text.Split

/-! Paths as they are written. A path is kept as its text, since reports show it so; what it means
is the list of its parts. Empty parts and inner dots mean nothing, so paths that differ only in
those are the same path, while a dot in front makes a difference. -/

namespace TreeLint.Path

inductive Part where
  /-- The slash a path may start with. -/
  | root
  /-- The dot a path may start with. -/
  | here
  /-- Two dots: the folder above. -/
  | up
  | name (text : String)
  deriving DecidableEq

/-- A piece between slashes, behind the first one. -/
def part? (piece : String) : Option Part :=
  if piece = "" || piece = "." then none
  else if piece = ".." then some .up
  else some (.name piece)

def partsOf : List String → List Part
  | [] => []
  | [""] => []
  | first :: rest =>
    if first = "" then .root :: rest.filterMap part?
    else if first = "." then .here :: rest.filterMap part?
    else (first :: rest).filterMap part?

def parts (path : String) : List Part :=
  partsOf (Text.split path '/')

/-- The names on the way that a path leads downwards. -/
def names (path : String) : List String :=
  (parts path).filterMap fun part =>
    match part with
    | .name text => some text
    | _ => none

/-- The order of parts as an order of lists of numbers: names come last, by their characters. -/
def Part.key : Part → List Nat
  | root => [0]
  | here => [1]
  | up => [2]
  | name text => 3 :: text.toList.map Char.toNat

def key (path : String) : List (List Nat) :=
  (parts path).map Part.key

/-- Paths are ordered part by part, so that a folder's files stay together. -/
def le (first second : String) : Bool :=
  !decide (key second < key first)

def same (first second : String) : Bool :=
  parts first = parts second

def child (folder name : String) : String :=
  if folder = "" then name
  else if folder.toList.getLast? = some '/' then folder ++ name
  else folder ++ "/" ++ name

def dropLead (lead text : List Char) : List Char :=
  if lead.isPrefixOf text then text.drop lead.length else text

/-- The path below a folder of something in it, both given as they are written. A dot in front is
passed over once in the folder and twice in the path, and a folder that is not written in front of
the path is left out of account; so the path stays long below a folder with more dots in front. -/
def below (folder path : String) : String :=
  let dot := ['.', '/']
  let folder := dropLead dot folder.toList
  let path := dropLead dot (dropLead dot path.toList)
  if same (String.ofList folder) "." || !path.contains '/' || !folder.isPrefixOf path then
    String.ofList path
  else String.ofList (dropLead ['/'] (dropLead folder path))

/-- Drops the pieces at the end that mean nothing; the first piece always means something. -/
def trimPieces (pieces : List String) : List String :=
  match pieces with
  | [] => []
  | first :: rest =>
    first :: (rest.reverse.dropWhile fun piece => (part? piece).isNone).reverse

/-- The path without its last part; none when there is no part to drop. -/
def parent? (path : String) : Option String :=
  match parts path with
  | [] | [.root] => none
  | _ =>
    let above := (trimPieces (Text.split path '/')).dropLast
    match trimPieces above with
    | [""] => some "/"
    | pieces => some (Text.join "/" pieces)

/-- The last part of a path, if that is a name. -/
def fileName? (path : String) : Option String :=
  match (parts path).getLast? with
  | some (.name text) => some text
  | _ => none

/-- What stands behind the last dot of a file's name, unless the name starts with that dot. -/
def extension? (path : String) : Option String :=
  match fileName? path with
  | none => none
  | some name =>
    let pieces := Text.split name '.'
    match pieces.dropLast with
    | [] | [""] => none
    | _ => pieces.getLast?

/-- A path for people: slashes only, and no dot in front. -/
def display (path : String) : String :=
  let chars := path.toList.map fun char => if char = '\\' then '/' else char
  match chars with
  | '.' :: '/' :: rest => String.ofList rest
  | chars => String.ofList chars

end TreeLint.Path
