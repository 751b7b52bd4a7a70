import TreeLint.Files.Disk

/-! Listings: the files of a disk as one text, for a command that gets them from elsewhere. Each
line is a record whose fields are set apart by tabs; tabs, line breaks and backslashes inside a
field are escaped by a backslash. Paths lead from the root. The concrete tree of a source file
follows the file, one node a line, a parent before its children. -/

namespace TreeLint.Listing

inductive Record where
  /-- The working folder, which is the root otherwise. -/
  | work (path : String)
  | folder (path : String)
  | text (path text : String)
  /-- A file whose bytes are no text, and the lines in front that are. -/
  | binary (path lead : String)
  /-- A source file, whose concrete tree follows. -/
  | source (path text : String)
  | node (line : Concrete.Line)

def unescape : List Char → List Char
  | [] => []
  | '\\' :: 't' :: rest => '\t' :: unescape rest
  | '\\' :: 'n' :: rest => '\n' :: unescape rest
  | '\\' :: 'r' :: rest => '\r' :: unescape rest
  | '\\' :: char :: rest => char :: unescape rest
  | char :: rest => char :: unescape rest

def fields (line : String) : List String :=
  (Text.split line '\t').map fun field => String.ofList (unescape field.toList)

def named? : String → Option Bool
  | "0" => some false
  | "1" => some true
  | _ => none

def record? (line : String) : Option Record :=
  match fields line with
  | ["work", path] => some (.work path)
  | ["folder", path] => some (.folder path)
  | ["text", path, text] => some (.text path text)
  | ["binary", path, lead] => some (.binary path lead)
  | ["source", path, text] => some (.source path text)
  | ["node", symbol, named, start, stop, count] => do
    return .node ⟨symbol, ← named? named, ← start.toNat?, ← stop.toNat?, ← count.toNat?⟩
  | _ => none

/-- What the end of a listing says: the working folder and the files there, and the nodes in front
of them, which belong to the source file further up. -/
structure Tail where
  nodes : List Concrete.Line := []
  files : List (String × FileTree) := []
  work : List String := []

def Tail.add (tail : Tail) (path : String) (entry : FileTree) : Tail :=
  { tail with nodes := [], files := (path, entry) :: tail.files }

def Tail.precede (record : Record) (tail : Tail) : Tail :=
  match record with
  | .work path => { tail with nodes := [], work := Path.names path }
  | .folder path => tail.add path .empty
  | .text path text => tail.add path (.file (.text text none))
  | .binary path lead => tail.add path (.file (.binary lead))
  | .source path text => tail.add path (.file (.text text (Concrete.ofOutline? tail.nodes)))
  | .node line => { tail with nodes := line :: tail.nodes }

def disk? (listing : String) : Option Disk := do
  let lines := (Text.split listing '\n').filter fun line => !line.isEmpty
  let records ← lines.mapM record?
  let whole := records.foldr Tail.precede {}
  return ⟨whole.files.foldl (fun tree (path, entry) => tree.add path entry) .empty, whole.work⟩

end TreeLint.Listing
