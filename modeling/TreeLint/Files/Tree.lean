import TreeLint.Files.Contents
import TreeLint.Files.Path

/-! Files and folders, held in memory. -/

namespace TreeLint

inductive FileTree where
  | file (contents : Contents)
  | folder (entries : List (String × FileTree))

namespace FileTree

def empty : FileTree := folder []

def isFolder : FileTree → Bool
  | folder _ => true
  | file _ => false

def entry? (tree : FileTree) (name : String) : Option FileTree :=
  match tree with
  | folder entries => entries.lookup name
  | file _ => none

def get? (tree : FileTree) : List String → Option FileTree
  | [] => some tree
  | name :: rest =>
    match tree.entry? name with
    | some entry => entry.get? rest
    | none => none

/-- The entries with one of them put in place of the entry of its name, or at the end. -/
def putEntry (name : String) (entry : FileTree) :
    List (String × FileTree) → List (String × FileTree)
  | [] => [(name, entry)]
  | (other, old) :: rest =>
    if other = name then (name, entry) :: rest else (other, old) :: putEntry name entry rest

def put (tree : FileTree) (names : List String) (entry : FileTree) : FileTree :=
  match names with
  | [] => entry
  | name :: rest =>
    let below := ((tree.entry? name).getD empty).put rest entry
    match tree with
    | folder entries => folder (putEntry name below entries)
    | file _ => folder [(name, below)]

/-- The tree with a file or folder added at a path. A folder that is there already is kept. -/
def add (tree : FileTree) (path : String) (entry : FileTree) : FileTree :=
  let names := Path.names path
  match tree.get? names, entry with
  | some (folder _), folder _ => tree
  | _, _ => tree.put names entry

/-- Follows the parts of a path, each of which has to be there, from the names that lead to the
current folder. Above the root there is only the root itself. -/
def follow (tree : FileTree) (names : List String) : List Path.Part → Option (List String)
  | [] => some names
  | .root :: rest => tree.follow [] rest
  | part :: rest =>
    match tree.get? names with
    | some (folder _) =>
      match part with
      | .up => tree.follow names.dropLast rest
      | .name text =>
        if (tree.get? (names ++ [text])).isSome then tree.follow (names ++ [text]) rest else none
      | _ => tree.follow names rest
    | _ => none

end FileTree

end TreeLint
