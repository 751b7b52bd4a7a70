import TreeLint.Files.Tree

/-! A disk: all files from the root on, and the folder in which the command works. A path that
starts with a slash is followed from the root, any other path from the working folder. -/

namespace TreeLint

structure Disk where
  root : FileTree
  /-- The names that lead to the working folder. -/
  work : List String

namespace Disk

/-- The disk that holds a working folder with these files and nothing else. -/
def ofWork (files : FileTree) : Disk :=
  ⟨.folder [("work", files)], ["work"]⟩

/-- The names that a path leads to, if there is something. The empty path leads nowhere, and a
path that ends with a slash leads to folders only. -/
def locate? (disk : Disk) (path : String) : Option (List String) :=
  if path = "" then none
  else
    match disk.root.follow disk.work (Path.parts path) with
    | none => none
    | some names =>
      let folderOnly := (Path.part? ((Text.split path '/').getLast?.getD "")).isNone
      let isFolder := ((disk.root.get? names).map FileTree.isFolder).getD false
      if folderOnly && !isFolder then none else some names

def at? (disk : Disk) (path : String) : Option FileTree :=
  match disk.locate? path with
  | some names => disk.root.get? names
  | none => none

def pathExists (disk : Disk) (path : String) : Bool :=
  (disk.at? path).isSome

def isFile (disk : Disk) (path : String) : Bool :=
  match disk.at? path with
  | some (.file _) => true
  | _ => false

/-- The text of a file; none if there is no file or it holds no text. -/
def readText? (disk : Disk) (path : String) : Option String :=
  match disk.at? path with
  | some (.file contents) => contents.text?
  | _ => none

def writeText (disk : Disk) (path text : String) : Disk :=
  match disk.locate? path with
  | some names => { disk with root := disk.root.put names (.file (.text text none)) }
  | none => disk

end Disk

end TreeLint
