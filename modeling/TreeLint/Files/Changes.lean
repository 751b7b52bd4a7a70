import TreeLint.Files.Disk

/-! Which files differ between two states of a disk. -/

namespace TreeLint

namespace FileTree

mutual

def textsBelow (path : String) : FileTree → List (String × String)
  | file contents => contents.text?.toList.map fun text => (path, text)
  | folder entries => textsIn path entries

def textsIn (path : String) : List (String × FileTree) → List (String × String)
  | [] => []
  | (name, entry) :: rest => entry.textsBelow (Path.child path name) ++ textsIn path rest

end

end FileTree

/-- The texts of `after` that were not there in `before`, with the paths of their files from the
root. -/
def Disk.changes (before after : Disk) : List (String × String) :=
  (after.root.textsBelow "/").filter fun (path, text) => before.readText? path ≠ some text

end TreeLint
