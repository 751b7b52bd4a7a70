import TreeLint.Builtin.Host

/-! The command and its parts with the builtin host, on the files of a working folder. -/

namespace TreeLint

/-- The settings for a path among the files. -/
def Config.load (files : FileTree) (path : String) : Config :=
  find Host.builtin.settings (.ofWork files) path

def FileTree.collect (files : FileTree) (path : String) (excluded : List String) : Collected :=
  (Disk.ofWork files).collect Host.builtin.search path excluded

namespace Command

structure Outcome extends Answer where
  files : Disk

def run (colored : Bool) (files : FileTree) (arguments : List String) : Except RunError Outcome :=
  match execute .builtin colored arguments (.ofWork files) with
  | (.ok answer, disk) => .ok ⟨answer, disk⟩
  | (.error failure, _) => .error failure

end Command

end TreeLint
