import TreeLint.Files.Disk

/-! Finding the source files below a path. A folder is searched with all folders below it, except
those with an excluded name. How folders are searched, and what else is left out on the way, is
given from outside. -/

namespace TreeLint

/-- Folders that hold no sources of their own. -/
def usualExcludes : List String :=
  [".git", ".idea", ".vs", "TestResults", "bin", "node_modules", "obj", "packages"]

def sourceExtension : String := "cs"

/-- Whether an entry of an exclusion list means a name: a star followed by a dot stands for any
beginning, all else for itself. -/
def excludes (exclude name : String) : Bool :=
  match exclude.toList with
  | '*' :: '.' :: rest => ('.' :: rest).isSuffixOf name.toList
  | chars => chars = name.toList

def isExcluded (name : String) (excluded : List String) : Bool :=
  excluded.any fun exclude => excludes exclude name

structure Spot where
  path : String
  isFolder : Bool

/-- A way to search what stands at and below a path. What a filter rejects is passed over, and so
is all below it. -/
abbrev Search := Disk → String → (Spot → Bool) → List Spot

structure Collected where
  files : List String
  folders : Nat

/-- Whether a search from a path goes on at a spot. Where it starts it goes on whatever the name. -/
def isEntered (path : String) (excluded : List String) (spot : Spot) : Bool :=
  Path.same spot.path path || !spot.isFolder ||
    match Path.fileName? spot.path with
    | some name => !isExcluded name excluded
    | none => true

def Spot.isSource (spot : Spot) : Bool :=
  !spot.isFolder && Path.extension? spot.path = some sourceExtension

/-- The source files below a path, in the order of paths. A file that is asked for is collected
whatever it is called. -/
def Disk.collect (disk : Disk) (search : Search) (path : String) (excluded : List String) :
    Collected :=
  if disk.isFile path then ⟨[path], 0⟩
  else
    let spots := search disk path (isEntered path (excluded ++ usualExcludes))
    let folders := spots.filter fun spot => spot.isFolder && !Path.same spot.path path
    ⟨((spots.filter Spot.isSource).map Spot.path).mergeSort Path.le, folders.length⟩

end TreeLint
