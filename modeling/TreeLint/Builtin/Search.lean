import TreeLint.Builtin.Ignore
import TreeLint.Files.Collect

/-! The builtin way of searching folders. What ignore files leave out is passed over, besides what a
filter rejects. -/

namespace TreeLint

/-- Where the folder of an ignore file stands. -/
inductive Standpoint where
  /-- Above the searched folder, so many names below the root. -/
  | above (depth : Nat)
  /-- On the way of the search, which came to it by this path. -/
  | reached (path : String)

/-- The names that lead from a standpoint to a place, given by its path and by its names from the
root. -/
def Standpoint.namesTo (standpoint : Standpoint) (path : String) (names : List String) :
    List String :=
  match standpoint with
  | .above depth => names.drop depth
  | .reached folder => Text.split (Path.below folder path) '/'

structure IgnoreScope where
  standpoint : Standpoint
  /-- Patterns that hold in any case. -/
  plain : List Ignore.Pattern
  /-- Patterns that hold in a repository only. -/
  versioned : List Ignore.Pattern
  /-- Patterns that the repository itself brings. -/
  repository : List Ignore.Pattern
  /-- Whether a repository has its root here. -/
  isRepository : Bool

namespace IgnoreScope

private def patternsIn (folder : FileTree) (names : List String) : List Ignore.Pattern :=
  match folder.get? names with
  | some (.file contents) => Ignore.patterns contents.readable
  | _ => []

def ofFolder (standpoint : Standpoint) (folder : FileTree) : IgnoreScope where
  standpoint := standpoint
  plain := patternsIn folder [".ignore"]
  versioned := patternsIn folder [".gitignore"]
  repository := patternsIn folder [".git", "info", "exclude"]
  isRepository := (folder.entry? ".git").isSome

/-- The scopes up to the root of the innermost repository; none outside a repository. -/
def inRepository (scopes : List IgnoreScope) : List IgnoreScope :=
  let (inside, outside) := scopes.span fun scope => !scope.isRepository
  match outside with
  | root :: _ => inside ++ [root]
  | [] => []

def firstVerdict? (scopes : List IgnoreScope) (patterns : IgnoreScope → List Ignore.Pattern)
    (path : String) (names : List String) (isFolder : Bool) : Option Bool :=
  scopes.findSome? fun scope =>
    Ignore.verdict? (patterns scope) (scope.standpoint.namesTo path names) isFolder

/-- Whether ignore files leave out what a path and these names lead to. Scopes are given from the
inside out. -/
def leavesOut (scopes : List IgnoreScope) (path : String) (names : List String)
    (isFolder : Bool) : Bool :=
  let repository := inRepository scopes
  (((firstVerdict? scopes IgnoreScope.plain path names isFolder).or
    (firstVerdict? repository IgnoreScope.versioned path names isFolder)).or
    (firstVerdict? repository IgnoreScope.repository path names isFolder)).getD false

/-- The scopes of the folders above a folder, from the inside out. -/
def onTheWay (tree : FileTree) (names : List String) : List IgnoreScope :=
  ((List.range names.length).filterMap fun depth =>
    (tree.get? (names.take depth)).map (ofFolder (.above depth))).reverse

end IgnoreScope

structure Place where
  /-- The path as it is reported. -/
  path : String
  /-- Names from the root. -/
  names : List String
  /-- Ignore files that hold here, from the inside out. -/
  scopes : List IgnoreScope

def Place.child (place : Place) (name : String) : Place :=
  ⟨Path.child place.path name, place.names ++ [name], place.scopes⟩

def Place.enter (place : Place) (entries : List (String × FileTree)) : Place :=
  { place with scopes := .ofFolder (.reached place.path) (.folder entries) :: place.scopes }

mutual

/-- What a search comes to at a place that is neither rejected nor ignored. -/
def spotsAt (keep : Spot → Bool) (place : Place) : FileTree → List Spot
  | .file _ => [⟨place.path, false⟩]
  | .folder entries => ⟨place.path, true⟩ :: spotsIn keep (place.enter entries) entries

def spotsIn (keep : Spot → Bool) (place : Place) : List (String × FileTree) → List Spot
  | [] => []
  | (name, entry) :: rest =>
    let here := place.child name
    let others := spotsIn keep place rest
    if IgnoreScope.leavesOut here.scopes here.path here.names entry.isFolder then others
    else if keep ⟨here.path, entry.isFolder⟩ then spotsAt keep here entry ++ others
    else others

end

def Search.builtin : Search := fun disk path keep =>
  match disk.locate? path with
  | none => []
  | some names =>
    match disk.root.get? names with
    | some tree => spotsAt keep ⟨path, names, IgnoreScope.onTheWay disk.root names⟩ tree
    | none => []

end TreeLint
