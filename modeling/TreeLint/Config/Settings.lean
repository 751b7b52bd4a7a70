import TreeLint.Analysis.Source
import TreeLint.Files.Disk

/-! Settings of a project. They stand in a file at the root of the project; the nearest such file at
or above the first analysed path counts. How such a file is read is given from outside. A file that
cannot be read or does not fit is passed over. -/

namespace TreeLint

def settingsFile : String := ".sharplint.toml"

structure Settings where
  ignore : Option (List String) := none
  excludeFolders : Option (List String) := none
  fix : Option Bool := none

structure Config where
  settings : Settings := {}
  file : Option String := none

namespace Config

def ignoredRules (config : Config) : List String :=
  config.settings.ignore.getD []

def excludedFolders (config : Config) : List String :=
  config.settings.excludeFolders.getD []

def options (config : Config) : Options where
  ignoredRules := config.ignoredRules
  excludedFolders := config.excludedFolders
  fix := config.settings.fix.getD false

def inFolder? (read : String → Option Settings) (disk : Disk) (folder : String) : Option Config := do
  let file := Path.child folder settingsFile
  let text ← disk.readText? file
  let settings ← read text
  return ⟨settings, some file⟩

/-- The first usable settings file in a folder or above it, at most `bound` folders up. -/
def upwards (read : String → Option Settings) (disk : Disk) : Nat → String → Config
  | 0, _ => {}
  | bound + 1, folder =>
    match inFolder? read disk folder with
    | some config => config
    | none =>
      match Path.parent? folder with
      | some parent => upwards read disk bound parent
      | none => {}

/-- The settings for a path. A path has no more folders above it than characters. -/
def find (read : String → Option Settings) (disk : Disk) (path : String) : Config :=
  let folder := if disk.isFile path then (Path.parent? path).getD path else path
  upwards read disk (folder.length + 2) folder

end Config

end TreeLint
