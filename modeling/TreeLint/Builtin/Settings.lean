import TreeLint.Builtin.Document
import TreeLint.Config.Settings

/-! Settings as a TOML document gives them. -/

namespace TreeLint.Settings

private def stringOf? : Toml.Value → Option String
  | .string text => some text
  | _ => none

private def stringsOf? : Toml.Value → Option (List String)
  | .array items => items.mapM stringOf?
  | _ => none

private def booleanOf? : Toml.Value → Option Bool
  | .boolean value => some value
  | _ => none

/-- An entry that may be absent but has to fit if it is there. -/
private def entry? {α : Type} (read : Toml.Value → Option α) (value : Option Toml.Value) :
    Option (Option α) :=
  match value with
  | none => some none
  | some value => (read value).map some

/-- The settings of a table; entries with other keys do not matter. -/
def ofEntries? (entries : List (String × Toml.Value)) : Option Settings := do
  let ignore ← entry? stringsOf? (entries.lookup "ignore")
  let excludeFolders ← entry? stringsOf? (entries.lookup "exclude_folders")
  let fix ← entry? booleanOf? (entries.lookup "fix")
  return ⟨ignore, excludeFolders, fix⟩

/-- The settings that a value stands for. Besides a table, an array can give the settings in order,
and a date gives none. -/
def ofValue? : Toml.Value → Option Settings
  | .table entries => ofEntries? entries
  | .array (ignore :: excludeFolders :: fix :: _) => do
    let ignore ← stringsOf? ignore
    let excludeFolders ← stringsOf? excludeFolders
    let fix ← booleanOf? fix
    return ⟨some ignore, some excludeFolders, some fix⟩
  | .datetime => some {}
  | _ => none

def parse? (text : String) : Option Settings := do
  let entries ← Toml.document? text
  match entries.lookup "sharplint" with
  | some value => ofValue? value
  | none => return {}

end TreeLint.Settings
