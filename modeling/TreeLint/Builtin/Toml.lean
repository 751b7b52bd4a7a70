/-! The TOML format: its values, and how tables grow while a document is read. A table is written in
one place, under its header, as a path on the way to another header, or piece by piece through
dotted keys, and each way of writing it rules some of the others out. -/

namespace TreeLint.Toml

inductive Value where
  | string (text : String)
  | integer (value : Int)
  | float
  | boolean (value : Bool)
  | datetime
  | array (items : List Value)
  | table (entries : List (String × Value))

inductive Origin where
  /-- It has a header of its own. -/
  | header
  /-- It stands on the path of another table's header. -/
  | passing
  /-- It was made by dotted keys. -/
  | dotted
  deriving DecidableEq

inductive Item where
  | value (value : Value)
  | table (origin : Origin) (entries : List (String × Item))
  /-- Tables under one repeated header, the latest first. -/
  | tables (entries : List (List (String × Item)))

abbrev Entries := List (String × Item)

namespace Item

mutual

def finish : Item → Value
  | value content => content
  | table _ entries => .table (finishEntries entries)
  | tables all => .array (finishTables all).reverse

def finishEntries : List (String × Item) → List (String × Value)
  | [] => []
  | (key, item) :: rest => (key, item.finish) :: finishEntries rest

def finishTables : List (List (String × Item)) → List Value
  | [] => []
  | entries :: rest => .table (finishEntries entries) :: finishTables rest

end

end Item

namespace Entries

/-- The entries with the item of a key replaced, or added at the end. -/
def put (key : String) (item : Item) : Entries → Entries
  | [] => [(key, item)]
  | (other, old) :: rest =>
    if other = key then (key, item) :: rest else (other, old) :: put key item rest

/-- Changes the table that dotted keys lead to. Tables on the way are made as needed. Those that are
there already must have no header of their own, and the last one must have been made by dotted
keys; of repeated tables on the way the latest is meant. -/
def changeDotted (path : List String) (change : Entries → Option Entries) (entries : Entries) :
    Option Entries :=
  match path with
  | [] => change entries
  | key :: rest =>
    match entries.lookup key with
    | none => do
      let inner ← changeDotted rest change []
      return put key (.table .dotted inner) entries
    | some (.table origin inner) =>
      if origin = .dotted || (origin = .passing && !rest.isEmpty) then do
        let inner ← changeDotted rest change inner
        return put key (.table origin inner) entries
      else none
    | some (.tables (latest :: earlier)) =>
      if rest.isEmpty then none
      else do
        let latest ← changeDotted rest change latest
        return put key (.tables (latest :: earlier)) entries
    | some _ => none

/-- Changes the table that the keys of a header lead to. Tables on the way are made as needed; of
repeated tables the latest is meant. -/
def changeHeaded (path : List String) (change : Entries → Option Entries) (entries : Entries) :
    Option Entries :=
  match path with
  | [] => change entries
  | key :: rest =>
    match entries.lookup key with
    | none => do
      let inner ← changeHeaded rest change []
      return put key (.table .passing inner) entries
    | some (.table origin inner) => do
      let inner ← changeHeaded rest change inner
      return put key (.table origin inner) entries
    | some (.tables (latest :: earlier)) => do
      let latest ← changeHeaded rest change latest
      return put key (.tables (latest :: earlier)) entries
    | some _ => none

/-- Adds a value under a dotted key. A key has one value. -/
def addValue (path : List String) (key : String) (value : Value) (entries : Entries) :
    Option Entries :=
  entries.changeDotted path fun table =>
    match table.lookup key with
    | none => some (put key (.value value) table)
    | some _ => none

/-- Opens the table of a header. A table has one header, and none if dotted keys made it. -/
def openTable (path : List String) (key : String) (entries : Entries) : Option Entries :=
  entries.changeHeaded path fun table =>
    match table.lookup key with
    | none => some (put key (.table .header []) table)
    | some (.table .passing inner) => some (put key (.table .header inner) table)
    | some _ => none

/-- Opens one more table under a repeated header. -/
def openRepeated (path : List String) (key : String) (entries : Entries) : Option Entries :=
  entries.changeHeaded path fun table =>
    match table.lookup key with
    | none => some (put key (.tables [[]]) table)
    | some (.tables all) => some (put key (.tables ([] :: all)) table)
    | some _ => none

end Entries

end TreeLint.Toml
