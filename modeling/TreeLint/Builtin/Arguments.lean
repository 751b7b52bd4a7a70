import TreeLint.Command.Arguments

/-! The builtin way of reading arguments. Options may stand anywhere among the paths; behind two
dashes all is a path. -/

namespace TreeLint

inductive Switch where
  | fix
  | dryRun
  | json
  | verbose
  | help
  | version

inductive Setting where
  | ignore
  | exclude

inductive OptionName where
  | switch (switch : Switch)
  | setting (setting : Setting)

namespace OptionName

def ofLong? : String → Option OptionName
  | "fix" => some (.switch .fix)
  | "dry-run" => some (.switch .dryRun)
  | "json" => some (.switch .json)
  | "verbose" => some (.switch .verbose)
  | "help" => some (.switch .help)
  | "version" => some (.switch .version)
  | "ignore" => some (.setting .ignore)
  | "exclude" => some (.setting .exclude)
  | _ => none

end OptionName

def Switch.ofShort? : Char → Option Switch
  | 'v' => some .verbose
  | 'h' => some .help
  | 'V' => some .version
  | _ => none

namespace Arguments

/-- What has been read so far. Paths and values are looked at only when the next option begins, or
at the end. -/
structure Reading where
  arguments : Arguments := {}
  /-- An option that still needs its value. -/
  awaiting : Option Setting := none
  /-- Whether one of the latest paths is empty. -/
  emptyPath : Bool := false

namespace Reading

/-- Looks at the latest paths and at the option that needs a value. -/
def settle (reading : Reading) : Except Interruption Reading :=
  if reading.awaiting.isSome || reading.emptyPath then .error (.usage .invalidValue)
  else .ok reading

def addValue (reading : Reading) (setting : Setting) (value : String) : Reading :=
  let arguments := reading.arguments
  let arguments :=
    match setting with
    | .ignore => { arguments with ignore := arguments.ignore ++ [value] }
    | .exclude => { arguments with exclude := arguments.exclude ++ [value] }
  { reading with arguments := arguments, awaiting := none }

def addPath (reading : Reading) (path : String) : Reading :=
  { reading with
    arguments := { reading.arguments with paths := reading.arguments.paths ++ [path] }
    emptyPath := reading.emptyPath || path.isEmpty }

/-- Turns a switch on, which can be done once. -/
def turnOn (reading : Reading) (switch : Switch) : Except Interruption Reading := do
  let reading ← reading.settle
  let arguments := reading.arguments
  let once (already : Bool) (after : Arguments) : Except Interruption Reading :=
    if already then .error (.usage .argumentConflict)
    else .ok { reading with arguments := after }
  match switch with
  | .fix => once arguments.fix { arguments with fix := true }
  | .dryRun => once arguments.dryRun { arguments with dryRun := true }
  | .json => once arguments.json { arguments with json := true }
  | .verbose => once arguments.verbose { arguments with verbose := true }
  | .help => .error .help
  | .version => .error .version

/-- An option with its whole name, and its value if one is attached. -/
def longOption (reading : Reading) (name : String) (value : Option String) :
    Except Interruption Reading :=
  match OptionName.ofLong? name, value with
  | none, _ => .error (.usage .unknownArgument)
  | some (.switch _), some _ => .error (.usage .tooManyValues)
  | some (.switch switch), none => reading.turnOn switch
  | some (.setting setting), some value => do return (← reading.settle).addValue setting value
  | some (.setting setting), none => do return { ← reading.settle with awaiting := some setting }

def shortOptions (reading : Reading) : List Char → Except Interruption Reading
  | [] => .ok reading
  | letter :: rest =>
    match Switch.ofShort? letter with
    | some switch => do (← reading.turnOn switch).shortOptions rest
    | none => .error (.usage .unknownArgument)

def splitValue (chars : List Char) : String × Option String :=
  match chars.span (· ≠ '=') with
  | (name, []) => (String.ofList name, none)
  | (name, _ :: value) => (String.ofList name, some (String.ofList value))

/-- One argument that is not behind two dashes. -/
def next (reading : Reading) (argument : String) : Except Interruption Reading :=
  match argument.toList with
  | '-' :: '-' :: name =>
    let (name, value) := splitValue name
    reading.longOption name value
  | '-' :: letter :: rest => reading.shortOptions (letter :: rest)
  | _ =>
    match reading.awaiting with
    | some setting => .ok (reading.addValue setting argument)
    | none => .ok (reading.addPath argument)

def all (reading : Reading) : List String → Except Interruption Reading
  | [] => reading.settle
  | argument :: rest =>
    if argument = "--" then (rest.foldl addPath reading).settle
    else do (← reading.next argument).all rest

end Reading

/-- Reads the arguments; without a path the working folder is meant. -/
def parse (arguments : List String) : Except Interruption Arguments := do
  let reading ← Reading.all {} arguments
  let arguments := reading.arguments
  return if arguments.paths.isEmpty then { arguments with paths := ["."] } else arguments

end Arguments

end TreeLint
