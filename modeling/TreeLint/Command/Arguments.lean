/-! The arguments of the command, and why they may not be usable. -/

namespace TreeLint

structure Arguments where
  paths : List String := []
  ignore : List String := []
  exclude : List String := []
  fix : Bool := false
  dryRun : Bool := false
  json : Bool := false
  verbose : Bool := false

inductive UsageError where
  /-- An option that does not exist. -/
  | unknownArgument
  /-- An option without its value, or an empty path. -/
  | invalidValue
  /-- A value for an option that takes none. -/
  | tooManyValues
  /-- An option without value that is given twice. -/
  | argumentConflict
  deriving DecidableEq

/-- Why reading the arguments ends before their end. -/
inductive Interruption where
  | help
  | version
  | usage (error : UsageError)
  deriving DecidableEq

end TreeLint
