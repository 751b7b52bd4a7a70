import TreeLint.Analysis.Run
import TreeLint.Text.Split

/-! Reports as JSON, indented by two blanks a level. Empty lists stay on one line. -/

namespace TreeLint

inductive Json where
  | string (text : String)
  | number (value : Nat)
  | boolean (value : Bool)
  | array (items : List Json)
  | object (fields : List (String × Json))

namespace Json

def hexByte (value : Nat) : List Char :=
  let digits := Nat.toDigits 16 value
  List.replicate (2 - digits.length) '0' ++ digits

/-- One character of a quoted text. Only quotes, backslashes and control characters are escaped. -/
def escape (char : Char) : List Char :=
  if char = '"' then ['\\', '"']
  else if char = '\\' then ['\\', '\\']
  else if char = '\x08' then ['\\', 'b']
  else if char = '\x0c' then ['\\', 'f']
  else if char = '\n' then ['\\', 'n']
  else if char = '\r' then ['\\', 'r']
  else if char = '\t' then ['\\', 't']
  else if char.toNat < 0x20 then "\\u00".toList ++ hexByte char.toNat
  else [char]

def quote (text : String) : String :=
  String.ofList ('"' :: text.toList.flatMap escape ++ ['"'])

def newLine (level : Nat) : String :=
  "\n" ++ Text.join "" (List.replicate level "  ")

/-- Items between brackets, each on a line of its own. -/
def enclose (left right : String) (level : Nat) : List String → String
  | [] => left ++ right
  | items =>
    left ++ newLine (level + 1) ++ Text.join ("," ++ newLine (level + 1)) items ++
      newLine level ++ right

mutual

def render (level : Nat) : Json → String
  | string text => quote text
  | number value => toString value
  | boolean value => if value then "true" else "false"
  | array items => enclose "[" "]" level (renderItems (level + 1) items)
  | object fields => enclose "\x7b" "\x7d" level (renderFields (level + 1) fields)

def renderItems (level : Nat) : List Json → List String
  | [] => []
  | item :: rest => item.render level :: renderItems level rest

def renderFields (level : Nat) : List (String × Json) → List String
  | [] => []
  | (key, value) :: rest =>
    (quote key ++ ": " ++ value.render level) :: renderFields level rest

end

end Json

def Finding.toJson (finding : Finding) : Json :=
  .object [("rule_id", .string finding.ruleId), ("category", .string finding.category),
    ("severity", .string finding.severity), ("message", .string finding.message),
    ("file", .string finding.file), ("line", .number finding.line),
    ("col", .number finding.column)]

def AppliedFix.toJson (fix : AppliedFix) : Json :=
  .object [("rule_id", .string fix.ruleId), ("arguments", .array (fix.arguments.map .string))]

def FileFixes.toJson (fixes : FileFixes) : Json :=
  .object [("file", .string fixes.file), ("applied", .array (fixes.applied.map AppliedFix.toJson)),
    ("written", .boolean fixes.written)]

def ReadFailure.toJson (failure : ReadFailure) : Json :=
  .object [("file", .string failure.file), ("error", .string failure.error)]

def Summary.toJson (summary : Summary) : Json :=
  .object [("total_files", .number summary.files),
    ("total_lines_analyzed", .number summary.lines),
    ("findings_count", .number summary.findings), ("fixes_applied", .number summary.fixes),
    ("files_changed", .number summary.changedFiles),
    ("parse_errors_count", .number summary.failures)]

namespace RunReport

def toJson (report : RunReport) : Json :=
  .object [("findings", .array (report.findings.map Finding.toJson)),
    ("fixes", .array (report.fixes.map FileFixes.toJson)),
    ("parse_errors", .array (report.failures.map ReadFailure.toJson)),
    ("analysis_summary", report.summary.toJson)]

def json (report : RunReport) : String :=
  report.toJson.render 0 ++ "\n"

end RunReport

end TreeLint
