import TreeLint.Text.Search
import TreeLint.Text.Split

/-! Lines of a text. Positions are told as line and column, both counted from one; columns count
bytes. A line ends with a line feed, and a carriage return in front of that belongs to the ending.
A text that ends with a line feed has no empty line behind it, yet the offset behind its last byte
lies on a line of its own. -/

namespace TreeLint

structure LineIndex where
  starts : List Nat

namespace LineIndex

/-- Offsets behind the line feeds of a text that starts at `offset`. -/
def startsAfter (offset : Nat) : List Char → List Nat
  | [] => []
  | char :: rest =>
    if char = '\n' then (offset + 1) :: startsAfter (offset + 1) rest
    else startsAfter (offset + char.utf8Size) rest

def ofText (text : String) : LineIndex :=
  ⟨0 :: startsAfter 0 text.toList⟩

/-- The line of an offset: the number of lines that start at or before it. -/
def line (index : LineIndex) (offset : Nat) : Nat :=
  index.starts.countP fun start => start ≤ offset

def position (index : LineIndex) (offset : Nat) : Nat × Nat :=
  let line := index.line offset
  let start := index.starts[line - 1]?.getD 0
  (line, offset - start + 1)

end LineIndex

namespace Text

/-- A line without the carriage return at its end. -/
def stripReturn (line : List Char) : List Char :=
  if line.getLast? = some '\r' then line.dropLast else line

def lines (text : String) : List String :=
  let pieces := splitItems '\n' text.toList
  let ended := (pieces.dropLast.map stripReturn).map String.ofList
  match pieces.getLast? with
  | some [] | none => ended
  | some last => ended ++ [String.ofList last]

end Text

/-- Comments that silence the rules on their line. -/
def suppressions : List String :=
  ["// sharplint: ignore", "// sharplint:ignore"]

/-- Whether a line has a comment that silences the rules. -/
def isSuppressed (line : String) : Bool :=
  suppressions.any fun comment => Text.contains line comment

def suppressedLines (text : String) : List Nat :=
  ((Text.lines text).zipIdx 1).filterMap fun (line, number) =>
    if isSuppressed line then some number else none

end TreeLint
