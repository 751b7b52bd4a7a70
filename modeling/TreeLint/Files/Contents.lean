import TreeLint.Grammar.Concrete
import TreeLint.Text.Split

/-! What a file holds. -/

namespace TreeLint

inductive Contents where
  /-- A text, and how the grammar reads it, if it was asked to. -/
  | text (text : String) (concrete : Option Concrete)
  /-- Bytes that are no text, and the lines in front that are. -/
  | binary (lead : String)

namespace Contents

def decode? (bytes : List UInt8) : Option String :=
  String.fromUTF8? ⟨bytes.toArray⟩

def ofBytes (bytes : List UInt8) : Contents :=
  match decode? bytes with
  | some content => .text content none
  | none =>
    let lines := ((Text.splitItems 10 bytes).map decode?).takeWhile Option.isSome
    .binary (Text.join "\n" (lines.filterMap id ++ [""]))

def text? : Contents → Option String
  | .text content _ => some content
  | .binary _ => none

/-- As much of the file as a reader gets that takes it line by line and stops at what is no text. -/
def readable : Contents → String
  | .text content _ => content
  | .binary lead => lead

end Contents

end TreeLint
