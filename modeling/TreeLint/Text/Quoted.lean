import TreeLint.Text.Extending
import TreeLint.Text.Ignorable
import TreeLint.Text.Printable

/-! Text between double quotes, for messages about syntax trees. What cannot be seen in print is
written as an escape. -/

namespace TreeLint.Text

/-- A code point in hexadecimal digits between braces. -/
def codeEscape (char : Char) : List Char :=
  "\\u\x7b".toList ++ Nat.toDigits 16 char.toNat ++ ['\x7d']

/-- One character of a quoted text. -/
def escapeChar (char : Char) : List Char :=
  if char = '\x00' then ['\\', '0']
  else if char = '\t' then ['\\', 't']
  else if char = '\r' then ['\\', 'r']
  else if char = '\n' then ['\\', 'n']
  else if char = '"' then ['\\', '"']
  else if char = '\\' then ['\\', '\\']
  else if isExtending char || isIgnorable char || !isPrintable char then codeEscape char
  else [char]

def quoted (text : String) : String :=
  String.ofList ('"' :: text.toList.flatMap escapeChar ++ ['"'])

end TreeLint.Text
