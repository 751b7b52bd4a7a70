import TreeLint.Builtin.Quoted
import TreeLint.Builtin.Scalar

/-! Reading TOML documents. A document that breaks a rule of the format has no meaning at all. The
readers take a bound on the number of readings; the length of the document is always enough, since
each reading takes at least one character. -/

namespace TreeLint.Toml

/-- Skips blanks, line breaks and comments. -/
def skipGap (inComment : Bool) : List Char → Option (List Char)
  | [] => some []
  | char :: rest =>
    if char = '\n' then skipGap false rest
    else if char = '\r' then if rest.head? = some '\n' then skipGap inComment rest else none
    else if inComment then if isPlain char then skipGap true rest else none
    else if isBlank char then skipGap false rest
    else if char = '#' then skipGap true rest
    else some (char :: rest)

def skipBlanks (chars : List Char) : List Char :=
  chars.dropWhile isBlank

def isBareKeyChar (char : Char) : Bool :=
  char.isAlphanum || char = '_' || char = '-'

def simpleKey? (chars : List Char) : Option (String × List Char) :=
  let bare := chars.takeWhile isBareKeyChar
  if bare.isEmpty then
    (quotedKey? chars).map fun (text, rest) => (String.ofList text, rest)
  else some (String.ofList bare, chars.drop bare.length)

/-- How deep values may be nested, and how many parts a key may have. -/
def nestingLimit : Nat := 80

def keyParts? : Nat → List Char → Option (List String × String × List Char)
  | 0, _ => none
  | bound + 1, chars => do
    let (first, rest) ← simpleKey? chars
    match skipBlanks rest with
    | '.' :: more =>
      let (path, last, rest) ← keyParts? bound (skipBlanks more)
      return (first :: path, last, rest)
    | _ => return ([], first, rest)

/-- A key with few enough parts. -/
def key? (bound : Nat) (chars : List Char) : Option (List String × String × List Char) :=
  (keyParts? bound chars).filter fun (path, _, _) => path.length < nestingLimit

mutual

/-- A value in which at most `depth` arrays and inline tables are nested. -/
def value? : Nat → Nat → List Char → Option (Value × List Char)
  | 0, _, _ => none
  | bound + 1, depth, chars =>
    match depth, chars with
    | 0, '[' :: _ | 0, '\x7b' :: _ => none
    | depth + 1, '[' :: rest => do
      let (items, rest) ← items? bound depth rest
      return (.array items, rest)
    | depth + 1, '\x7b' :: rest => do
      let (entries, rest) ← fields? bound depth [] rest
      return (.table (Item.finishEntries entries), rest)
    | _, chars =>
      if chars.head? = some '"' || chars.head? = some singleQuote then
        (quotedText? chars).map fun (text, rest) => (.string (String.ofList text), rest)
      else do
        let (token, rest) := cutScalar chars
        let value ← scalar? token
        return (value, rest)

def items? : Nat → Nat → List Char → Option (List Value × List Char)
  | 0, _, _ => none
  | bound + 1, depth, chars => do
    match ← skipGap false chars with
    | ']' :: rest => return ([], rest)
    | chars =>
      let (item, rest) ← value? bound depth chars
      match ← skipGap false rest with
      | ',' :: rest =>
        let (items, rest) ← items? bound depth rest
        return (item :: items, rest)
      | ']' :: rest => return ([item], rest)
      | _ => none

/-- The entries of an inline table, up to its closing brace. -/
def fields? : Nat → Nat → Entries → List Char → Option (Entries × List Char)
  | 0, _, _, _ => none
  | bound + 1, depth, entries, chars => do
    match ← skipGap false chars with
    | '\x7d' :: rest => return (entries, rest)
    | chars =>
      let (path, key, rest) ← key? bound chars
      match skipBlanks rest with
      | '=' :: rest =>
        let (value, rest) ← value? bound depth (skipBlanks rest)
        let entries ← entries.addValue path key value
        match ← skipGap false rest with
        | ',' :: rest => fields? bound depth entries rest
        | '\x7d' :: rest => return (entries, rest)
        | _ => none
      | _ => none

end

/-- What follows a header or a value on its line: nothing but blanks and a comment. -/
def endOfLine? (chars : List Char) : Option (List Char) :=
  match skipBlanks chars with
  | [] => some []
  | '\n' :: rest => some ('\n' :: rest)
  | '\r' :: '\n' :: rest => some ('\n' :: rest)
  | '#' :: rest => some ('#' :: rest)
  | _ => none

/-- The key of a header, up to its closing brackets. -/
def header? (bound : Nat) (close : List Char) (chars : List Char) :
    Option (List String × String × List Char) := do
  let (path, key, rest) ← key? bound (skipBlanks chars)
  let rest := skipBlanks rest
  if close.isPrefixOf rest then some (path, key, rest.drop close.length) else none

/-- Reads statements; `header` leads to the table they belong to. -/
def statements? : Nat → List String → Entries → List Char → Option Entries
  | 0, _, _, _ => none
  | bound + 1, header, entries, chars => do
    match ← skipGap false chars with
    | [] => return entries
    | '[' :: '[' :: rest =>
      let (path, key, rest) ← header? bound [']', ']'] rest
      let entries ← entries.openRepeated path key
      statements? bound (path ++ [key]) entries (← endOfLine? rest)
    | '[' :: rest =>
      let (path, key, rest) ← header? bound [']'] rest
      let entries ← entries.openTable path key
      statements? bound (path ++ [key]) entries (← endOfLine? rest)
    | chars =>
      let (path, key, rest) ← key? bound chars
      match skipBlanks rest with
      | '=' :: rest =>
        let (value, rest) ← value? bound nestingLimit (skipBlanks rest)
        let entries ← entries.changeHeaded header fun table => table.addValue path key value
        statements? bound header entries (← endOfLine? rest)
      | _ => none

def document? (text : String) : Option (List (String × Value)) :=
  let chars :=
    match text.toList with
    | '\ufeff' :: rest => rest
    | chars => chars
  (statements? (chars.length + 1) [] [] chars).map Item.finishEntries

end TreeLint.Toml
