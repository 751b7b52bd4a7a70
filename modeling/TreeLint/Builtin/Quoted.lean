import TreeLint.Builtin.Toml

/-! The quoted texts of TOML. Texts between double quotes have escapes, texts between single quotes
do not; tripled quotes let a text run over several lines. -/

namespace TreeLint.Toml

def singleQuote : Char := '\x27'

/-- Characters that may stand in a text or a comment on one line. -/
def isPlain (char : Char) : Bool :=
  char = '\t' || (0x20 ≤ char.toNat && char.toNat ≠ 0x7f)

def isBlank (char : Char) : Bool :=
  char = ' ' || char = '\t'

def coded? (count : Nat) (chars : List Char) : Option (Char × Nat) :=
  let digits := chars.take count
  if digits.length = count && digits.all (fun char => char.isDigit ||
      ('a' ≤ char && char ≤ 'f') || ('A' ≤ char && char ≤ 'F')) then
    let code := digits.foldl (fun value char =>
      value * 16 +
        if char.isDigit then char.toNat - '0'.toNat else char.toLower.toNat - 'a'.toNat + 10) 0
    if code.isValidChar then some (Char.ofNat code, count + 1) else none
  else none

/-- The character an escape stands for, and how many characters behind the backslash it takes. -/
def escape? : List Char → Option (Char × Nat)
  | 'b' :: _ => some ('\x08', 1)
  | 't' :: _ => some ('\t', 1)
  | 'n' :: _ => some ('\n', 1)
  | 'f' :: _ => some ('\x0c', 1)
  | 'r' :: _ => some ('\r', 1)
  | 'e' :: _ => some ('\x1b', 1)
  | '"' :: _ => some ('"', 1)
  | '\\' :: _ => some ('\\', 1)
  | 'x' :: rest => coded? 2 rest
  | 'u' :: rest => coded? 4 rest
  | 'U' :: rest => coded? 8 rest
  | _ => none

private def prepend (char : Char) (result : Option (List Char × List Char)) :
    Option (List Char × List Char) :=
  result.map fun (text, rest) => (char :: text, rest)

/-- A text behind its opening double quote, and what follows it. The first `skip` characters have
been read already. -/
def basicText : Nat → List Char → Option (List Char × List Char)
  | _, [] => none
  | skip + 1, _ :: rest => basicText skip rest
  | 0, char :: rest =>
    if char = '"' then some ([], rest)
    else if char = '\\' then
      match escape? rest with
      | some (meant, used) => prepend meant (basicText used rest)
      | none => none
    else if isPlain char then prepend char (basicText 0 rest)
    else none

def literalText : List Char → Option (List Char × List Char)
  | [] => none
  | char :: rest =>
    if char = singleQuote then some ([], rest)
    else if isPlain char then prepend char (literalText rest)
    else none

def gapLength : List Char → Nat
  | '\r' :: '\n' :: rest => gapLength rest + 2
  | char :: rest => if isBlank char || char = '\n' then gapLength rest + 1 else 0
  | [] => 0

/-- The length of a backslash's line break and the gap after it; none if something else follows on
the line. -/
def continuation? (chars : List Char) : Option Nat :=
  match chars.dropWhile isBlank with
  | '\n' :: _ | '\r' :: '\n' :: _ => some (gapLength chars)
  | _ => none

/-- What three or more quotes in a row mean: up to two belong to the text, then it ends. -/
def closing? (quote : Char) (chars : List Char) : Option (List Char × List Char) :=
  let count := min 5 (chars.takeWhile (· = quote)).length
  if 3 ≤ count then some (List.replicate (count - 3) quote, chars.drop count) else none

/-- A text over several lines between tripled double quotes. -/
def basicLines : Nat → List Char → Option (List Char × List Char)
  | _, [] => none
  | skip + 1, _ :: rest => basicLines skip rest
  | 0, char :: rest =>
    match closing? '"' (char :: rest) with
    | some closed => some closed
    | none =>
      if char = '\\' then
        match continuation? rest with
        | some used => basicLines used rest
        | none =>
          match escape? rest with
          | some (meant, used) => prepend meant (basicLines used rest)
          | none => none
      else if char = '\n' || isPlain char then prepend char (basicLines 0 rest)
      else if char = '\r' && rest.head? = some '\n' then prepend char (basicLines 0 rest)
      else none

def literalLines : List Char → Option (List Char × List Char)
  | [] => none
  | char :: rest =>
    match closing? singleQuote (char :: rest) with
    | some closed => some closed
    | none =>
      if char = '\n' || isPlain char then prepend char (literalLines rest)
      else if char = '\r' && rest.head? = some '\n' then prepend char (literalLines rest)
      else none

/-- A line break right behind the opening quotes does not belong to the text. -/
def skipFirstBreak : List Char → List Char
  | '\n' :: rest => rest
  | '\r' :: '\n' :: rest => rest
  | chars => chars

def quotedKey? : List Char → Option (List Char × List Char)
  | [] => none
  | char :: rest =>
    if char = '"' then basicText 0 rest
    else if char = singleQuote then literalText rest
    else none

/-- A text of any form, if one starts here. -/
def quotedText? (chars : List Char) : Option (List Char × List Char) :=
  if (List.replicate 3 '"').isPrefixOf chars then basicLines 0 (skipFirstBreak (chars.drop 3))
  else if (List.replicate 3 singleQuote).isPrefixOf chars then
    literalLines (skipFirstBreak (chars.drop 3))
  else quotedKey? chars

end TreeLint.Toml
