import TreeLint.Builtin.Toml
import TreeLint.Text.Split

/-! The unquoted values of TOML: booleans, numbers, dates and times. -/

namespace TreeLint.Toml

/-- Characters of unquoted values. -/
def isScalarChar (char : Char) : Bool :=
  char.isAlphanum || char = '+' || char = '-' || char = '_' || char = '.' || char = ':'

def isDigits (isDigit : Char → Bool) (chars : List Char) : Bool :=
  (Text.splitItems '_' chars).all fun group => !group.isEmpty && group.all isDigit

def digitsValue (base : Nat) (chars : List Char) : Nat :=
  chars.foldl (fun value char =>
    if char = '_' then value
    else
      let digit :=
        if char.isDigit then char.toNat - '0'.toNat else char.toLower.toNat - 'a'.toNat + 10
      value * base + digit) 0

def splitSign : List Char → Bool × List Char
  | '-' :: rest => (true, rest)
  | '+' :: rest => (false, rest)
  | chars => (false, chars)

def isDecimal (chars : List Char) : Bool :=
  isDigits Char.isDigit chars && (chars.head? ≠ some '0' || chars.length = 1)

def isHexDigit (char : Char) : Bool :=
  char.isDigit || ('a' ≤ char && char ≤ 'f') || ('A' ≤ char && char ≤ 'F')

def integer? (chars : List Char) : Option Int :=
  match chars with
  | '0' :: 'x' :: digits =>
    if isDigits isHexDigit digits then some (digitsValue 16 digits) else none
  | '0' :: 'o' :: digits =>
    if isDigits (fun char => '0' ≤ char && char ≤ '7') digits then some (digitsValue 8 digits)
    else none
  | '0' :: 'b' :: digits =>
    if isDigits (fun char => char = '0' || char = '1') digits then some (digitsValue 2 digits)
    else none
  | chars =>
    let (negative, digits) := splitSign chars
    if isDecimal digits then
      let magnitude : Int := digitsValue 10 digits
      some (if negative then -magnitude else magnitude)
    else none

/-- Whether an integer can be stored in 128 bits, with or without a sign. -/
def isStorable (value : Int) : Bool :=
  -0x80000000000000000000000000000000 ≤ value && value < 0x100000000000000000000000000000000

structure Decimal where
  digits : Nat
  exponent : Int

namespace Decimal

/-- The least number that is too large for a 64 bit binary float: half a unit above the largest. -/
def tooLarge : Nat := 0x3fffffffffffff <<< 970

/-- Whether the nearest 64 bit binary float is infinite. Numbers with more or fewer than 309 digits
before the point are settled by their length alone. -/
def overflows (number : Decimal) : Bool :=
  let places : Int := (Nat.toDigits 10 number.digits).length + number.exponent
  if number.digits = 0 || places < 309 then false
  else if places > 309 then true
  else
    tooLarge * Nat.pow 10 (-number.exponent).toNat ≤
      number.digits * Nat.pow 10 number.exponent.toNat

end Decimal

/-- A number without an exponent; `needsFraction` if there has to be a point. -/
def mantissa? (needsFraction : Bool) (chars : List Char) : Option Decimal :=
  match Text.splitItems '.' chars with
  | [whole] =>
    if !needsFraction && isDecimal whole then some ⟨digitsValue 10 whole, 0⟩ else none
  | [whole, fraction] =>
    if isDecimal whole && isDigits Char.isDigit fraction then
      some ⟨digitsValue 10 (whole ++ fraction), -(fraction.filter Char.isDigit).length⟩
    else none
  | _ => none

/-- A decimal number with a fraction, an exponent, or both, apart from its sign. -/
def decimal? (chars : List Char) : Option Decimal :=
  match Text.splitItems 'e' (chars.map fun char => if char = 'E' then 'e' else char) with
  | [mantissa] => mantissa? true mantissa
  | [mantissa, exponent] => do
    let number ← mantissa? false mantissa
    let (negative, digits) := splitSign exponent
    if isDigits Char.isDigit digits then
      let shift : Int := digitsValue 10 digits
      return ⟨number.digits, number.exponent + if negative then -shift else shift⟩
    else none
  | _ => none

/-- Whether a text is a float. Infinity is only meant where it is written so. -/
def isFloat (chars : List Char) : Bool :=
  let (_, chars) := splitSign chars
  chars = "inf".toList || chars = "nan".toList ||
    match decimal? chars with
    | some number => !number.overflows
    | none => false

def fixedDigits? (count : Nat) (chars : List Char) : Option Nat :=
  if chars.length = count && chars.all Char.isDigit then some (digitsValue 10 chars) else none

def daysIn (year month : Nat) : Nat :=
  match month with
  | 2 => if year % 4 = 0 && (year % 100 ≠ 0 || year % 400 = 0) then 29 else 28
  | 4 | 6 | 9 | 11 => 30
  | _ => 31

def isDate (chars : List Char) : Bool :=
  match Text.splitItems '-' chars with
  | [year, month, day] =>
    match fixedDigits? 4 year, fixedDigits? 2 month, fixedDigits? 2 day with
    | some year, some month, some day =>
      1 ≤ month && month ≤ 12 && 1 ≤ day && day ≤ daysIn year month
    | _, _, _ => false
  | _ => false

private def below (limit : Nat) (chars : List Char) : Bool :=
  match fixedDigits? 2 chars with
  | some value => value < limit
  | none => false

def isSeconds (chars : List Char) : Bool :=
  match Text.splitItems '.' chars with
  | [seconds] => below 61 seconds
  | [seconds, fraction] => below 61 seconds && !fraction.isEmpty && fraction.all Char.isDigit
  | _ => false

def isTime (chars : List Char) : Bool :=
  match Text.splitItems ':' chars with
  | [hours, minutes] => below 24 hours && below 60 minutes
  | [hours, minutes, seconds] => below 24 hours && below 60 minutes && isSeconds seconds
  | _ => false

def isZonedTime (chars : List Char) : Bool :=
  let (clock, zone) := chars.span fun char => char.isDigit || char = ':' || char = '.'
  match zone with
  | [] | ['Z'] | ['z'] => isTime clock
  | '+' :: distance | '-' :: distance =>
    isTime clock &&
      match Text.splitItems ':' distance with
      | [hours, minutes] => below 24 hours && below 60 minutes
      | _ => false
  | _ => false

def isDatetime (chars : List Char) : Bool :=
  isDate chars || isTime chars ||
    (isDate (chars.take 10) &&
      match chars.drop 10 with
      | 'T' :: time | 't' :: time | ' ' :: time => isZonedTime time
      | _ => false)

/-- The value that an unquoted text means. -/
def scalar? (chars : List Char) : Option Value :=
  if chars = "true".toList then some (.boolean true)
  else if chars = "false".toList then some (.boolean false)
  else
    match integer? chars with
    | some value => if isStorable value then some (.integer value) else none
    | none =>
      if isFloat chars then some .float
      else if isDatetime chars then some .datetime
      else none

/-- Cuts an unquoted value off a text. A blank may stand between a date and a time. -/
def cutScalar (chars : List Char) : List Char × List Char :=
  let (token, rest) := chars.span isScalarChar
  match isDate token, rest with
  | true, ' ' :: digit :: more =>
    if digit.isDigit then
      let (time, rest) := (digit :: more).span isScalarChar
      (token ++ ' ' :: time, rest)
    else (token, rest)
  | _, _ => (token, rest)

end TreeLint.Toml
