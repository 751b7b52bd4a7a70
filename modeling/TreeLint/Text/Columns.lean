import TreeLint.Text.Emoji
import TreeLint.Text.Ligature

/-! Width of a text in terminal columns. It is the sum of the widths of its characters, except where
characters are shown as one: a carriage return with its line feed, an emoji sequence, a ligature.
The text is read from its end, since it is the following characters that change the width of a
character. -/

namespace TreeLint.Text

/-- What a variation selector asks of the character before it. -/
inductive Presentation where
  | text
  | emoji
  /-- A quotation mark as wide as an ideograph. -/
  | fullwidth
  deriving DecidableEq

/-- The following text, as far as it matters to the character before it. -/
inductive Following where
  | other
  | lineFeed
  | modifier
  | flagLetter
  | flagLetters
  | emoji
  /-- A joiner and an emoji. -/
  | joined
  /-- A keycap, a joiner and an emoji. -/
  | joinedKeycap
  /-- Flag letters, a joiner and an emoji: the first letter, then even and odd counts of them. -/
  | joinedLetter
  | joinedEven
  | joinedOdd
  /-- The end of a spelled flag, a joiner and an emoji, after so many letters or digits. -/
  | joinedTagEnd
  | joinedTagLetters (count : Nat)
  | joinedTagDigits (count : Nat)
  | alef
  /-- The rest of a ligature, and whether a joiner stands before it. -/
  | ligature (tail : LigatureTail) (joined : Bool)
  /-- Kirat Rai vowel signs, which are parts of longer ones. -/
  | vowelE
  | vowelAi
  deriving DecidableEq

namespace Following

/-- Ligatures form across variation selectors. -/
def spansSelector : Following → Bool
  | .alef | .ligature _ _ => true
  | _ => false

def isJoined : Following → Bool
  | .joined | .joinedKeycap => true
  | _ => false

/-- What a selector leaves to be seen of the text after it. -/
def behind (selector : Presentation) (following : Following) : Following :=
  if following.spansSelector || (selector = .emoji && following.isJoined) then following else .other

/-- What a character is to the one before it, whatever follows. -/
def ofChar (char : Char) : Following :=
  if char = '\n' then .lineFeed
  else if isAlef char then .alef
  else if char.toNat = 0x16d67 then .vowelE
  else if char.toNat = 0x16d68 then .vowelAi
  else if isFlagLetter char then .flagLetter
  else if isModifier char then .modifier
  else if isPicture char then .emoji
  else match LigatureTail.ofChar? char with
    | some tail => .ligature tail false
    | none => .other

end Following

/-- The following text and a variation selector before it. -/
structure Ahead where
  selector : Option Presentation
  following : Following
  deriving DecidableEq

namespace Ahead

def only (following : Following) : Ahead := ⟨none, following⟩

def nothing : Ahead := only .other

end Ahead

/-- The columns of a character that nothing after it changes. -/
def standingAlone (char : Char) : Int × Ahead :=
  (charColumns char, .only (.ofChar char))

private def joiner : Char := '\u200d'

/-- A character merged with the text after it, if it is. -/
def merge? (char : Char) : Following → Option (Int × Following)
  | .other => none
  | .lineFeed => if char = '\r' then some (0, .other) else none
  | .modifier =>
    if isModifierBase char then some (0, .emoji)
    else if char = joiner then some (0, .joined)
    else none
  | .flagLetter => if isFlagLetter char then some (1, .flagLetters) else none
  | .flagLetters =>
    if isFlagLetter char then some (1, .flagLetters)
    else if char = joiner then some (0, .joined)
    else none
  | .emoji => if char = joiner then some (0, .joined) else none
  | .joined =>
    if char = '\u20e3' then some (0, .joinedKeycap)
    else if isFlagLetter char then some (1, .joinedLetter)
    else if isModifier char then some (0, .modifier)
    else if char.toNat = 0xe007f then some (0, .joinedTagEnd)
    else if isPicture char then some (0, .emoji)
    else none
  | .joinedKeycap => none
  | .joinedLetter => if isFlagLetter char then some (-1, .joinedEven) else none
  | .joinedEven =>
    if isFlagLetter char then some (3, .joinedOdd)
    else if char = joiner then some (0, .joined)
    else none
  | .joinedOdd =>
    if isFlagLetter char then some (-1, .joinedEven)
    else if char = joiner then some (0, .joined)
    else none
  | .joinedTagEnd =>
    if isTagLetter char then some (0, .joinedTagLetters 1)
    else if isTagDigit char then some (0, .joinedTagDigits 1)
    else none
  | .joinedTagLetters count =>
    if isTagLetter char && count < 6 then some (0, .joinedTagLetters (count + 1))
    else if isTagDigit char && count < 5 then some (0, .joinedTagDigits 1)
    else if char.toNat = 0x1f3f4 && count ≥ 3 then some (0, .emoji)
    else none
  | .joinedTagDigits count =>
    if isTagDigit char && count < 3 then some (0, .joinedTagDigits (count + 1))
    else if char.toNat = 0x1f3f4 && count = 3 then some (0, .emoji)
    else none
  | .alef =>
    if isLam char then some (0, .other)
    else if isTransparent char then some (0, .alef)
    else none
  | .ligature tail joined =>
    if char = joiner then some (0, .ligature tail true)
    else if isIgnorableMark char then some (0, .ligature tail joined)
    else match tail.merge? char joined with
      | some (added, some longer) => some (added, .ligature longer true)
      | some (added, none) => some (added, .other)
      | none => none
  | .vowelE =>
    if char.toNat = 0x16d63 || char.toNat = 0x16d69 then some (0, .other)
    else if char.toNat = 0x16d67 then some (0, .vowelAi)
    else if char.toNat = 0x16d68 then some (1, .vowelE)
    else none
  | .vowelAi => if char.toNat = 0x16d63 then some (0, .other) else none

/-- A character before text that starts with no variation selector. -/
def besideText (char : Char) (following : Following) : Int × Ahead :=
  if char = '\ufe0f' then (0, ⟨some .emoji, following.behind .emoji⟩)
  else if char = '\ufe0e' then (0, ⟨some .text, following.behind .text⟩)
  else if char = '\ufe01' then (0, ⟨some .fullwidth, following.behind .fullwidth⟩)
  else match merge? char following with
    | some (added, next) => (added, .only next)
    | none => standingAlone char

/-- Quotation marks that have a fullwidth form. -/
def isQuotationMark (char : Char) : Bool :=
  char = '‘' || char = '’' || char = '“' || char = '”'

/-- The columns that a character adds to the text after it, and the view from before it. -/
def Ahead.before (char : Char) (ahead : Ahead) : Int × Ahead :=
  match ahead.selector with
  | none => besideText char ahead.following
  | some .emoji =>
    if isVariationBase char then (if ahead.following.isJoined then 0 else 2, .only .emoji)
    else besideText char (ahead.following.behind .text)
  | some .text =>
    if isTextBase char then (1, .nothing) else besideText char ahead.following
  | some .fullwidth =>
    if isQuotationMark char then (2, .nothing) else besideText char ahead.following

/-- The columns of a list of characters, and the view from before it. -/
def measure : List Char → Int × Ahead
  | [] => (0, .nothing)
  | char :: rest =>
    let (total, ahead) := measure rest
    let (added, next) := ahead.before char
    (total + added, next)

def columns (text : String) : Nat :=
  (measure text.toList).1.toNat

end TreeLint.Text
