import TreeLint.Text.CharColumns

/-! Letters that merge into one sign with the letters before them. Most such ligatures form across
combining marks that are not shown, and across zero width joiners; some form only where a joiner
stands between the letters. -/

namespace TreeLint.Text

/-- Arabic letters that join like alef. -/
def alefs : CodePoints :=
  [(0x622, 0x623), (0x625, 0x625), (0x627, 0x627), (0x671, 0x673), (0x675, 0x675), (0x773, 0x774),
   (0x870, 0x882)]

/-- Arabic letters that join like lam, and merge with an alef after them. -/
def lams : CodePoints :=
  [(0x644, 0x644), (0x6b5, 0x6b8), (0x76a, 0x76a), (0x8a6, 0x8a6), (0x8c7, 0x8c7)]

/-- Characters without width that keep Arabic letters from joining across them. -/
def separating : CodePoints :=
  [(0x605, 0x605), (0x890, 0x891), (0x8e2, 0x8e2), (0x9be, 0x9be), (0x9d7, 0x9d7), (0xb3e, 0xb3e),
   (0xb57, 0xb57), (0xbbe, 0xbbe), (0xbd7, 0xbd7), (0xcc0, 0xcc0), (0xcc2, 0xcc2), (0xcc7, 0xcc8),
   (0xcca, 0xccb), (0xcd5, 0xcd6), (0xd3e, 0xd3e), (0xd4e, 0xd4e), (0xd57, 0xd57), (0xdcf, 0xdcf),
   (0xddf, 0xddf), (0x1160, 0x11ff), (0x1715, 0x1715), (0x1734, 0x1734), (0x180e, 0x180e),
   (0x1b35, 0x1b35), (0x1b3b, 0x1b3b), (0x1b3d, 0x1b3d), (0x1b43, 0x1b44), (0x1baa, 0x1baa),
   (0x1bf2, 0x1bf3), (0x200c, 0x200d), (0x2065, 0x2069), (0x302e, 0x302f), (0x3164, 0x3164),
   (0xa8fa, 0xa8fa), (0xa953, 0xa953), (0xa9c0, 0xa9c0), (0xd7b0, 0xd7c6), (0xd7cb, 0xd7fb),
   (0xffa0, 0xffa0), (0xfff0, 0xfff8), (0x111c0, 0x111c0), (0x111c2, 0x111c3), (0x11235, 0x11235),
   (0x1133e, 0x1133e), (0x1134d, 0x1134d), (0x11357, 0x11357), (0x113b8, 0x113b8),
   (0x113c2, 0x113c2), (0x113c5, 0x113c5), (0x113c7, 0x113c9), (0x113cf, 0x113cf),
   (0x113d1, 0x113d1), (0x114b0, 0x114b0), (0x114bd, 0x114bd), (0x115af, 0x115af),
   (0x116b6, 0x116b6), (0x11930, 0x11930), (0x1193d, 0x1193d), (0x1193f, 0x1193f),
   (0x11941, 0x11941), (0x11a84, 0x11a89), (0x11d46, 0x11d46), (0x11f02, 0x11f02),
   (0x11f41, 0x11f41), (0x16ff0, 0x16ff1), (0x1d165, 0x1d166), (0x1d16d, 0x1d172),
   (0xe0000, 0xe0000), (0xe0002, 0xe001f), (0xe0080, 0xe00ff), (0xe01f0, 0xe0fff)]

def isAlef (char : Char) : Bool :=
  alefs.contains char.toNat

def isLam (char : Char) : Bool :=
  lams.contains char.toNat

/-- Characters that Arabic letters join across. -/
def isTransparent (char : Char) : Bool :=
  isZeroWidth char && !separating.contains char.toNat

/-- Khmer letters with a subscript form. -/
def subscriptLetters : CodePoints :=
  [(0x1780, 0x1782), (0x1784, 0x1787), (0x1789, 0x178c), (0x178e, 0x1793), (0x1795, 0x1798),
   (0x179b, 0x179d), (0x17a0, 0x17a0), (0x17a2, 0x17a2), (0x17a7, 0x17a7), (0x17ab, 0x17ac),
   (0x17af, 0x17af)]

/-- Tifinagh letters that pair up. -/
def isPairingConsonant (char : Char) : Bool :=
  (0x2d31 ≤ char.toNat && char.toNat ≤ 0x2d65) || char.toNat = 0x2d6f

/-- The rest of a ligature, seen from before it. -/
inductive LigatureTail where
  /-- Hebrew lamed, after alef. -/
  | lamed
  /-- Khmer letter, after the sign that puts it below the line. -/
  | subscriptLetter
  /-- Buginese ya, after the vowel sign i. -/
  | ya
  /-- Buginese vowel sign i and ya, after the letter a. -/
  | vowelYa
  /-- Tifinagh consonant, after another. -/
  | consonant
  /-- Tifinagh joiner and consonant, after another consonant. -/
  | joinerConsonant
  /-- Lisu tone letter, after another. -/
  | tone
  /-- Old Turkic i, after ec. -/
  | orkhonI
  deriving DecidableEq

namespace LigatureTail

/-- The tail that a character makes, whatever follows it. -/
def ofChar? (char : Char) : Option LigatureTail :=
  if char.toNat = 0x5dc then some .lamed
  else if subscriptLetters.contains char.toNat then some .subscriptLetter
  else if char.toNat = 0x1a10 then some .ya
  else if isPairingConsonant char then some .consonant
  else if char.toNat = 0xa4fc || char.toNat = 0xa4fd then some .tone
  else if char.toNat = 0x10c03 then some .orkhonI
  else none

/-- Whether a character merges with the tail after it: the columns that it adds, and the longer tail
that it makes, if any. The columns can be negative, since the tail is counted already. -/
def merge? (char : Char) (joined : Bool) : LigatureTail → Option (Int × Option LigatureTail)
  | .lamed => if joined && char.toNat = 0x5d0 then some (0, none) else none
  | .subscriptLetter => if char.toNat = 0x17d2 then some (-1, none) else none
  | .ya => if joined && char.toNat = 0x1a17 then some (0, some .vowelYa) else none
  | .vowelYa => if char.toNat = 0x1a15 then some (0, none) else none
  | .consonant =>
    if char.toNat = 0x2d7f then some (1, some .joinerConsonant)
    else if joined && isPairingConsonant char then some (0, none)
    else none
  | .joinerConsonant => if isPairingConsonant char then some (-1, none) else none
  | .tone => if 0xa4f8 ≤ char.toNat && char.toNat ≤ 0xa4fb then some (0, none) else none
  | .orkhonI => if joined && char.toNat = 0x10c32 then some (0, none) else none

end LigatureTail

end TreeLint.Text
