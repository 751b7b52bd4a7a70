import TreeLint.Text.Search
import TreeLint.Text.Split

/-! Colours and weights of terminal text. -/

namespace TreeLint

inductive Color where
  | red
  | green
  | yellow
  | cyan

structure Style where
  bold : Bool := false
  dimmed : Bool := false
  underlined : Bool := false
  color : Option Color := none

namespace Style

def Color.code : Color → String
  | .red => "31"
  | .green => "32"
  | .yellow => "33"
  | .cyan => "36"

def codes (style : Style) : List String :=
  (if style.bold then ["1"] else []) ++ (if style.dimmed then ["2"] else []) ++
    (if style.underlined then ["4"] else []) ++ (style.color.map Color.code).toList

def reset : String := "\x1b[0m"

/-- A text in a style; plain text if no colours are wanted. Where a part of the text ends its own
style, the outer one starts again. -/
def apply (style : Style) (colored : Bool) (text : String) : String :=
  if colored then
    let start := "\x1b[" ++ Text.join ";" style.codes ++ "m"
    start ++ Text.replaceAll text reset (reset ++ start) ++ reset
  else text

def bolded : Style := { bold := true }
def faint : Style := { dimmed := true }
def heading : Style := { bold := true, underlined := true }
def colored (color : Color) : Style := { color := some color }
def strong (color : Color) : Style := { bold := true, color := some color }

end Style

end TreeLint
