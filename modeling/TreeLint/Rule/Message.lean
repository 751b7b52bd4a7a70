import TreeLint.Text.Search

/-! Message templates. The number of an argument between braces stands for that argument. -/

namespace TreeLint.Message

def placeholder (index : Nat) : String :=
  "\x7b" ++ toString index ++ "\x7d"

/-- Fills in the arguments one after the other, from number `index` on. An argument that looks like
a later placeholder is filled in too. -/
def fillFrom (index : Nat) (template : String) : List String → String
  | [] => template
  | argument :: rest =>
    fillFrom (index + 1) (Text.replaceAll template (placeholder index) argument) rest

def fill (template : String) (arguments : List String) : String :=
  fillFrom 0 template arguments

end TreeLint.Message
