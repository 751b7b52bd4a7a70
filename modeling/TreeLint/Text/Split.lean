/-! Splitting texts and other lists at a mark, and joining texts again. -/

namespace TreeLint.Text

/-- The stretches between the occurrences of a mark; one more than there are occurrences. -/
def splitItems {α : Type} [DecidableEq α] (mark : α) : List α → List (List α)
  | [] => [[]]
  | item :: rest =>
    if item = mark then [] :: splitItems mark rest
    else
      match splitItems mark rest with
      | piece :: others => (item :: piece) :: others
      | [] => [[item]]

def split (text : String) (mark : Char) : List String :=
  (splitItems mark text.toList).map String.ofList

def join (separator : String) : List String → String
  | [] => ""
  | [text] => text
  | text :: next :: rest => text ++ separator ++ join separator (next :: rest)

/-- All ends of a list, the list itself first and the empty one last. -/
def endings {α : Type} : List α → List (List α)
  | [] => [[]]
  | item :: rest => (item :: rest) :: endings rest

end TreeLint.Text
