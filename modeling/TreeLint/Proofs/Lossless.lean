import TreeLint.Grammar.Lowering
import TreeLint.Proofs.Bytes
import TreeLint.Proofs.Places

/-! Lowering loses nothing. The trees read up to a cursor have exactly the text in front of it, for
any offsets the leaves may have; the end of the file takes the rest. -/

namespace TreeLint

namespace Grammar

theorem mem_of_lookup {table : List (String × Kind)} {symbol : String} {kind : Kind}
    (found : table.lookup symbol = some kind) : (symbol, kind) ∈ table := by
  obtain ⟨front, back, rfl, _⟩ := List.lookup_eq_some_iff.mp found
  simp

/-- What holds of the kinds in the table and of the kind of all other symbols holds of every construct. -/
theorem constructKind_of_table {P : Kind → Prop} (table : ∀ entry ∈ constructs, P entry.2) (other : P .unknown)
    (symbol : String) : P (constructKind symbol) := by
  cases found : constructs.lookup symbol with
  | none => rwa [constructKind, found]
  | some kind =>
    rw [constructKind, found]
    exact table (symbol, kind) (mem_of_lookup found)

theorem constructKind_isToken (symbol : String) : (constructKind symbol).isToken = false :=
  constructKind_of_table (P := fun kind => kind.isToken = false) (by decide) rfl symbol

def IsLeafKind (kind : Kind) : Prop :=
  kind.isToken = true ∧ kind ≠ .endOfFile

theorem spellingKind_isLeafKind (text : String) : IsLeafKind (spellingKind text) := by
  unfold spellingKind
  split
  · split
    · exact ⟨rfl, by decide⟩
    · exact ⟨rfl, by decide⟩
  · exact ⟨rfl, by decide⟩

theorem leafKind_isLeafKind (symbol : String) (named : Bool) (text : String) :
    IsLeafKind (leafKind symbol named text) := by
  have table : ∀ entry ∈ leaves, entry.2.isToken = true ∧ entry.2 ≠ .endOfFile := by decide
  unfold leafKind
  split
  next kind found => exact table (symbol, kind) (mem_of_lookup found)
  next =>
    split
    · exact ⟨rfl, by decide⟩
    · exact spellingKind_isLeafKind text

end Grammar

namespace Concrete
open TreeLint.Tree TreeLint.Grammar

mutual

def leafOffsets : Concrete → List Nat
  | .node _ _ start stop [] => [start, stop]
  | .node _ _ _ _ (first :: rest) => leafOffsetsOf (first :: rest)

def leafOffsetsOf : List Concrete → List Nat
  | [] => []
  | tree :: rest => tree.leafOffsets ++ leafOffsetsOf rest

end

/-- Reading from a cursor gives trees with the text up to the next cursor. -/
def Reads (source : String) (cursor : Nat) (result : List Tree × Nat) : Prop :=
  ∀ before rest, source = before ++ rest → before.utf8ByteSize = cursor →
    ∃ after, rest = texts result.1 ++ after ∧ result.2 = cursor + (texts result.1).utf8ByteSize

def Leafy (trees : List Tree) : Prop :=
  ∀ tree ∈ trees, tree.WellFormed ∧ ∀ leaf ∈ tree.tokens, leaf.kind ≠ .endOfFile

private theorem text_lowerLeaf (source symbol : String) (named : Bool) (start stop cursor : Nat) :
    (lowerLeaf source symbol named start stop cursor).1.text =
      (Text.slice? source cursor (max start cursor)).getD "" ++
        (Text.slice? source (max start cursor) (max stop (max start cursor))).getD "" := by
  simp only [lowerLeaf]
  split
  · simp [Tree.text, texts, constructKind_isToken, (spellingKind_isLeafKind _).1]
  · simp [Tree.text, (leafKind_isLeafKind _ _ _).1]

theorem cursor_lowerLeaf (source symbol : String) (named : Bool) (start stop cursor : Nat) :
    (lowerLeaf source symbol named start stop cursor).2 = max stop (max start cursor) := by
  simp only [lowerLeaf]
  split <;> rfl

private theorem leafy_lowerLeaf (source symbol : String) (named : Bool) (start stop cursor : Nat) :
    Leafy [(lowerLeaf source symbol named start stop cursor).1] := by
  intro tree member
  rw [List.mem_singleton] at member
  subst member
  simp only [lowerLeaf]
  split
  · have leaf := spellingKind_isLeafKind
      ((Text.slice? source (max start cursor) (max stop (max start cursor))).getD "")
    simp [WellFormed, AllWellFormed, Tree.tokens, tokensOf, constructKind_isToken, leaf.1, leaf.2]
  · have leaf := leafKind_isLeafKind symbol named
      ((Text.slice? source (max start cursor) (max stop (max start cursor))).getD "")
    simp [WellFormed, Tree.tokens, leaf.1, leaf.2]

/-- A leaf reads from the cursor to its end, wherever it claims to start. -/
private theorem reads_lowerLeaf {source : String} {start stop : Nat} (symbol : String) (named : Bool)
    (opens : Text.Boundary source start) (closes : Text.Boundary source stop) (cursor : Nat) :
    ∀ before rest, source = before ++ rest → before.utf8ByteSize = cursor →
      ∃ after, rest = (lowerLeaf source symbol named start stop cursor).1.text ++ after ∧
        (lowerLeaf source symbol named start stop cursor).2 =
          cursor + (lowerLeaf source symbol named start stop cursor).1.text.utf8ByteSize := by
  intro before rest whole size
  have here : Text.Boundary source cursor := ⟨before, rest, whole, size⟩
  have first := Text.boundary_max opens here
  have second := Text.boundary_max closes first
  rw [whole] at first second
  obtain ⟨leading, later, rfl, firstSize⟩ := Text.split_between first (by omega)
  rw [← String.append_assoc] at second
  obtain ⟨text, after, rfl, secondSize⟩ :=
    Text.split_between second (by rw [String.utf8ByteSize_append]; omega)
  have leadingSlice : Text.slice? source cursor (max start cursor) = some leading :=
    Text.slice?_eq whole size (by omega)
  have textSlice : Text.slice? source (max start cursor) (max stop (max start cursor)) = some text := by
    rw [String.utf8ByteSize_append] at secondSize
    exact Text.slice?_eq (whole.trans String.append_assoc.symm) (by rw [String.utf8ByteSize_append]; omega)
      (by omega)
  refine ⟨after, ?_, ?_⟩
  · rw [text_lowerLeaf, leadingSlice, textSlice, Option.getD_some, Option.getD_some, String.append_assoc]
  · rw [text_lowerLeaf, cursor_lowerLeaf, leadingSlice, textSlice, Option.getD_some, Option.getD_some,
      ← secondSize, String.utf8ByteSize_append, String.utf8ByteSize_append, size]
    omega

private theorem texts_wrapBase (inBaseList : Bool) (child : Concrete) (lowered : List Tree) :
    texts (wrapBase inBaseList child lowered) = texts lowered := by
  unfold wrapBase
  split
  · simp [texts, Tree.text, Kind.isToken]
  · rfl

mutual

/-- What lowering has read is what stands between the cursors. -/
theorem reads_lower {source : String} (concrete : Concrete) (cursor : Nat)
    (cuts : ∀ offset ∈ concrete.leafOffsets, Text.Boundary source offset) :
    Reads source cursor (lower source concrete cursor) := by
  match concrete with
  | .node symbol named start stop [] =>
    have leaf := reads_lowerLeaf symbol named (cuts start (by simp [leafOffsets]))
      (cuts stop (by simp [leafOffsets])) cursor
    simpa [Reads, lower, texts] using leaf
  | .node symbol named start stop (first :: rest) =>
    have all := reads_lowerAll (isBaseList symbol) (first :: rest) cursor
      (fun offset member => cuts offset (by rw [leafOffsets]; exact member))
    intro before remaining whole size
    rw [lower]
    simp only
    -- A spliced node adds nothing around the trees of its children, and neither does a construct.
    split
    · exact all before remaining whole size
    · simpa [texts, Tree.text, constructKind_isToken] using all before remaining whole size

theorem reads_lowerAll {source : String} (inBaseList : Bool) (trees : List Concrete) (cursor : Nat)
    (cuts : ∀ offset ∈ leafOffsetsOf trees, Text.Boundary source offset) :
    Reads source cursor (lowerAll source inBaseList trees cursor) := by
  match trees with
  | [] =>
    intro before rest whole size
    exact ⟨rest, by simp [lowerAll, texts], by simp [lowerAll, texts]⟩
  | tree :: others =>
    have first := reads_lower tree cursor (fun offset member => cuts offset (by simp [leafOffsetsOf, member]))
    have second := reads_lowerAll inBaseList others (lower source tree cursor).2
      (fun offset member => cuts offset (by simp [leafOffsetsOf, member]))
    intro before rest whole size
    obtain ⟨later, split, next⟩ := first before rest whole size
    obtain ⟨after, splitLater, last⟩ := second (before ++ texts (lower source tree cursor).1) later
      (by rw [String.append_assoc, ← split, whole]) (by rw [String.utf8ByteSize_append, next]; omega)
    refine ⟨after, ?_, ?_⟩
    · simp only [lowerAll, texts_append, texts_wrapBase]
      rw [split, splitLater, String.append_assoc]
    · simp only [lowerAll, texts_append, texts_wrapBase, String.utf8ByteSize_append]
      omega

end

private theorem Leafy.append {first second : List Tree} (one : Leafy first) (two : Leafy second) :
    Leafy (first ++ second) := by
  intro tree member
  rcases List.mem_append.mp member with left | right
  · exact one tree left
  · exact two tree right

private theorem Leafy.node {kind : Kind} {trees : List Tree} (inner : kind.isToken = false)
    (leafy : Leafy trees) : Leafy [.node kind trees] := by
  intro tree member
  rw [List.mem_singleton] at member
  subst member
  refine ⟨(wellFormed_node kind trees).mpr ⟨inner, fun child present => (leafy child present).1⟩, ?_⟩
  intro leaf present
  simp only [Tree.tokens, inner, Bool.false_eq_true, if_false] at present
  obtain ⟨child, held, known⟩ := mem_tokensOf.mp present
  exact (leafy child held).2 leaf known

mutual

theorem leafy_lower (source : String) (concrete : Concrete) (cursor : Nat) :
    Leafy (lower source concrete cursor).1 := by
  match concrete with
  | .node symbol named start stop [] =>
    rw [lower]
    exact leafy_lowerLeaf source symbol named start stop cursor
  | .node symbol named start stop (first :: rest) =>
    have all := leafy_lowerAll source (isBaseList symbol) (first :: rest) cursor
    rw [lower]
    simp only
    split
    · exact all
    · exact all.node (constructKind_isToken symbol)

theorem leafy_lowerAll (source : String) (inBaseList : Bool) (trees : List Concrete) (cursor : Nat) :
    Leafy (lowerAll source inBaseList trees cursor).1 := by
  match trees with
  | [] => simp [lowerAll, Leafy]
  | tree :: others =>
    have first := leafy_lower source tree cursor
    have second := leafy_lowerAll source inBaseList others (lower source tree cursor).2
    simp only [lowerAll]
    apply Leafy.append _ second
    unfold wrapBase
    split
    · exact first.node rfl
    · exact first

end

/-- Enclosing puts the end of the file behind all trees, inside one compilation unit. -/
theorem enclose_cases {trees : List Tree} (leafy : Leafy trees) (last : Tree) :
    ∃ children, enclose trees last = .node .compilationUnit (children ++ [last]) ∧
      (trees = children ∨ trees = [.node .compilationUnit children]) := by
  unfold enclose
  split
  next unit =>
    split
    next same =>
      have shape := (leafy unit (by simp)).1
      cases unit with
      | token kind leading text =>
        simp only [kind_token] at same
        subst same
        simp [WellFormed, Kind.isToken] at shape
      | node kind children =>
        simp only [kind_node] at same
        subst same
        exact ⟨children, by simp [insertChild, List.insertIdx_length_self], .inr rfl⟩
    next => exact ⟨[unit], rfl, .inl rfl⟩
  next => exact ⟨trees, rfl, .inl rfl⟩

private theorem enclose_eq {trees : List Tree} (leafy : Leafy trees) (last : Tree) :
    ∃ children, enclose trees last = .node .compilationUnit (children ++ [last]) ∧
      texts children = texts trees ∧ Leafy children := by
  obtain ⟨children, enclosed, rfl | rfl⟩ := enclose_cases leafy last
  · exact ⟨_, enclosed, rfl, leafy⟩
  · obtain ⟨shape, free⟩ := leafy _ (List.mem_singleton_self _)
    refine ⟨children, enclosed, by simp [texts, Tree.text, Kind.isToken], ?_⟩
    intro child member
    refine ⟨((wellFormed_node _ _).mp shape).2 child member, ?_⟩
    intro leaf present
    apply free leaf
    simp only [Tree.tokens, Kind.isToken, Bool.false_eq_true, if_false]
    exact mem_tokensOf.mpr ⟨child, member, present⟩

theorem wellFormed_toTree (source : String) (concrete : Concrete) : (toTree source concrete).WellFormed := by
  obtain ⟨children, enclosed, _, leafy⟩ := enclose_eq (leafy_lower source concrete 0)
    (.token .endOfFile ((Text.sliceFrom? source (lower source concrete 0).2).getD "") "")
  have shape : toTree source concrete = _ := enclosed
  rw [shape, wellFormed_node]
  refine ⟨rfl, fun child member => ?_⟩
  rcases List.mem_append.mp member with inside | last
  · exact (leafy child inside).1
  · rw [List.mem_singleton.mp last]
    rfl

/-- The tree of a source text has that text, byte for byte, and ends with its only end-of-file
token, as long as the leaves start and stop between characters of the text. -/
theorem toTree_lossless {source : String} {concrete : Concrete}
    (cuts : ∀ offset ∈ concrete.leafOffsets, Text.Boundary source offset) :
    (toTree source concrete).text = source ∧
      (toTree source concrete).width = source.utf8ByteSize ∧
      (toTree source concrete).kind = .compilationUnit ∧
      ∃ leaves last, (toTree source concrete).tokens = leaves ++ [last] ∧ last.kind = .endOfFile ∧
        ∀ leaf ∈ leaves, leaf.kind ≠ .endOfFile := by
  obtain ⟨after, split, cursor⟩ := reads_lower concrete 0 cuts "" source (by simp) (by simp)
  have tail : Text.sliceFrom? source (lower source concrete 0).2 = some after := by
    rw [cursor, Nat.zero_add]
    conv => lhs; arg 1; rw [split]
    exact Text.sliceFrom?_append _ _
  obtain ⟨children, enclosed, same, leafy⟩ := enclose_eq (leafy_lower source concrete 0) (.token .endOfFile after "")
  have shape : toTree source concrete = .node .compilationUnit (children ++ [.token .endOfFile after ""]) := by
    simp only [toTree, tail, Option.getD_some, enclosed]
  have text : (toTree source concrete).text = source := by
    rw [shape]
    simp only [Tree.text, Kind.isToken, Bool.false_eq_true, if_false, if_true, texts_append, texts, same]
    simpa using split.symm
  have sound : (toTree source concrete).WellFormed := by
    rw [shape, wellFormed_node]
    refine ⟨rfl, fun child member => ?_⟩
    rcases List.mem_append.mp member with inside | last
    · exact (leafy child inside).1
    · rw [List.mem_singleton.mp last]
      rfl
  refine ⟨text, ?_, by rw [shape]; rfl, tokensOf children, .token .endOfFile after "", ?_, rfl, ?_⟩
  · rw [width_eq_utf8ByteSize sound, text]
  · rw [shape]
    simp [Tree.tokens, Kind.isToken, tokensOf_append, tokensOf]
  · intro leaf member
    obtain ⟨child, held, known⟩ := mem_tokensOf.mp member
    exact (leafy child held).2 leaf known

def disordered : Concrete :=
  .node "compilation_unit" true 0 4
    [.node "identifier" true 3 4 [], .node "identifier" true 0 2 [], .node ";" false 4 4 []]

theorem toTree_lossless_disordered :
    (∀ offset ∈ disordered.leafOffsets, Text.Boundary "é b" offset) ∧
      (toTree "é b" disordered).text = "é b" ∧ (toTree "é b" disordered).tokens.length = 4 := by
  have cuts : ∀ offset ∈ disordered.leafOffsets, Text.Boundary "é b" offset := by
    have zero : Text.Boundary "é b" 0 := Text.boundary_zero _
    have two : Text.Boundary "é b" 2 := ⟨"é", " b", by decide +kernel, by decide +kernel⟩
    have three : Text.Boundary "é b" 3 := ⟨"é ", "b", by decide +kernel, by decide +kernel⟩
    have four : Text.Boundary "é b" 4 := ⟨"é b", "", by decide +kernel, by decide +kernel⟩
    simp [disordered, leafOffsets, leafOffsetsOf, zero, two, three, four]
  exact ⟨cuts, (toTree_lossless cuts).1, by decide +kernel⟩

end Concrete

end TreeLint
