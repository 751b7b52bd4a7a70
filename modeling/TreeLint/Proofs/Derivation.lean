import TreeLint.Proofs.Conversion
import TreeLint.Proofs.Staleness
import TreeLint.Proofs.Uses

/-! What trees can be made from well-formed ones. They need not be well formed themselves: replacing a child of a token
leaves a node of a token kind without children, and giving that node trivia makes it a token again. No operation gives
children to a token kind, though, or a text to any other kind. -/

namespace TreeLint

namespace Tree

mutual

/-- Nodes of a token kind have no children, and all other leaves with a text are tokens. -/
def Sound : Tree → Prop
  | token kind _ _ => kind.isToken = true
  | node kind children => (kind.isToken = true → children = []) ∧ AllSound children

def AllSound : List Tree → Prop
  | [] => True
  | tree :: rest => tree.Sound ∧ AllSound rest

end

theorem sound_node (kind : Kind) (children : List Tree) :
    (node kind children).Sound ↔ (kind.isToken = true → children = []) ∧ ∀ child ∈ children, child.Sound := by
  have each : ∀ trees : List Tree, AllSound trees ↔ ∀ tree ∈ trees, tree.Sound := by
    intro trees
    induction trees with
    | nil => simp [AllSound]
    | cons tree rest ih => simp [AllSound, ih]
  rw [Sound, each]

/-- A node of a kind for nodes is as sound as its children. -/
theorem sound_inner {kind : Kind} {children : List Tree} (inner : kind.isToken = false)
    (each : ∀ child ∈ children, child.Sound) : (node kind children).Sound := by
  refine (sound_node kind children).mpr ⟨?_, each⟩
  rw [inner]
  intro absurd
  cases absurd

theorem WellFormed.sound {tree : Tree} (shape : tree.WellFormed) : tree.Sound := by
  induction tree with
  | token kind leading text => exact shape
  | node kind children ih =>
    obtain ⟨inner, below⟩ := (wellFormed_node kind children).mp shape
    exact sound_inner inner fun child member => ih child member (below child member)

theorem Sound.child {tree child : Tree} (sound : tree.Sound) (member : child ∈ tree.children) : child.Sound := by
  cases tree with
  | token kind leading text => cases member
  | node kind children => exact ((sound_node kind children).mp sound).2 child member

theorem Sound.leaf {tree : Tree} (sound : tree.Sound) (isToken : tree.kind.isToken = true) : tree.children = [] := by
  cases tree with
  | token kind leading text => rfl
  | node kind children => exact ((sound_node kind children).mp sound).1 isToken

theorem Sound.get? {tree found : Tree} {path : List Nat} (sound : tree.Sound) (present : tree.get? path = some found) :
    found.Sound := by
  induction path generalizing tree with
  | nil => rw [get?_nil] at present; cases present; exact sound
  | cons index path ih =>
    obtain ⟨child, known, rest⟩ := get?_cons_eq_some.mp present
    exact ih (sound.child (List.mem_of_getElem? known)) rest

theorem Sound.replaceChild {tree child : Tree} (sound : tree.Sound) (new : child.Sound) (index : Nat) :
    (tree.replaceChild index child).Sound := by
  refine (sound_node _ _).mpr ⟨?_, ?_⟩
  · -- A token has no child at any index, so the new one goes nowhere.
    intro isToken
    rw [sound.leaf isToken]
    rfl
  · intro other member
    rcases List.mem_or_eq_of_mem_set member with old | rfl
    · exact sound.child old
    · exact new

theorem Sound.insertChild {tree child : Tree} (sound : tree.Sound) (inner : tree.isToken = false) (new : child.Sound)
    (index : Nat) : (tree.insertChild index child).Sound := by
  apply sound_inner inner
  intro other member
  rcases (List.mem_insertIdx (Nat.min_le_right _ _)).mp member with rfl | old
  · exact new
  · exact sound.child old

theorem Sound.withLeading {tree : Tree} (sound : tree.Sound) (trivia : String) : (tree.withLeading trivia).Sound := by
  induction tree with
  | token kind leading text =>
    rw [Tree.withLeading]
    split
    · exact sound
    · exact sound
  | node kind children ih =>
    rw [Tree.withLeading]
    split
    next isToken => exact isToken
    next inner =>
      apply sound_inner (by simpa using inner)
      intro child member
      rcases mem_withLeadingFirst member with old | ⟨old, known, rfl⟩
      · exact sound.child old
      · exact ih old known (sound.child known)

theorem Sound.replaceAt {tree found replacement : Tree} {path : List Nat} (sound : tree.Sound)
    (present : tree.get? path = some found) (new : replacement.Sound) : (tree.replaceAt path replacement).Sound := by
  induction path generalizing tree with
  | nil => simpa using new
  | cons index path ih =>
    obtain ⟨child, known, rest⟩ := get?_cons_eq_some.mp present
    rw [Tree.replaceAt, known]
    exact sound.replaceChild (ih (sound.child (List.mem_of_getElem? known)) rest) index

theorem sound_declarator (name : String) {value : Option Tree} (given : ∀ tree ∈ value, tree.Sound) :
    (Build.declarator name value).Sound := by
  cases value with
  | none =>
    apply sound_inner rfl
    rw [List.forall_mem_singleton]
    rfl
  | some value =>
    apply sound_inner rfl
    simp only [List.mem_cons, List.not_mem_nil, or_false, forall_eq_or_imp, forall_eq]
    exact ⟨rfl, rfl, (given value rfl).withLeading _⟩

theorem sound_declaration (keyword : String) {first : Tree} {rest : List Tree} (head : first.Sound)
    (tail : ∀ tree ∈ rest, tree.Sound) : (Build.declaration keyword first rest).Sound := by
  apply sound_inner rfl
  simp only [List.mem_cons, forall_eq_or_imp]
  exact ⟨rfl, head.withLeading _, tail⟩

theorem sound_returnStatement {value : Tree} (given : value.Sound) : (Build.returnStatement value).Sound := by
  apply sound_inner rfl
  simp only [List.mem_cons, List.not_mem_nil, or_false, forall_eq_or_imp, forall_eq]
  exact ⟨rfl, given.withLeading _, rfl⟩

theorem sound_block {statements : List Tree} (given : ∀ statement ∈ statements, statement.Sound) (indent : Option String) :
    (Build.block statements indent).Sound := by
  apply sound_inner rfl
  intro piece member
  simp only [List.mem_append, List.mem_cons, List.mem_map, List.not_mem_nil, or_false] at member
  rcases member with (rfl | ⟨statement, present, rfl⟩) | rfl
  · rfl
  · exact (given statement present).withLeading _
  · rfl

theorem sound_method (keywords : List String) (returnType name : String) {body : Tree} (given : body.Sound) :
    (Build.method keywords returnType name body).Sound := by
  have modifier (leading text : String) : (node .modifier [token .keyword leading text]).Sound := by
    apply sound_inner rfl
    rw [List.forall_mem_singleton]
    rfl
  have parameters : (node .parameterList [Build.token .punctuation "(", Build.token .punctuation ")"]).Sound := by
    apply sound_inner rfl
    simp only [List.mem_cons, List.not_mem_nil, or_false, forall_eq_or_imp, forall_eq]
    exact ⟨rfl, rfl⟩
  have modified : ∀ piece ∈ Build.modifiers keywords, piece.Sound := by
    intro piece member
    cases keywords with
    | nil => cases member
    | cons first rest =>
      rcases List.mem_cons.mp member with rfl | later
      · exact modifier _ _
      · obtain ⟨keyword, _, rfl⟩ := List.mem_map.mp later
        exact modifier _ _
  apply sound_inner rfl
  simp only [List.mem_append, List.mem_cons, List.not_mem_nil, or_false]
  rintro piece (member | rfl | rfl | rfl | rfl)
  · exact modified piece member
  · rfl
  · rfl
  · exact parameters
  · exact given

theorem Sound.carryOut {tree result : Tree} {numbered : Edit × Nat} (sound : tree.Sound)
    (new : numbered.1.replacement.Sound) (done : Edit.carryOut tree numbered = .ok result) : result.Sound := by
  rw [Edit.carryOut] at done
  split at done
  next target found =>
    cases done
    have covers := covers_of_covering found
    rw [Node.replaceWith]
    apply Sound.replaceAt _ covers.valid (new.withLeading _)
    rwa [covers.root_eq]
  next => cases done

theorem Sound.applyAll {tree result : Tree} {edits : List Edit} (sound : tree.Sound)
    (new : ∀ edit ∈ edits, edit.replacement.Sound) (done : Edit.applyAll tree edits = .ok result) : result.Sound := by
  have run : ∀ (numbered : List (Edit × Nat)) (tree : Tree), tree.Sound →
      (∀ pair ∈ numbered, pair.1.replacement.Sound) → numbered.foldlM Edit.carryOut tree = .ok result → result.Sound := by
    intro numbered
    induction numbered with
    | nil =>
      intro tree sound _ done
      cases done
      exact sound
    | cons pair rest ih =>
      intro tree sound new done
      rw [List.foldlM_cons] at done
      cases step : Edit.carryOut tree pair with
      | error cause => rw [step] at done; cases done
      | ok next =>
        rw [step] at done
        exact ih next (sound.carryOut (new pair (by simp)) step) (fun other member => new other (by simp [member])) done
  rw [Edit.applyAll] at done
  split at done
  · cases done
  · apply run _ tree sound _ done
    intro pair member
    apply new
    apply (Edit.ordered_perm edits).subset
    rw [← Edit.map_backToFront]
    exact List.mem_map.mpr ⟨pair, member, rfl⟩

/-- A single edit that puts a sound tree somewhere. -/
theorem Sound.applyAll_one {tree result replacement : Tree} {target : Node} (sound : tree.Sound) (new : replacement.Sound)
    (done : Edit.applyAll tree [.replacing target replacement] = .ok result) : result.Sound := by
  apply sound.applyAll _ done
  rw [List.forall_mem_singleton]
  exact new

theorem Sound.negatedName {tree fixed : Tree} {span : Span} (sound : tree.Sound)
    (done : Fix.negatedName tree span = .ok fixed) : fixed.Sound := by
  obtain ⟨plan, renamed, read, first, second⟩ := Fix.negatedName_steps done
  have reads := Fix.Renaming.reads_of_ok read
  have covers := covers_of_covering reads.found
  have declaration : plan.declaration.tree.Sound := (covers.root_eq ▸ sound).get? covers.valid
  have value : plan.value.tree.Sound := by
    have outer := (Node.mem_children (List.mem_of_find?_eq_some reads.first)).2.2
    have inner := Node.mem_of_initializer? reads.value_eq
    exact (declaration.child (List.mem_of_getElem? outer)).child (List.mem_of_getElem? (Node.mem_children inner).2.2)
  have replacement : plan.replacement.Sound := by
    apply sound_declaration
    · apply sound_declarator
      rintro _ ⟨⟩
      exact value
    · intro tree member
      exact declaration.child (List.mem_of_mem_drop member)
  apply (sound.applyAll_one replacement first).applyAll _ second
  intro edit member
  obtain ⟨use, _, rfl⟩ := List.mem_map.mp member
  exact (wellFormed_negation _).sound

theorem Sound.missingToString {tree fixed : Tree} {span : Span} (sound : tree.Sound)
    (done : Fix.missingToString tree span = .ok fixed) : fixed.Sound := by
  obtain ⟨access, receiver, body, close, found, known, isBody, _, carried⟩ := Fix.missingToString_steps done
  obtain ⟨sameRoot, valid, _⟩ := Node.receiver?_definition known
  rw [(covers_of_covering found).root_eq] at sameRoot
  have definition : receiver.definition.tree.Sound := (sameRoot ▸ sound).get? valid
  have inner : body.kind = .declarationList := by simpa using List.find?_some isBody
  have bodySound : body.tree.Sound :=
    definition.child (List.mem_of_getElem? (Node.mem_children (List.mem_of_find?_eq_some isBody)).2.2)
  apply sound.applyAll_one _ carried
  apply definition.replaceChild
  apply bodySound.insertChild
  · rw [isToken, show body.tree.kind = .declarationList from inner]
    rfl
  · exact (made_listingMethod _ _).shape.sound

theorem Sound.applyFix {tree fixed : Tree} {ruleId : String} {span : Span} (sound : tree.Sound)
    (done : applyFix tree ruleId span = .ok fixed) : fixed.Sound := by
  rw [TreeLint.applyFix] at done
  split at done
  · exact sound.negatedName done
  · exact sound.missingToString done
  · cases done

/-- Trees made from well-formed ones by all that this library can do with them. -/
inductive Derived : Tree → Prop where
  | start {tree : Tree} (shape : tree.WellFormed) : Derived tree
  | node {kind : Kind} {children : List Tree} (inner : kind.isToken = false) (each : ∀ child ∈ children, Derived child) :
      Derived (.node kind children)
  | part {tree found : Tree} (whole : Derived tree) (member : found ∈ tree.subtrees) : Derived found
  | replaceChild {tree child : Tree} (whole : Derived tree) (index : Nat) (new : Derived child) :
      Derived (tree.replaceChild index child)
  | insertChild {tree child : Tree} (whole : Derived tree) (inner : tree.isToken = false) (index : Nat)
      (new : Derived child) : Derived (tree.insertChild index child)
  | withLeading {tree : Tree} (whole : Derived tree) (trivia : String) : Derived (tree.withLeading trivia)
  | token {kind : Kind} (isToken : kind.isToken = true) (text : String) : Derived (Build.token kind text)
  | identifier (name : String) : Derived (Build.identifier name)
  | negation (name : String) : Derived (Build.negation name)
  | declarator (name : String) {value : Option Tree} (given : ∀ tree ∈ value, Derived tree) :
      Derived (Build.declarator name value)
  | declaration (keyword : String) {first : Tree} {rest : List Tree} (head : Derived first)
      (tail : ∀ tree ∈ rest, Derived tree) : Derived (Build.declaration keyword first rest)
  | interpolatedString (parts : List (String × String)) : Derived (Build.interpolatedString parts)
  | returnStatement {value : Tree} (given : Derived value) : Derived (Build.returnStatement value)
  | block {statements : List Tree} (given : ∀ statement ∈ statements, Derived statement) (indent : Option String) :
      Derived (Build.block statements indent)
  | method (keywords : List String) (returnType name : String) {body : Tree} (given : Derived body) :
      Derived (Build.method keywords returnType name body)
  | replaceWith {node : Node} {replacement : Tree} (whole : Derived node.root) (valid : node.Valid)
      (new : Derived replacement) : Derived (node.replaceWith replacement)
  | applyAll {tree result : Tree} {edits : List Edit} (whole : Derived tree)
      (new : ∀ edit ∈ edits, Derived edit.replacement) (done : Edit.applyAll tree edits = .ok result) : Derived result
  | applyFix {tree fixed : Tree} {ruleId : String} {span : Span} (whole : Derived tree)
      (done : TreeLint.applyFix tree ruleId span = .ok fixed) : Derived fixed

theorem Derived.sound {tree : Tree} (derived : Derived tree) : tree.Sound := by
  induction derived with
  | start shape => exact shape.sound
  | node inner each ih => exact sound_inner inner ih
  | part whole member ih =>
    obtain ⟨path, present⟩ := mem_subtrees.mp member
    exact ih.get? present
  | replaceChild whole index new ih fresh => exact ih.replaceChild fresh index
  | insertChild whole inner index new ih fresh => exact ih.insertChild inner fresh index
  | withLeading whole trivia ih => exact ih.withLeading trivia
  | token isToken text => exact isToken
  | identifier name => rfl
  | negation name => exact (wellFormed_negation name).sound
  | declarator name given ih => exact sound_declarator name ih
  | declaration keyword head tail first rest => exact sound_declaration keyword first rest
  | interpolatedString parts => exact (made_interpolatedString parts).shape.sound
  | returnStatement given ih => exact sound_returnStatement ih
  | block given indent ih => exact sound_block ih indent
  | method keywords returnType name given ih => exact sound_method keywords returnType name ih
  | replaceWith whole valid new ih fresh => exact ih.replaceAt valid fresh
  | applyAll whole new done ih fresh => exact ih.applyAll fresh done
  | applyFix whole done ih => exact ih.applyFix done

end Tree

end TreeLint
