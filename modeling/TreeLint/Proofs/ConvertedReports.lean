import TreeLint.Proofs.Conversion
import TreeLint.Proofs.Insertion
import TreeLint.Proofs.Rounds

/-! What adding a string conversion does to the reports. The new method is a child that no lookup stops at, so
the file is seen as before except that one class has a conversion now. Exactly the reports on that class and on
the classes that inherit from it disappear. -/

namespace TreeLint

namespace Tree

theorem Made.silent {tree : Tree} (made : tree.Made) : tree.Silent := by
  intro found member
  have isMade := made.kinds found member
  cases kind : found.kind <;> simp_all [Kind.isMade, Kind.isSubject, Kind.isToken]

variable {definition body method : Tree} {slot index : Nat}

theorem extended_eq (place : Slot definition body slot index) :
    extended definition body method slot index =
      node definition.kind (definition.children.take slot ++
        node body.kind (body.children.take index ++ method :: body.children.drop index) ::
          definition.children.drop (slot + 1)) := by
  have inner : body.insertChild index method =
      node body.kind (body.children.take index ++ method :: body.children.drop index) := by
    rw [← children_insertChild place]
    rfl
  rw [← inner, ← children_extended place]
  rfl

/-- The trivia in front of a class stays in front of it. If nothing stands in the class before the new method,
it becomes that of the method. -/
theorem withLeading_extended (place : Slot definition body slot index) (shape : definition.WellFormed)
    (full : method.firstToken?.isSome) :
    (extended definition body method slot index).withLeading definition.leading =
      extended definition body
        (if (firstTokenOf? (definition.children.take slot ++ body.children.take index)).isSome then method
          else method.withLeading definition.leading) slot index := by
  have bodyInner : body.kind.isToken = false := by rw [place.kind_eq]; rfl
  have member := List.mem_of_getElem? place.body_eq
  have inner : definition.kind.isToken = false := by
    cases definition with
    | token kind leading text => cases member
    | node kind children => exact ((wellFormed_node kind children).mp shape).1
  have start : definition.firstToken? = (firstTokenOf? (definition.children.take slot)).or
      (body.firstToken?.or (firstTokenOf? (definition.children.drop (slot + 1)))) := by
    rw [firstToken?_inner inner]
    conv => lhs; rw [split_at place.body_eq]
    rw [firstTokenOf?_append, firstTokenOf?]
  rw [extended_eq place, extended_eq place, withLeading, inner, firstTokenOf?_append, withLeadingFirst_append]
  simp only [Bool.false_eq_true, if_false]
  cases outer : firstTokenOf? (definition.children.take slot) with
  | some token =>
    rw [outer, Option.some_or] at start
    rw [leading_of_firstToken? start,
      withLeadingFirst_of_start (fun tree inside => shape.child (List.mem_of_mem_take inside)) outer]
    rfl
  | none =>
    have filled : (node body.kind (body.children.take index ++ method :: body.children.drop index)).firstToken?.isSome := by
      rw [firstToken?_node bodyInner, firstTokenOf?_append, firstTokenOf?]
      obtain ⟨first, known⟩ := Option.isSome_iff_exists.mp full
      cases firstTokenOf? (body.children.take index) <;> simp [known]
    simp only [Option.isSome_none, Bool.false_eq_true, if_false, Option.none_or]
    rw [withLeadingFirst, if_pos filled, withLeading, bodyInner, withLeadingFirst_append]
    simp only [Bool.false_eq_true, if_false]
    cases front : firstTokenOf? (body.children.take index) with
    | some token =>
      have first : body.firstToken? = some token := by
        rw [firstToken?_inner bodyInner, ← List.take_append_drop index body.children, firstTokenOf?_append, front,
          Option.some_or]
      rw [outer, Option.none_or, first, Option.some_or] at start
      rw [leading_of_firstToken? start,
        withLeadingFirst_of_start (fun tree inside => (shape.child member).child (List.mem_of_mem_take inside)) front]
      rfl
    | none => simp [withLeadingFirst, full]

theorem replaceAt_append {tree around : Tree} {path : List Nat} (above : tree.get? path = some around) (below : List Nat)
    (replacement : Tree) :
    tree.replaceAt (path ++ below) replacement = tree.replaceAt path (around.replaceAt below replacement) := by
  induction path generalizing tree with
  | nil =>
    rw [get?_nil] at above
    cases above
    rw [List.nil_append, replaceAt_nil]
  | cons index path ih =>
    obtain ⟨child, known, rest⟩ := get?_cons_eq_some.mp above
    rw [List.cons_append, replaceAt_cons known, replaceAt_cons known, ih rest]

theorem replaceAt_slot (place : Slot definition body slot index) :
    definition.replaceAt [slot] (body.insertChild index method) = extended definition body method slot index := by
  rw [replaceAt_cons place.body_eq, replaceAt_nil]
  rfl

/-- A method changes neither the name of a class nor its base. -/
theorem signature_extended (place : Slot definition body slot index) (kind : definition.kind = .classDeclaration) :
    (extended definition body method slot index).signature = definition.signature := by
  have elsewhere (wanted : Kind) (other : wanted ≠ .declarationList) :
      ((extended definition body method slot index).children.find? fun child => child.kind = wanted) =
        definition.children.find? fun child => child.kind = wanted := by
    have new : (body.insertChild index method).kind ≠ wanted := by
      rw [kind_insertChild, place.kind_eq]
      exact other.symm
    have old : body.kind ≠ wanted := by
      rw [place.kind_eq]
      exact other.symm
    conv => rhs; rw [split_at place.body_eq]
    rw [children_extended place, List.find?_append, List.find?_append, List.find?_cons, List.find?_cons]
    simp [new, old]
  rw [signature, signature, kind_extended, kind, ownName?, ownName?, elsewhere .identifier (by decide), baseName?,
    baseName?, elsewhere .baseList (by decide)]

/-- Seen from around the class, nothing has changed. -/
theorem above_extended {tree found : Tree} {path above below : List Nat} (present : tree.get? path = some definition)
    (kind : definition.kind = .classDeclaration) (shape : definition.WellFormed)
    (place : Slot definition body slot index) (fresh : method.WellFormed) (split : above ++ below = path ++ [slot])
    (known : tree.get? above = some found) :
    (found = body ∧ below = []) ∨ (above = path ∧ found = definition ∧ below = [slot]) ∨
      (above ≠ path ∧ (found.replaceAt below (body.insertChild index method)).sketch = found.sketch) := by
  rcases List.eq_nil_or_concat' below with rfl | ⟨rest, last, rfl⟩
  · rw [List.append_nil] at split
    rw [split, get?_concat present place.body_eq] at known
    exact .inl ⟨(Option.some.inj known).symm, rfl⟩
  · rw [← List.append_assoc] at split
    obtain ⟨rfl, same⟩ := List.append_inj' split rfl
    obtain rfl : last = slot := by simpa using same
    rw [get?_append, known, Option.bind_some] at present
    cases rest with
    | nil =>
      rw [get?_nil] at present
      exact .inr (.inl ⟨by simp, Option.some.inj present, rfl⟩)
    | cons step rest =>
      have fits : Replaces (extended definition body method last index) definition :=
        ⟨kind_extended, by rw [kind]; rfl, wellFormed_extended place shape fresh⟩
      refine .inr (.inr ⟨by simp, ?_⟩)
      rw [replaceAt_append present, replaceAt_slot place, sketch_replaceAt (by simp) present shape fits]

theorem inserted_extended {tree : Tree} {path : List Nat} (present : tree.get? path = some definition)
    (kind : definition.kind = .classDeclaration) (shape : definition.WellFormed)
    (place : Slot definition body slot index) (made : method.Made) :
    Inserted tree (tree.replaceAt path (extended definition body method slot index)) (path ++ [slot]) index body method where
  present := get?_concat present place.body_eq
  inside := place.inside
  later_eq := by rw [replaceAt_append present, replaceAt_slot place]
  silent := made.silent
  unseen := by
    intro above below found split known
    rcases above_extended present kind shape place made.shape split known with
      ⟨rfl, rfl⟩ | ⟨rfl, rfl, rfl⟩ | ⟨_, same⟩
    · rw [replaceAt_nil, signature_of_other (by rw [kind_insertChild, place.kind_eq]; rfl),
        signature_of_other (by rw [place.kind_eq]; rfl)]
    · rw [replaceAt_slot place, signature_extended place kind]
    · exact signature_eq_of_sketch same

theorem declares_extended {name : String} (place : Slot definition body slot index) (named : method.isMethodNamed name) :
    (extended definition body method slot index).declares name := by
  rw [declares, body?_extended place, Option.any_some, children_insertChild place]
  simp [named]

end Tree

namespace Fix
open TreeLint.Tree

def placedMethod (definition body close : Node) : Tree :=
  if (firstTokenOf? (definition.tree.children.take body.index ++ body.tree.children.take close.index)).isSome then
    listingMethod definition.fieldNames (Layout.choose definition.classMembers close)
  else (listingMethod definition.fieldNames (Layout.choose definition.classMembers close)).withLeading
    definition.tree.leading

variable {definition body close : Node}

theorem converted_eq (shape : definition.tree.WellFormed) (place : Slot definition.tree body.tree body.index close.index) :
    converted definition body close =
      extended definition.tree body.tree (placedMethod definition body close) body.index close.index :=
  withLeading_extended place shape rfl

theorem made_placedMethod (definition body close : Node) : (placedMethod definition body close).Made := by
  have made := made_listingMethod definition.fieldNames (Layout.choose definition.classMembers close)
  rw [placedMethod]
  split
  · exact made
  · exact made.withLeading _

theorem isMethodNamed_placedMethod (definition body close : Node) :
    (placedMethod definition body close).isMethodNamed toStringName := by
  have made := made_listingMethod definition.fieldNames (Layout.choose definition.classMembers close)
  rw [placedMethod]
  split
  · exact isMethodNamed_listingMethod _ _
  · rw [← isMethodNamed_glimpse, glimpse_withLeading made.shape, isMethodNamed_glimpse, isMethodNamed_listingMethod]

variable {tree fixed : Tree} {node : Node} {receiver : Receiver}

/-- The tree with the fixed class, as one with a new child. -/
theorem inserted_of_ok (found : Unconverted tree node receiver) (shape : tree.WellFormed)
    (isBody : receiver.definition.classBody? = some body) (shut : closingBrace? body = some close) :
    Inserted tree (tree.replaceAt receiver.definition.path (converted receiver.definition body close))
      (receiver.definition.path ++ [body.index]) close.index body.tree (placedMethod receiver.definition body close) := by
  have sound := found.sound shape
  have place := slot_of_closingBrace? isBody shut
  rw [converted_eq sound place]
  exact inserted_extended found.present found.definition_eq.2.2 sound place (made_placedMethod ..)

/-- The class that got the method declares it, and no other class has changed. -/
theorem declares_image (found : Unconverted tree node receiver) (shape : tree.WellFormed)
    (isBody : receiver.definition.classBody? = some body) (shut : closingBrace? body = some close)
    {other : Node} (held : tree.Holds other) (isClass : other.kind = .classDeclaration) :
    (other.shifted (tree.replaceAt receiver.definition.path (converted receiver.definition body close))
        (receiver.definition.path ++ [body.index]) close.index).declaresMethod toStringName ↔
      other.declaresMethod toStringName ∨ other = receiver.definition := by
  obtain ⟨sameRoot, valid, kind⟩ := found.definition_eq
  have sound := found.sound shape
  have place := slot_of_closingBrace? isBody shut
  have inserted := inserted_of_ok found shape isBody shut
  rw [Node.declaresMethod_eq, Node.declaresMethod_eq]
  by_cases above : other.path <+: receiver.definition.path ++ [body.index]
  · obtain ⟨below, split⟩ := above
    rw [inserted.image_above held split]
    rcases above_extended found.present kind sound place (made_placedMethod receiver.definition body close).shape split
      held.present with ⟨same, rfl⟩ | ⟨path, same, rfl⟩ | ⟨apart, same⟩
    · rw [Node.kind, same, place.kind_eq] at isClass
      cases isClass
    · have equal : other = receiver.definition := held.eq_of_path ⟨sameRoot, valid⟩ path
      rw [same, replaceAt_slot place]
      exact iff_of_true (declares_extended place (isMethodNamed_placedMethod ..)) (.inr equal)
    · rw [← declares_sketch, same, declares_sketch]
      exact (or_iff_left fun equal => apart (congrArg Node.path equal)).symm
  · rw [inserted.image_off held above]
    exact (or_iff_left fun equal => above (by rw [equal]; exact List.prefix_append ..)).symm

end Fix

open Classical in
/-- When a report on a missing conversion has been fixed, the same reports come in the same order, without those on
the class that got the method and on the classes whose bases lead to it. -/
theorem detect_fixed {rules : List Rule} {tree fixed : Tree} {defect : Defect} (shape : tree.WellFormed)
    (reported : defect ∈ detect rules tree) (rule : defect.rule = .missingToString)
    (done : defect.fixIn tree = .ok fixed) :
    ∃ receiver, defect.anchor.receiver? = some receiver ∧
      ((detect rules fixed).map fun other => (other.rule.id, other.arguments)) =
        ((detect rules tree).filter fun other =>
          ¬ (other.rule = .missingToString ∧ ∃ target, other.anchor.receiver? = some target ∧
            target.definition.Reaches receiver.definition)).map fun other => (other.rule.id, other.arguments) := by
  rcases detect_cases reported with ⟨_, node, name, _, rfl⟩ | ⟨node, receiver, found, rfl⟩
  · cases rule
  rw [FixState.fixIn_missingToString] at done
  obtain ⟨body, close, isBody, shut, rfl⟩ := (Fix.missingToString_eq_ok found shape).mp done
  have simulates := (Fix.inserted_of_ok found shape isBody shut).simulation
  have reports := simulates.detect_image
    (fun other held kind => Fix.declares_image found shape isBody shut held kind) rules
  refine ⟨receiver, found.receiver_eq, ?_⟩
  rw [reports, List.map_map]
  have settled (other : Defect) : other.SettledBy (fun definition => definition = receiver.definition) ↔
      other.rule = .missingToString ∧ ∃ target, other.anchor.receiver? = some target ∧
        target.definition.Reaches receiver.definition := by
    simp only [Defect.SettledBy, exists_eq_right]
  simp only [settled]
  rfl

def inherited : Tree :=
  let definition (name : String) (bases : List Tree) : Tree :=
    .node .classDeclaration
      ([.token .keyword "\n" "class", .token .identifier " " name] ++ bases ++
        [.node .declarationList [.token .punctuation " " "\x7b", .token .punctuation " " "\x7d"]])
  let access (name type : String) : List Tree :=
    [.node .variableDeclaration
      [.token .implicitType "\n" "var",
        .node .variableDeclarator
          [.token .identifier " " name, .token .punctuation " " "=",
            .node .objectCreation [.token .keyword " " "new", .token .identifier " " type]]],
      .node .memberAccess
        [.token .identifier "\n" name, .token .punctuation "" ".", .token .identifier "" "ToString"]]
  .node .compilationUnit
    ([definition "Leaf" [.node .baseList
        [.token .punctuation " " ":", .node .baseTypeReference [.token .identifier " " "Root"]]],
      definition "Root" []] ++ access "leaf" "Leaf" ++ access "root" "Root")

open Classical in
theorem detect_fixed_inherited :
    ∃ defect fixed receiver, (detect Rule.all inherited)[1]? = some defect ∧ defect.fixIn inherited = .ok fixed ∧
      defect.anchor.receiver? = some receiver ∧
      ((detect Rule.all fixed).map fun other => (other.rule.id, other.arguments)) =
        ((detect Rule.all inherited).filter fun other =>
          ¬ (other.rule = .missingToString ∧ ∃ target, other.anchor.receiver? = some target ∧
            target.definition.Reaches receiver.definition)).map fun other => (other.rule.id, other.arguments) := by
  have shape : inherited.WellFormed := by
    simp [inherited, Tree.WellFormed, Tree.AllWellFormed, Kind.isToken]
  have computed : ((detect Rule.all inherited)[1]?.map fun defect =>
      (defect.rule, (defect.fixIn inherited).toOption.isSome)) = some (.missingToString, true) := by
    decide +kernel
  obtain ⟨defect, known, result⟩ := Option.map_eq_some_iff.mp computed
  obtain ⟨rule, fits⟩ := Prod.mk.inj result
  cases done : defect.fixIn inherited with
  | error failure => rw [done] at fits; cases fits
  | ok fixed =>
    obtain ⟨receiver, reached, reports⟩ := detect_fixed shape (List.mem_of_getElem? known) rule done
    exact ⟨defect, fixed, receiver, known, done, reached, reports⟩

end TreeLint
