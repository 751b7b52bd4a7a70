import TreeLint.Proofs.Conversion
import TreeLint.Proofs.Renaming

/-! Trees in which a fix loses nothing. In a tidy tree what the renaming fix leaves out names nothing,
closing braces end the bodies they close, and no class lies inside a declaration of variables. Then
the renaming fix depends on how often its name is introduced and on nothing else in the tree. Both
fixes keep a tree tidy. -/

namespace TreeLint

namespace Tree

instance (tree : Tree) : Decidable tree.Plain :=
  inferInstanceAs (Decidable (∀ found ∈ tree.subtrees, found.kind.isNaming = false))

/-- A declaration that the fix can write again without losing a name, or a class with room for a
method in front of its last brace. -/
def isTidy (tree : Tree) : Bool :=
  match tree.kind with
  | .variableDeclaration => !tree.isBool || tree.spares.all fun spare => spare.Plain
  | .classDeclaration => tree.bracketed
  | _ => true

def untidy (tree : Tree) : Nat :=
  (!tree.isTidy).toNat

private theorem plain_glimpse (tree : Tree) : tree.glimpse.Plain ↔ tree.Plain := by
  induction tree with
  | token kind leading text => simp [glimpse, Plain, subtrees]
  | node kind children ih =>
    rw [glimpse, plain_node]
    split
    next landmark =>
      have naming : kind.isNaming = true := by cases kind <;> first | rfl | cases landmark
      simp [plain_node, naming]
    next => simp +contextual [plain_node, glimpses_eq_map, ih]

private theorem spares_map {tree other : Tree} {change : Tree → Tree}
    (children : other.children = tree.children.map change)
    (sameKind : ∀ child, (change child).kind = .variableDeclarator ↔ child.kind = .variableDeclarator)
    (sameSign : ∀ child, (change child).isEquals = child.isEquals)
    (inside : ∀ child, child.kind = .variableDeclarator → (change child).children = child.children.map change) :
    other.spares = tree.spares.map change := by
  have kinds : (fun child : Tree => decide (child.kind = .variableDeclarator)) ∘ change =
      fun child => decide (child.kind = .variableDeclarator) := by
    funext child
    rw [Function.comp_apply, decide_eq_decide]
    exact sameKind child
  have signs : (fun child : Tree => !child.isEquals) ∘ change = fun child => !child.isEquals := by
    funext child
    rw [Function.comp_apply, sameSign]
  rw [spares, spares, declarator?, declarator?, children, List.find?_map, kinds]
  cases search : tree.children.find? fun child => child.kind = .variableDeclarator with
  | none => rfl
  | some declarator =>
    simp only [Option.map_some, inside declarator (kind_of_find? search), List.findIdx_map, kinds, List.takeWhile_map,
      List.dropWhile_map, signs, List.map_append, List.map_take, List.map_drop]

private theorem bracketed_map {tree other : Tree} {change : Tree → Tree}
    (bodies : other.body? = tree.body?.map change) (sameSign : ∀ child, (change child).isBrace = child.isBrace)
    (inside : ∀ body, tree.body? = some body → (change body).children = body.children.map change) :
    other.bracketed = tree.bracketed := by
  have signs : isBrace ∘ change = isBrace := by
    funext child
    exact sameSign child
  rw [bracketed, bracketed, bodies]
  cases search : tree.body? with
  | none => rfl
  | some body =>
    rw [Option.map_some, Option.all_some, Option.all_some, inside body search, List.any_map, signs, List.getLast?_map]
    cases body.children.getLast? with
    | none => rfl
    | some last => rw [Option.map_some, Option.any_some, Option.any_some, sameSign]

private theorem spares_sketch (tree : Tree) : tree.sketch.spares = tree.spares.map glimpse := by
  refine spares_map (children_sketch tree) (fun child => by rw [kind_glimpse]) isEquals_glimpse ?_
  intro child kind
  rw [glimpse_eq_sketch (by rw [kind]; rfl), children_sketch]

private theorem bracketed_sketch (tree : Tree) : tree.sketch.bracketed = tree.bracketed := by
  refine bracketed_map (find?_children_sketch tree .declarationList) isBrace_glimpse ?_
  intro body isBody
  rw [glimpse_eq_sketch (by rw [kind_of_find? isBody]; rfl), children_sketch]

theorem weight_untidy : Weight untidy := by
  refine ⟨?_, ?_⟩
  · intro tree
    rw [untidy, untidy, isTidy, isTidy, kind_sketch, isBool_sketch, spares_sketch, bracketed_sketch, List.all_map]
    simp [Function.comp_def, plain_glimpse]
  · intro tree plain
    rw [untidy, isTidy]
    cases same : tree.kind <;> simp_all [Kind.isNaming]

section
variable {old new : String}

private theorem plain_negateUses (tree : Tree) : (tree.negateUses old new).Plain ↔ tree.Plain := by
  rw [plain_iff_tally, plain_iff_tally, tally_negateUses weight_namingWeight]
  intro found _
  rw [namingWeight, kind_negateUses, namingWeight]
  split
  next used => rw [kind_of_isUse used]; rfl
  next => rfl

private theorem untidy_negateUses (tree : Tree) : (tree.negateUses old new).untidy = tree.untidy := by
  by_cases used : tree.isUse old
  · rw [weight_untidy.light tree (by rw [kind_of_isUse used]; rfl),
      weight_untidy.light _ (by rw [kind_negateUses, if_pos used]; rfl)]
  have spared : (tree.negateUses old new).spares = tree.spares.map (negateUses old new) := by
    refine spares_map (children_negateUses used)
      (fun child => kind_negateUses_eq child (by decide) (by decide)) isEquals_negateUses ?_
    intro child kind
    exact children_negateUses (not_isUse_of_kind (by rw [kind]; decide))
  have closed : (tree.negateUses old new).bracketed = tree.bracketed :=
    bracketed_map (body?_negateUses used) isBrace_negateUses fun body isBody => children_body_negateUses isBody
  rw [untidy, untidy, isTidy, isTidy, kind_negateUses, if_neg used, isBool_negateUses used, spared, closed, List.all_map]
  simp [Function.comp_def, plain_negateUses]

theorem tally_untidy_negateUses (tree : Tree) : tally untidy (tree.negateUses old new) = tally untidy tree :=
  tally_negateUses weight_untidy fun found _ => untidy_negateUses found

end

theorem untidy_renamed {declaration value : Tree} (shape : declaration.WellFormed)
    (literal : declaration.literal? = some value) (name trivia : String) :
    ((declaration.renamed value name).withLeading trivia).untidy = 0 := by
  rw [← weight_untidy.sketched, sketch_withLeading (wellFormed_renamed shape literal name), weight_untidy.sketched,
    untidy, isTidy, renamed_eq]
  have leaf (kind : Kind) (plain : kind.isNaming = false) (leading text : String) :
      (token kind leading text).Plain :=
    plain_token leading text plain
  simp [spares, declarator?, newDeclarator, List.findIdx_cons, isEquals, spelling, leaf .predefinedType rfl,
    leaf .identifier rfl, leaf .punctuation rfl]

theorem bracketed_extended {definition body method : Tree} {slot index : Nat} (place : Slot definition body slot index)
    (ends : definition.bracketed) : (extended definition body method slot index).bracketed := by
  obtain ⟨close, known, isBrace⟩ := place.brace
  have inside := (List.getElem?_eq_some_iff.mp known).1
  have isBody : definition.body? = some body := by
    rw [body?, List.find?_eq_some_iff_append]
    refine ⟨by simp [place.kind_eq], _, _, split_at place.body_eq, ?_⟩
    intro child member
    simpa using place.first child member
  rw [bracketed, isBody, Option.all_some, List.any_eq_true.mpr ⟨close, List.mem_of_getElem? known, isBrace⟩,
    Bool.not_true, Bool.false_or, Option.any_eq_true] at ends
  obtain ⟨final, known, shut⟩ := ends
  have last : (body.insertChild index method).children.getLast? = some final := by
    rw [children_insertChild place, List.getLast?_append, List.getLast?_cons, List.getLast?_drop,
      if_neg (by omega), known]
    rfl
  rw [bracketed, body?_extended place, Option.all_some, last, Option.any_some, shut, Bool.or_true]

/-- How often a declaration and what stands in it introduce a name, before and after it is renamed. -/
theorem claims_renamedAt {tree : Tree} {node : Node} {name : String} (found : Negated tree node name)
    (shape : tree.WellFormed) (tidy : node.tree.untidy = 0) {value : Tree} (literal : node.tree.literal? = some value)
    (other : String) :
    tally (claims other) (Fix.renamedAt tree node name value) + (if name = other then 1 else 0) =
      tally (claims other) tree + if Name.affirmed name = other then 1 else 0 := by
  obtain ⟨bool, named, _⟩ := found.parts
  obtain ⟨declarator, first, _, _⟩ := literal?_parts literal
  have kind : node.tree.kind = .variableDeclaration := found.kind_eq
  have exchanged := Fix.tally_renamedAt (weight_claims other) found shape first literal
  have sound := found.sound shape
  have spare : (node.tree.spares.map (tally (claims other))).sum = 0 := by
    rw [List.sum_eq_zero_iff_forall_eq_nat, List.forall_mem_map]
    intro piece member
    have each : node.tree.spares.all (fun spare => spare.Plain) := by
      simpa [untidy, isTidy, kind, bool] using tidy
    exact tally_of_plain (weight_claims other) (by simpa using List.all_eq_true.mp each piece member)
  have own : claims other declarator = if name = other then 1 else 0 := by
    rw [declaredName?, first, Option.bind_some] at named
    simp [claims, introduced?, kind_of_find? first, named]
  have new : claims other (newDeclarator value (Name.affirmed name)) = if Name.affirmed name = other then 1 else 0 := by
    simp [claims, introduced?, newDeclarator, ownName?, spelling]
  have none (tree : Tree) (isDeclaration : tree.kind = .variableDeclaration) : claims other tree = 0 := by
    simp [claims, introduced?, isDeclaration]
  rw [spare, own, new, none _ kind, none _ (kind_renamed sound literal _ _)] at exchanged
  omega

theorem unclaimed_iff {name : String} {tree : Tree} : Unclaimed name tree ↔ tally (claims name) tree = 0 := by
  rw [tally_eq_zero]
  refine forall_congr' fun found => forall_congr' fun _ => ?_
  simp [claims]

structure Tidy (tree : Tree) : Prop where
  shape : tree.WellFormed
  neat : tally untidy tree = 0
  flat : ∀ path below, (tree.roleAt path).isDeclaration → (tree.roleAt (path ++ below)).isDefinition = false

theorem Tidy.untidy {tree found : Tree} {path : List Nat} (tidy : Tidy tree) (present : tree.get? path = some found) :
    found.untidy = 0 :=
  tally_eq_zero.mp tidy.neat found (mem_subtrees.mpr ⟨path, present⟩)

end Tree

namespace Fix
open TreeLint.Tree

variable {tree fixed : Tree} {node : Node} {name : String}

/-- In a tidy tree the fix goes through exactly if no other declaration introduces the name. -/
theorem exists_negatedName_ok (found : Negated tree node name) (tidy : Tidy tree) :
    (∃ fixed, negatedName tree node.span = .ok fixed) ↔
      startsName (Name.affirmed name) ∧ node.tree.literal?.isSome ∧ Tree.tally (claims name) tree ≤ 1 := by
  have other := affirmed_ne found.parts.2.2
  have counted {value : Tree} (literal : node.tree.literal? = some value) :
      Unclaimed name (renamedAt tree node name value) ↔ Tree.tally (claims name) tree ≤ 1 := by
    have change := claims_renamedAt found tidy.shape (tidy.untidy found.present) literal name
    rw [if_pos rfl, if_neg other] at change
    rw [unclaimed_iff]
    omega
  simp only [negatedName_eq_ok found tidy.shape, Option.isSome_iff_exists]
  constructor
  · intro ⟨_, starts, value, literal, unclaimed, _⟩
    exact ⟨starts, ⟨value, literal⟩, (counted literal).mp unclaimed⟩
  · intro ⟨starts, ⟨value, literal⟩, few⟩
    exact ⟨_, starts, value, literal, (counted literal).mpr few, rfl⟩

theorem claims_of_ok (found : Negated tree node name) (tidy : Tidy tree) (done : negatedName tree node.span = .ok fixed)
    (other : String) :
    Tree.tally (claims other) fixed + (if name = other then 1 else 0) =
      Tree.tally (claims other) tree + if Name.affirmed name = other then 1 else 0 := by
  obtain ⟨_, value, literal, unclaimed, rfl⟩ := (negatedName_eq_ok found tidy.shape).mp done
  rw [← claims_renamedAt found tidy.shape (tidy.untidy found.present) literal other,
    tally_negateUses (weight_claims other)]
  intro piece member
  rw [claims, introduced?_negateUses (unclaimed piece member), claims]

/-- The fix goes through only for a name that is introduced once, so it frees no name claimed twice. -/
theorem claimed_of_ok (found : Negated tree node name) (tidy : Tidy tree) (done : negatedName tree node.span = .ok fixed)
    {other : String} (often : 2 ≤ Tree.tally (claims other) tree) : 2 ≤ Tree.tally (claims other) fixed := by
  have change := claims_of_ok found tidy done other
  have few := ((exists_negatedName_ok found tidy).mp ⟨fixed, done⟩).2.2
  by_cases same : name = other
  · rw [← same] at often
    omega
  · rw [if_neg same] at change
    omega

theorem tidy_of_renamed (found : Negated tree node name) (tidy : Tidy tree)
    (done : negatedName tree node.span = .ok fixed) : Tidy fixed := by
  have effect := renamed_of_ok found tidy.shape done
  obtain ⟨_, value, literal, unclaimed, rfl⟩ := (negatedName_eq_ok found tidy.shape).mp done
  obtain ⟨declarator, first, _, _⟩ := literal?_parts literal
  have sound := found.sound tidy.shape
  refine ⟨effect.shape, ?_, ?_⟩
  · have exchanged := tally_renamedAt weight_untidy found tidy.shape first literal
    have plain : (newDeclarator value (Name.affirmed name)).untidy = 0 := rfl
    rw [untidy_renamed sound literal, plain, tidy.neat] at exchanged
    rw [tally_untidy_negateUses]
    omega
  · intro path below declared
    by_cases inside : node.path <+: path ++ below
    · obtain ⟨rest, split⟩ := inside
      rw [← split]
      apply effect.inside
      intro below
      exact tidy.flat node.path below (by rw [effect.before]; rfl)
    · have apart : ¬ node.path <+: path := fun up => inside (up.trans (List.prefix_append _ _))
      rw [effect.elsewhere path apart] at declared
      rw [effect.elsewhere _ inside]
      exact tidy.flat path below declared

theorem bracketed_of_tidy {receiver : Receiver} (found : Unconverted tree node receiver) (tidy : Tidy tree) :
    receiver.definition.tree.bracketed := by
  have kind : receiver.definition.tree.kind = .classDeclaration := found.definition_eq.2.2
  simpa [untidy, isTidy, kind] using tidy.untidy found.present

theorem tidy_of_converted {receiver : Receiver} (found : Unconverted tree node receiver) (tidy : Tidy tree)
    (done : missingToString tree node.span = .ok fixed) : Tidy fixed := by
  have effect := converted_of_ok found tidy.shape done
  obtain ⟨body, close, isBody, shut, rfl⟩ := (missingToString_eq_ok found tidy.shape).mp done
  have kind : receiver.definition.tree.kind = .classDeclaration := found.definition_eq.2.2
  have sound := found.sound tidy.shape
  have place := slot_of_closingBrace? isBody shut
  have ends := bracketed_of_tidy found tidy
  have same := effect.elsewhere ends
  refine ⟨effect.shape, ?_, ?_⟩
  · have exchanged := tally_converted weight_untidy sound kind place found.present
    have fresh := wellFormed_extended place sound (neutral_listingMethod receiver.definition.fieldNames
      (Layout.choose receiver.definition.classMembers close)).1
    have new : (converted receiver.definition body close).untidy = 0 := by
      rw [converted, ← weight_untidy.sketched, sketch_withLeading fresh, weight_untidy.sketched, untidy, isTidy,
        kind_extended, kind]
      simp [bracketed_extended place ends]
    rw [new, tidy.neat] at exchanged
    omega
  · intro path below declared
    have apart : path ≠ receiver.definition.path := by
      rintro rfl
      rw [effect.after] at declared
      cases declared
    rw [same path apart] at declared
    have flat := tidy.flat path below declared
    by_cases here : path ++ below = receiver.definition.path
    · rw [here, effect.before] at flat
      cases flat
    · rwa [same _ here]

end Fix

end TreeLint
