import TreeLint.Fix.Edit
import TreeLint.Proofs.Bytes
import TreeLint.Proofs.Lookup
import TreeLint.Proofs.Trivia

/-! Edits as simultaneous substitution. They are carried out one by one, each looked up in a tree
that earlier ones have changed. What carries the proof is that a tree is changed behind all pending
edits only, so each of them still finds the node it was made for. -/

namespace TreeLint

namespace Node
open TreeLint.Tree

theorem span_nonempty_full {node : Node} (valid : node.Valid) (shape : node.root.WellFormed)
    (nonempty : node.span.start < node.span.stop) : node.tree.firstToken?.isSome := by
  cases bare : node.tree.firstToken? with
  | some first => rfl
  | none =>
    have sound : node.tree.WellFormed := shape.get? valid
    have empty : node.tree.width = 0 := by
      rw [width_eq_utf8ByteSize sound, text_of_no_token sound bare]
      rfl
    simp only [span] at nonempty
    omega

/-- A node starts no later than the nodes inside it. -/
theorem span_start_le {outer inner : Node} (shape : outer.root.WellFormed) (sameRoot : inner.root = outer.root)
    (outerValid : outer.Valid) (innerValid : inner.Valid) (up : outer.path <+: inner.path)
    (full : inner.tree.firstToken?.isSome) : outer.span.start ≤ inner.span.start := by
  obtain ⟨below, split⟩ := up
  have inside := innerValid.get?_below sameRoot outerValid split
  have trivia := leading_le_offsetAt (shape.get? outerValid) inside full
  simp only [span, offset]
  rw [← split, sameRoot, offsetAt_append outerValid]
  omega

/-- Nodes inside a node end no later than it. -/
theorem span_stop_le {outer inner : Node} (sameRoot : inner.root = outer.root) (outerValid : outer.Valid)
    (innerValid : inner.Valid) (up : outer.path <+: inner.path) : inner.span.stop ≤ outer.span.stop := by
  obtain ⟨below, split⟩ := up
  have inside := innerValid.get?_below sameRoot outerValid split
  have bound := offsetAt_add_width_le inside
  simp only [span, offset]
  rw [← split, sameRoot, offsetAt_append outerValid]
  omega

/-- Of two nodes with spans that follow each other, all of the first stands in front of the second. -/
theorem before_of_span_le (first second : Node) (shape : first.root.WellFormed) (sameRoot : second.root = first.root)
    (firstValid : first.Valid) (secondValid : second.Valid) (firstFull : first.span.start < first.span.stop)
    (secondFull : second.span.start < second.span.stop) (order : first.span.stop ≤ second.span.start) :
    Apart second.path first.path ∧ first.offset + first.tree.width ≤ second.offset := by
  have apart : Apart second.path first.path := by
    refine ⟨?_, ?_⟩
    · intro up
      have start := span_start_le (sameRoot ▸ shape) sameRoot.symm secondValid firstValid up
        (span_nonempty_full firstValid shape firstFull)
      omega
    · intro up
      have stop := span_stop_le sameRoot firstValid secondValid up
      omega
  refine ⟨apart, ?_⟩
  have present : first.root.get? second.path = some second.tree := sameRoot ▸ secondValid
  have cases := disjoint_of_apart apart.symm firstValid present
  have firstStop : first.span.stop = first.offset + first.tree.width := rfl
  have secondStop : second.span.stop = second.offset + second.tree.width := rfl
  have secondOffset : second.offset = first.root.offsetAt second.path := by rw [offset, sameRoot]
  have firstOffset : first.offset = first.root.offsetAt first.path := rfl
  have firstStart : first.offset ≤ first.span.start := Nat.le_add_right _ _
  omega

end Node

namespace Tree

/-- A replacement behind a node leaves the lookup of that node as it was. -/
theorem Covers.replaceAt {root found : Tree} {kind : Kind} {span : Span} {node : Node} {path : List Nat}
    (covers : Covers root kind span node) (present : root.get? path = some found)
    (apart : Apart path node.path) (before : node.offset + node.tree.width ≤ root.offsetAt path)
    (replacement : Tree) :
    Covers (root.replaceAt path replacement) kind span
      ⟨root.replaceAt path replacement, node.path, node.tree⟩ := by
  have known : root.get? node.path = some node.tree := covers.root_eq ▸ covers.valid
  have wide : 0 < node.tree.width := by
    have stop : span.stop = node.offset + node.tree.width := by rw [← covers.span_eq]; rfl
    have start : node.offset ≤ span.start := by rw [← covers.span_eq]; exact Nat.le_add_right _ _
    have nonempty := covers.nonempty
    omega
  have offset : node.offset = root.offsetAt node.path := by rw [Node.offset, covers.root_eq]
  have kept := offsetAt_replaceAt apart present known (by omega) wide replacement
  have same : Node.span ⟨root.replaceAt path replacement, node.path, node.tree⟩ = span := by
    rw [← covers.span_eq]
    simp only [Node.span, Node.offset, kept, covers.root_eq]
  have valid : Node.Valid ⟨root.replaceAt path replacement, node.path, node.tree⟩ := by
    simp only [Node.Valid]
    rw [get?_replaceAt_apart apart, known]
  refine ⟨rfl, valid, covers.kind_eq, same, covers.nonempty, ?_⟩
  intro other otherRoot otherValid otherKind otherSpan
  by_cases up : other.path <+: node.path
  · exact up
  · by_cases down : node.path <+: other.path
    · -- Inside the node nothing has changed.
      obtain ⟨below, split⟩ := down
      have whole : (root.replaceAt path replacement).get? (node.path ++ below) = some other.tree := by
        rw [split, ← otherRoot]
        exact otherValid
      have inside : node.tree.get? below = some other.tree := by
        rw [get?_append, get?_replaceAt_apart apart, known] at whole
        exact whole
      have oldValid : root.get? other.path = some other.tree := by
        rw [← split, get?_append, known]
        exact inside
      have oldSpan : Node.span ⟨root, other.path, other.tree⟩ = span := by
        rw [← otherSpan]
        simp only [Node.span, Node.offset]
        rw [otherRoot, ← split, offsetAt_append valid, offsetAt_append known, kept]
      exact covers.innermost ⟨root, other.path, other.tree⟩ rfl oldValid otherKind oldSpan
    · have present : (root.replaceAt path replacement).get? other.path = some other.tree := otherRoot ▸ otherValid
      have gap := disjoint_of_apart ⟨down, up⟩ valid present
      have nonempty := covers.nonempty
      dsimp only at gap
      simp only [← otherSpan, Node.span, Node.offset, otherRoot, Span.mk.injEq] at same nonempty
      omega

end Tree

namespace Edit
open TreeLint.Tree

def insertedAt (edits : List Edit) (position : Nat) : List UInt8 :=
  match edits.find? fun edit => edit.span.start = position with
  | some edit => Text.bytes edit.replacement.trimmed
  | none => []

def removes (edits : List Edit) (position : Nat) : Bool :=
  edits.any fun edit => edit.span.contains position

/-- Bytes, the first of which stands at `position`, with all edits made at once: new text goes in
where a span starts, bytes inside a span go out, and all others stay. -/
def splice (edits : List Edit) (position : Nat) : List UInt8 → List UInt8
  | [] => []
  | byte :: rest =>
    insertedAt edits position ++ (if removes edits position then [] else [byte]) ++
      splice edits (position + 1) rest

private theorem splice_append (edits : List Edit) (position : Nat) (first second : List UInt8) :
    splice edits position (first ++ second) =
      splice edits position first ++ splice edits (position + first.length) second := by
  induction first generalizing position with
  | nil => simp [splice]
  | cons byte rest ih =>
    simp only [List.cons_append, splice, ih, List.append_assoc, List.length_cons]
    congr 4
    omega

private theorem insertedAt_of_ne {edits : List Edit} {position : Nat}
    (elsewhere : ∀ edit ∈ edits, edit.span.start ≠ position) : insertedAt edits position = [] := by
  have missing : edits.find? (fun edit => edit.span.start = position) = none := by
    simpa using elsewhere
  rw [insertedAt, missing]

private theorem removes_of_ne {edits : List Edit} {position : Nat}
    (outside : ∀ edit ∈ edits, edit.span.contains position = false) : removes edits position = false := by
  simpa [removes] using outside

/-- Behind all edits nothing changes. -/
private theorem splice_behind {edits : List Edit} {position : Nat} (bytes : List UInt8)
    (done : ∀ edit ∈ edits, edit.span.start < edit.span.stop ∧ edit.span.stop ≤ position) :
    splice edits position bytes = bytes := by
  induction bytes generalizing position with
  | nil => rfl
  | cons byte rest ih =>
    have insert : insertedAt edits position = [] := by
      apply insertedAt_of_ne
      intro edit member
      have bounds := done edit member
      omega
    have keep : removes edits position = false := by
      apply removes_of_ne
      intro edit member
      have bounds := done edit member
      simp only [Span.contains, Bool.and_eq_false_imp, decide_eq_true_eq, decide_eq_false_iff_not]
      omega
    rw [splice, insert, keep, ih (fun edit member => by have bounds := done edit member; omega)]
    rfl

/-- In front of an edit it does not matter. -/
private theorem splice_before {edit : Edit} (edits : List Edit) {position : Nat} {bytes : List UInt8}
    (ahead : position + bytes.length ≤ edit.span.start) :
    splice (edit :: edits) position bytes = splice edits position bytes := by
  induction bytes generalizing position with
  | nil => rfl
  | cons byte rest ih =>
    rw [List.length_cons] at ahead
    have insert : insertedAt (edit :: edits) position = insertedAt edits position := by
      rw [insertedAt, List.find?_cons_of_neg (by simp; omega)]
      rfl
    have keep : removes (edit :: edits) position = removes edits position := by
      have outside : edit.span.contains position = false := by
        simp only [Span.contains, Bool.and_eq_false_imp, decide_eq_true_eq]
        omega
      simp [removes, outside]
    rw [splice, splice, insert, keep, ih (by omega)]

/-- Inside a span behind its first byte nothing is left. -/
private theorem splice_inside {edit : Edit} {edits : List Edit} {position : Nat} {bytes : List UInt8}
    (after : edit.span.start < position) (within : position + bytes.length ≤ edit.span.stop)
    (done : ∀ other ∈ edits, other.span.stop ≤ edit.span.start ∧ other.span.start < other.span.stop) :
    splice (edit :: edits) position bytes = [] := by
  induction bytes generalizing position with
  | nil => rfl
  | cons byte rest ih =>
    rw [List.length_cons] at within
    have insert : insertedAt (edit :: edits) position = [] := by
      apply insertedAt_of_ne
      intro other member
      rcases List.mem_cons.mp member with rfl | later
      · omega
      · have bounds := done other later
        omega
    have drop : removes (edit :: edits) position = true := by
      simp only [removes, List.any_cons, Bool.or_eq_true]
      left
      simp only [Span.contains, Bool.and_eq_true, decide_eq_true_eq]
      omega
    rw [splice, insert, drop, ih (by omega) (by omega)]
    rfl

/-- The last edit of a text can be made first. -/
private theorem splice_cons {edit : Edit} {edits : List Edit} {front middle back : List UInt8}
    (start : front.length = edit.span.start) (stop : front.length + middle.length = edit.span.stop)
    (nonempty : edit.span.start < edit.span.stop)
    (done : ∀ other ∈ edits, other.span.stop ≤ edit.span.start ∧ other.span.start < other.span.stop) :
    splice (edit :: edits) 0 (front ++ middle ++ back) =
      splice edits 0 (front ++ Text.bytes edit.replacement.trimmed ++ back) := by
  have behind (position : Nat) (bytes : List UInt8) (reached : edit.span.start ≤ position) :
      splice edits position bytes = bytes := by
    apply splice_behind
    intro other member
    have bounds := done other member
    omega
  have covered : splice (edit :: edits) front.length middle = Text.bytes edit.replacement.trimmed := by
    cases middle with
    | nil => simp only [List.length_nil] at stop; omega
    | cons byte rest =>
      have insert : insertedAt (edit :: edits) front.length = Text.bytes edit.replacement.trimmed := by
        rw [insertedAt, List.find?_cons_of_pos (by simp [start])]
      have drop : removes (edit :: edits) front.length = true := by
        simp only [removes, List.any_cons, Bool.or_eq_true]
        left
        simp only [Span.contains, Bool.and_eq_true, decide_eq_true_eq]
        omega
      rw [List.length_cons] at stop
      rw [splice, insert, drop, splice_inside (by omega) (by omega) done]
      simp
  have rest : splice (edit :: edits) (front.length + middle.length) back = back := by
    apply splice_behind
    intro other member
    rcases List.mem_cons.mp member with rfl | later
    · omega
    · have bounds := done other later
      omega
  rw [splice_append, splice_append, splice_append, splice_append, splice_before edits (by omega)]
  simp only [Nat.zero_add, List.length_append]
  rw [covered, rest, behind front.length _ (by omega), behind (front.length + _) back (by omega)]

/-- Each edit has a node to replace, and no two edits overlap. -/
structure Acceptable (tree : Tree) (edits : List Edit) : Prop where
  found : ∀ edit ∈ edits, ∃ target, Covers tree edit.kind edit.span target
  disjoint : edits.Pairwise fun first second => first.overlaps second = false

private theorem forall_zipIdx {edits : List Edit} {property : Edit → Prop} :
    (∀ numbered ∈ edits.zipIdx, property numbered.1) ↔ ∀ edit ∈ edits, property edit := by
  constructor
  · intro each edit member
    rw [← List.zipIdx_map_fst 0 edits] at member
    obtain ⟨numbered, present, rfl⟩ := List.mem_map.mp member
    exact each numbered present
  · intro each numbered member
    apply each
    rw [← List.zipIdx_map_fst 0 edits]
    exact List.mem_map.mpr ⟨numbered, member, rfl⟩

private theorem overlapping?_eq_none (numbered : List (Edit × Nat)) :
    overlapping? numbered = none ↔
      (numbered.map Prod.fst).Pairwise fun first second => first.overlaps second = false := by
  induction numbered with
  | nil => simp [overlapping?]
  | cons head rest ih =>
    obtain ⟨edit, index⟩ := head
    rw [overlapping?, List.map_cons, List.pairwise_cons, ← ih]
    cases search : rest.find? fun other => edit.overlaps other.1 with
    | none =>
      have clear : ∀ other ∈ rest.map Prod.fst, edit.overlaps other = false := by simpa using search
      exact ⟨fun later => ⟨clear, later⟩, fun both => both.2⟩
    | some other =>
      have overlap := List.find?_some search
      have member := List.mem_of_find?_eq_some search
      simp only [reduceCtorEq, List.mem_map, false_iff, not_and]
      intro each
      rw [each other.1 ⟨other, member, rfl⟩] at overlap
      cases overlap

private theorem stop_le_width {tree : Tree} {kind : Kind} {span : Span} {target : Node}
    (covers : Covers tree kind span target) : span.stop ≤ tree.width := by
  have bound := offsetAt_add_width_le covers.valid
  rw [← covers.span_eq]
  simpa [Node.span, Node.offset, covers.root_eq] using bound

/-- Nothing is wrong with a list of edits exactly when it is acceptable. -/
theorem objection?_eq_none (tree : Tree) (edits : List Edit) :
    objection? tree edits = none ↔ Acceptable tree edits := by
  have covered (edit : Edit) : (∃ target, Covers tree edit.kind edit.span target) ↔
      ∃ target, tree.covering edit.kind edit.span = .ok target := by
    simp only [covering_eq_ok_iff]
  have targets : noTarget? tree edits.zipIdx = none ↔
      ∀ edit ∈ edits, ∃ target, Covers tree edit.kind edit.span target := by
    rw [noTarget?, List.findSome?_eq_none_iff, ← forall_zipIdx]
    refine forall_congr' fun numbered => forall_congr' fun member => ?_
    obtain ⟨edit, index⟩ := numbered
    rw [covered]
    cases search : tree.covering edit.kind edit.span <;> simp [search]
  have overlaps := overlapping?_eq_none edits.zipIdx
  rw [List.zipIdx_map_fst] at overlaps
  simp only [objection?, Option.or_eq_none_iff, targets, overlaps]
  constructor
  · intro ⟨_, disjoint, found⟩
    exact ⟨found, disjoint⟩
  · intro acceptable
    refine ⟨?_, acceptable.disjoint, acceptable.found⟩
    rw [outOfBounds?, List.findSome?_eq_none_iff]
    intro ⟨edit, index⟩ member
    obtain ⟨target, covers⟩ := acceptable.found edit (forall_zipIdx.mpr (fun _ present => present) _ member)
    have bound := stop_le_width covers
    simp only [ite_eq_right_iff, reduceCtorEq, imp_false]
    omega

theorem Acceptable.nonempty {tree : Tree} {edits : List Edit} (acceptable : Acceptable tree edits) {edit : Edit}
    (member : edit ∈ edits) : edit.span.start < edit.span.stop := by
  obtain ⟨target, covers⟩ := acceptable.found edit member
  exact covers.nonempty

theorem Acceptable.perm {tree : Tree} {edits order : List Edit} (acceptable : Acceptable tree edits)
    (same : order.Perm edits) : Acceptable tree order := by
  refine ⟨fun edit member => acceptable.found edit (same.subset member), ?_⟩
  apply acceptable.disjoint.perm same.symm
  intro first second apart
  simpa [overlaps, Span.overlaps, Bool.and_comm] using apart

def ordered (edits : List Edit) : List Edit :=
  edits.mergeSort fun first second => second.span.start ≤ first.span.start

theorem ordered_perm (edits : List Edit) : (ordered edits).Perm edits :=
  List.mergeSort_perm edits _

theorem map_backToFront (edits : List Edit) : (backToFront edits).map Prod.fst = ordered edits := by
  have sorted : (backToFront edits).map Prod.fst =
      (edits.zipIdx.map Prod.fst).mergeSort fun first second => second.span.start ≤ first.span.start :=
    List.map_mergeSort (fun _ _ _ _ => rfl)
  rw [sorted, List.zipIdx_map_fst, ordered]

/-- In order, each edit ends before the one carried out before it starts. -/
theorem Acceptable.pairwise_ordered {tree : Tree} {edits : List Edit} (acceptable : Acceptable tree edits) :
    (ordered edits).Pairwise fun first second => second.span.stop ≤ first.span.start := by
  have sorted : (ordered edits).Pairwise fun first second => second.span.start ≤ first.span.start := by
    have steps : (ordered edits).Pairwise fun first second => decide (second.span.start ≤ first.span.start) = true :=
      List.pairwise_mergeSort
        (by intro a b c; simp only [decide_eq_true_eq]; omega)
        (by intro a b; simp only [Bool.or_eq_true, decide_eq_true_eq]; omega) edits
    simpa using steps
  have accepted := acceptable.perm (ordered_perm edits)
  refine (sorted.and accepted.disjoint).imp_of_mem ?_
  intro first second firstMember secondMember both
  have firstFull := accepted.nonempty firstMember
  have secondFull := accepted.nonempty secondMember
  simp only [overlaps, Span.overlaps, Bool.and_eq_false_imp, decide_eq_true_eq,
    decide_eq_false_iff_not] at both
  omega

def place (tree : Tree) (edit : Edit) : List Nat × Tree :=
  match tree.covering edit.kind edit.span with
  | .ok target => (target.path, target.tree)
  | .error _ => ([], tree)

theorem place_eq {tree : Tree} {edit : Edit} {target : Node} (covers : Covers tree edit.kind edit.span target) :
    place tree edit = (target.path, target.tree) := by
  rw [place, covering_eq_ok_iff.mpr covers]

def substitute (places : Edit → List Nat × Tree) (tree : Tree) (edit : Edit) : Tree :=
  tree.replaceAt (places edit).1 (edit.replacement.withLeading (places edit).2.leading)

/-- The state in front of the pending edits: each still finds its own place, and those that come
first stand behind the others. -/
structure Ready (places : Edit → List Nat × Tree) (tree : Tree) (edits : List Edit) : Prop where
  shape : tree.WellFormed
  found : ∀ edit ∈ edits, Covers tree edit.kind edit.span ⟨tree, (places edit).1, (places edit).2⟩
  order : edits.Pairwise fun first second => second.span.stop ≤ first.span.start
  fresh : ∀ edit ∈ edits, edit.replacement.WellFormed

theorem Acceptable.ready {tree : Tree} {edits : List Edit} (acceptable : Acceptable tree edits)
    (shape : tree.WellFormed) (fresh : ∀ edit ∈ edits, edit.replacement.WellFormed) :
    Ready (place tree) tree (ordered edits) := by
  have member {edit : Edit} (present : edit ∈ ordered edits) : edit ∈ edits :=
    (ordered_perm edits).subset present
  refine ⟨shape, ?_, acceptable.pairwise_ordered, fun edit present => fresh edit (member present)⟩
  intro edit present
  obtain ⟨target, covers⟩ := acceptable.found edit (member present)
  rw [place_eq covers]
  obtain ⟨root, path, tree⟩ := target
  cases covers.root_eq
  exact covers

variable {places : Edit → List Nat × Tree} {tree : Tree} {edit : Edit} {edits : List Edit}

theorem Ready.carryOut (ready : Ready places tree (edit :: edits)) (index : Nat) :
    carryOut tree (edit, index) = .ok (substitute places tree edit) := by
  rw [Edit.carryOut, covering_eq_ok_iff.mpr (ready.found edit (by simp))]
  rfl

/-- Carrying out one edit leaves all others ready. -/
theorem Ready.step (ready : Ready places tree (edit :: edits)) :
    Ready places (substitute places tree edit) edits := by
  obtain ⟨behind, order⟩ := List.pairwise_cons.mp ready.order
  have here := ready.found edit (by simp)
  refine ⟨?_, ?_, order, fun other member => ready.fresh other (by simp [member])⟩
  · exact ready.shape.replaceAt here.valid ((ready.fresh edit (by simp)).withLeading _)
  · intro other member
    have there := ready.found other (by simp [member])
    -- What is still to be carried out stands in front, so it keeps its offset.
    obtain ⟨apart, before⟩ := Node.before_of_span_le ⟨tree, (places other).1, (places other).2⟩
      ⟨tree, (places edit).1, (places edit).2⟩ ready.shape rfl there.valid here.valid
      (by rw [there.span_eq]; exact there.nonempty) (by rw [here.span_eq]; exact here.nonempty)
      (by rw [there.span_eq, here.span_eq]; exact behind other member)
    exact there.replaceAt here.valid apart before _

theorem Ready.foldlM_carryOut {numbered : List (Edit × Nat)} {tree : Tree}
    (ready : Ready places tree (numbered.map Prod.fst)) :
    numbered.foldlM Edit.carryOut tree = .ok ((numbered.map Prod.fst).foldl (substitute places) tree) := by
  induction numbered generalizing tree with
  | nil => rfl
  | cons head rest ih =>
    obtain ⟨edit, index⟩ := head
    rw [List.map_cons] at ready
    rw [List.foldlM_cons, ready.carryOut index]
    exact ih ready.step

/-- Acceptable edits are carried out, each at the place it has in the tree before all of them. -/
theorem applyAll_eq_foldl {tree : Tree} {edits : List Edit} (acceptable : Acceptable tree edits)
    (shape : tree.WellFormed) (fresh : ∀ edit ∈ edits, edit.replacement.WellFormed) :
    applyAll tree edits = .ok ((ordered edits).foldl (substitute (place tree)) tree) := by
  have ready := acceptable.ready shape fresh
  rw [← map_backToFront] at ready
  rw [applyAll, (objection?_eq_none tree edits).mpr acceptable]
  simp only
  rw [ready.foldlM_carryOut, map_backToFront]

/-- A single edit of a node that its kind and span lead back to. -/
theorem applyAll_replacing {tree replacement : Tree} {target : Node} (shape : tree.WellFormed)
    (covers : Covers tree target.kind target.span target) (fresh : replacement.WellFormed) :
    applyAll tree [.replacing target replacement] =
      .ok (tree.replaceAt target.path (replacement.withLeading target.tree.leading)) := by
  have acceptable : Acceptable tree [.replacing target replacement] := by
    refine ⟨?_, List.pairwise_singleton _ _⟩
    intro edit member
    rw [List.mem_singleton] at member
    exact ⟨target, member ▸ covers⟩
  have alone : ordered [.replacing target replacement] = [.replacing target replacement] :=
    List.mergeSort_singleton _
  rw [applyAll_eq_foldl acceptable shape (by simpa [replacing] using fresh), alone, List.foldl_cons, List.foldl_nil,
    substitute, place_eq covers]
  rfl

private theorem bytes_substitute (ready : Ready places tree (edit :: edits))
    (full : edit.replacement.firstToken?.isSome) :
    ∃ front middle back, Text.bytes tree.text = front ++ middle ++ back ∧ front.length = edit.span.start ∧
      front.length + middle.length = edit.span.stop ∧
      Text.bytes (substitute places tree edit).text =
        front ++ Text.bytes edit.replacement.trimmed ++ back := by
  have here := ready.found edit (by simp)
  have sound : (places edit).2.WellFormed := ready.shape.get? here.valid
  obtain ⟨before, after, start, whole, changed⟩ := text_split ready.shape here.valid
  refine ⟨Text.bytes (before ++ (places edit).2.leading), Text.bytes (places edit).2.trimmed, Text.bytes after, ?_⟩
  have span := here.span_eq
  simp only [Node.span, Node.offset] at span
  have size : (places edit).2.width =
      (places edit).2.leading.utf8ByteSize + (places edit).2.trimmed.utf8ByteSize := by
    rw [width_eq_utf8ByteSize sound, text_eq_leading_append sound, String.utf8ByteSize_append]
  refine ⟨?_, ?_, ?_, ?_⟩
  · rw [whole, text_eq_leading_append sound]
    simp
  · rw [Text.length_bytes, String.utf8ByteSize_append, start, ← span]
  · rw [Text.length_bytes, Text.length_bytes, String.utf8ByteSize_append, start, ← span]
    simp only
    omega
  · rw [substitute, changed, text_withLeading (ready.fresh edit (by simp)) full]
    simp

theorem Ready.bytes_foldl {tree : Tree} {edits : List Edit} (ready : Ready places tree edits)
    (full : ∀ edit ∈ edits, edit.replacement.firstToken?.isSome) :
    Text.bytes (edits.foldl (substitute places) tree).text = splice edits 0 (Text.bytes tree.text) := by
  induction edits generalizing tree with
  | nil => exact (splice_behind _ (by simp)).symm
  | cons edit rest ih =>
    obtain ⟨front, middle, back, whole, start, stop, changed⟩ := bytes_substitute ready (full edit (by simp))
    have done : ∀ other ∈ rest, other.span.stop ≤ edit.span.start ∧ other.span.start < other.span.stop := by
      intro other member
      exact ⟨(List.pairwise_cons.mp ready.order).1 other member, (ready.found other (by simp [member])).nonempty⟩
    rw [List.foldl_cons, ih ready.step (fun other member => full other (by simp [member])), changed, whole,
      splice_cons start stop (ready.found edit (by simp)).nonempty done]

theorem Acceptable.eq_of_start {tree : Tree} {edits : List Edit} (acceptable : Acceptable tree edits)
    {first second : Edit} (one : first ∈ edits) (two : second ∈ edits)
    (same : first.span.start = second.span.start) : first = second := by
  have distinct : edits.Pairwise fun first second => first.span.start ≠ second.span.start := by
    refine acceptable.disjoint.imp_of_mem ?_
    intro first second firstMember secondMember apart equal
    have firstFull := acceptable.nonempty firstMember
    have secondFull := acceptable.nonempty secondMember
    simp only [overlaps, Span.overlaps, Bool.and_eq_false_imp, decide_eq_true_eq,
      decide_eq_false_iff_not] at apart
    omega
  have matching : ∀ ⦃first⦄, first ∈ edits → ∀ ⦃second⦄, second ∈ edits →
      first.span.start = second.span.start → first = second := by
    apply List.Pairwise.forall_of_forall_of_flip
    · intro edit _ _
      rfl
    · exact distinct.imp (fun different equal => absurd equal different)
    · exact distinct.imp (fun different equal => absurd equal.symm different)
  exact matching one two same

theorem ordered_eq_of_perm {tree : Tree} {edits order : List Edit} (acceptable : Acceptable tree edits)
    (same : order.Perm edits) : ordered order = ordered edits := by
  have both : (ordered order).Perm (ordered edits) :=
    (ordered_perm order).trans (same.trans (ordered_perm edits).symm)
  apply List.Perm.eq_of_pairwise _ (acceptable.perm same).pairwise_ordered acceptable.pairwise_ordered both
  intro first second firstMember secondMember before after
  have firstFull := (acceptable.perm same).nonempty ((ordered_perm order).subset firstMember)
  have secondFull := acceptable.nonempty ((ordered_perm edits).subset secondMember)
  omega

private theorem find?_start_eq_of_perm {tree : Tree} {edits order : List Edit} (acceptable : Acceptable tree edits)
    (same : order.Perm edits) (position : Nat) :
    order.find? (fun edit => edit.span.start = position) = edits.find? fun edit => edit.span.start = position := by
  cases search : edits.find? fun edit => edit.span.start = position with
  | none =>
    rw [List.find?_eq_none] at search ⊢
    exact fun edit member => search edit (same.subset member)
  | some found =>
    have here := List.find?_some search
    have member := List.mem_of_find?_eq_some search
    obtain ⟨other, known⟩ : ∃ other, order.find? (fun edit => edit.span.start = position) = some other :=
      Option.isSome_iff_exists.mp (List.find?_isSome.mpr ⟨found, same.symm.subset member, here⟩)
    have there := List.find?_some known
    simp only [decide_eq_true_eq] at here there
    rw [known, acceptable.eq_of_start (same.subset (List.mem_of_find?_eq_some known)) member (there.trans here.symm)]

theorem splice_eq_of_perm {tree : Tree} {edits order : List Edit} (acceptable : Acceptable tree edits)
    (same : order.Perm edits) (position : Nat) (bytes : List UInt8) :
    splice order position bytes = splice edits position bytes := by
  induction bytes generalizing position with
  | nil => rfl
  | cons byte rest ih =>
    have insert : insertedAt order position = insertedAt edits position := by
      rw [insertedAt, insertedAt, find?_start_eq_of_perm acceptable same]
    have remove : removes order position = removes edits position := by
      rw [removes, removes, Bool.eq_iff_iff, List.any_eq_true, List.any_eq_true]
      exact ⟨fun ⟨edit, member, inside⟩ => ⟨edit, same.subset member, inside⟩,
        fun ⟨edit, member, inside⟩ => ⟨edit, same.symm.subset member, inside⟩⟩
    rw [splice, splice, insert, remove, ih]

/-- A list of edits to which there is no objection is carried out, makes all its changes to the text
at once, and does so in any order; any objection is passed on. -/
theorem applyAll_simultaneous {tree : Tree} {edits : List Edit} (shape : tree.WellFormed)
    (fresh : ∀ edit ∈ edits, edit.replacement.WellFormed ∧ edit.replacement.firstToken?.isSome) :
    (objection? tree edits = none →
      ∃ result, applyAll tree edits = .ok result ∧
        Text.bytes result.text = splice edits 0 (Text.bytes tree.text) ∧
        ∀ order : List Edit, order.Perm edits → applyAll tree order = .ok result) ∧
    ∀ objection, objection? tree edits = some objection → applyAll tree edits = .error objection := by
  refine ⟨?_, ?_⟩
  · intro clear
    have acceptable := (objection?_eq_none tree edits).mp clear
    have sound : ∀ edit ∈ edits, edit.replacement.WellFormed := fun edit member => (fresh edit member).1
    refine ⟨_, applyAll_eq_foldl acceptable shape sound, ?_, ?_⟩
    · have ready := acceptable.ready shape sound
      rw [ready.bytes_foldl fun edit member => (fresh edit ((ordered_perm edits).subset member)).2]
      exact splice_eq_of_perm acceptable (ordered_perm edits) 0 _
    · intro order same
      rw [applyAll_eq_foldl (acceptable.perm same) shape fun edit member => sound edit (same.subset member),
        ordered_eq_of_perm acceptable same]
  · intro objection found
    rw [applyAll, found]

def assignment : Tree :=
  .node .compilationUnit
    [.node .expressionStatement
      [.token .identifier "" "a", .token .punctuation " " "=", .token .identifier " " "b"],
     .token .endOfFile "\n" ""]

def exchange : List Edit :=
  [⟨.identifier, ⟨0, 1⟩, .token .identifier "  " "bb"⟩,
   ⟨.identifier, ⟨4, 5⟩, .node .prefixUnary [.token .punctuation "" "!", .token .identifier "" "a"]⟩]

theorem applyAll_simultaneous_exchange :
    assignment.WellFormed ∧ objection? assignment exchange = none ∧
      ∃ result, applyAll assignment exchange = .ok result ∧ applyAll assignment exchange.reverse = .ok result ∧
        Text.bytes result.text = Text.bytes "bb = !a\n" := by
  have shape : assignment.WellFormed := by
    simp [assignment, WellFormed, AllWellFormed, Kind.isToken]
  have fresh : ∀ edit ∈ exchange, edit.replacement.WellFormed ∧ edit.replacement.firstToken?.isSome := by
    simp [exchange, WellFormed, AllWellFormed, Kind.isToken, firstToken?, firstTokenOf?]
  have clear : objection? assignment exchange = none := by decide +kernel
  obtain ⟨result, done, bytes, any⟩ := (applyAll_simultaneous shape fresh).1 clear
  refine ⟨shape, clear, result, done, any _ (List.reverse_perm exchange), ?_⟩
  rw [bytes]
  decide +kernel

end Edit

end TreeLint
