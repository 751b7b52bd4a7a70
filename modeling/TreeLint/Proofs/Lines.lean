import Mathlib.Data.List.Infix
import TreeLint.Analysis.Source
import TreeLint.Proofs.Bytes
import TreeLint.Proofs.Splitting

/-! The line of a position. A position cuts a text in two, and its line is what stands around the cut up to the
next line feeds. The rules are silent at a position exactly if a suppression comment stands in that line. -/

namespace TreeLint

namespace Text

def firstLine (chars : List Char) : List Char :=
  chars.takeWhile (· ≠ '\n')

def lastLine (chars : List Char) : List Char :=
  (chars.reverse.takeWhile (· ≠ '\n')).reverse

/-- The line in which a text is cut. -/
def lineAround (before after : List Char) : List Char :=
  lastLine before ++ firstLine after

theorem firstLine_of_mem {first : List Char} (broken : '\n' ∈ first) (second : List Char) :
    firstLine (first ++ second) = firstLine first := by
  induction first with
  | nil => cases broken
  | cons char rest ih =>
    rw [firstLine, firstLine, List.cons_append, List.takeWhile_cons, List.takeWhile_cons]
    split
    next other =>
      have later : '\n' ∈ rest := by
        rcases List.mem_cons.mp broken with rfl | later
        · simp at other
        · exact later
      exact congrArg (char :: ·) (ih later)
    next => rfl

theorem firstLine_of_not_mem {first : List Char} (whole : '\n' ∉ first) (second : List Char) :
    firstLine (first ++ second) = first ++ firstLine second := by
  apply List.takeWhile_append_of_pos
  intro char member
  exact decide_eq_true fun same => whole (same ▸ member)

theorem lastLine_of_mem {second : List Char} (broken : '\n' ∈ second) (first : List Char) :
    lastLine (first ++ second) = lastLine second := by
  rw [lastLine, List.reverse_append]
  exact congrArg List.reverse (firstLine_of_mem (List.mem_reverse.mpr broken) first.reverse)

theorem lastLine_of_not_mem {second : List Char} (whole : '\n' ∉ second) (first : List Char) :
    lastLine (first ++ second) = lastLine first ++ second := by
  rw [lastLine, List.reverse_append]
  have split := firstLine_of_not_mem (fun member => whole (List.mem_reverse.mp member)) first.reverse
  rw [firstLine] at split
  rw [split, List.reverse_append, List.reverse_reverse]
  rfl

private theorem getElem?_zero_splitItems (chars : List Char) : (splitItems '\n' chars)[0]? = some (firstLine chars) := by
  induction chars with
  | nil => rfl
  | cons char rest ih =>
    by_cases feed : char = '\n'
    · simp [splitItems, firstLine, feed]
    · obtain ⟨piece, others, pieces, here⟩ := splitItems_cons_of_ne feed rest
      rw [pieces] at ih
      obtain rfl : piece = firstLine rest := by simpa using ih
      simp [here, firstLine, feed]

/-- The line around a cut has as many lines before it as there are line feeds. -/
theorem getElem?_splitItems (before after : List Char) :
    (splitItems '\n' (before ++ after))[before.count '\n']? = some (lineAround before after) := by
  induction before with
  | nil => exact getElem?_zero_splitItems after
  | cons char rest ih =>
    rw [List.cons_append]
    by_cases feed : char = '\n'
    · subst feed
      rw [splitItems, if_pos rfl, List.count_cons_self, List.getElem?_cons_succ, ih, lineAround, lineAround,
        show '\n' :: rest = ['\n'] ++ rest from rfl]
      by_cases broken : '\n' ∈ rest
      · rw [lastLine_of_mem broken]
      · rw [lastLine_of_not_mem broken]
        conv => lhs; rw [← List.nil_append rest, lastLine_of_not_mem broken]
        rfl
    · obtain ⟨piece, others, pieces, here⟩ := splitItems_cons_of_ne feed (rest ++ after)
      rw [pieces] at ih
      rw [here, List.count_cons_of_ne feed]
      rw [lineAround, show char :: rest = [char] ++ rest from rfl]
      by_cases broken : '\n' ∈ rest
      · obtain ⟨count, more⟩ := Nat.exists_eq_succ_of_ne_zero (Nat.ne_of_gt (List.count_pos_iff.mpr broken))
        rw [more, List.getElem?_cons_succ] at ih ⊢
        rw [ih, lastLine_of_mem broken, lineAround]
      · rw [List.count_eq_zero_of_not_mem broken, List.getElem?_cons_zero] at ih ⊢
        have single : lastLine [char] = [char] := by simp [lastLine, feed]
        have alone : lastLine rest = rest := by
          conv => lhs; rw [← List.nil_append rest, lastLine_of_not_mem broken]
          rfl
        rw [lastLine_of_not_mem broken, single, Option.some.inj ih, lineAround, alone]
        rfl

end Text

namespace LineIndex
open TreeLint.Text

theorem lt_of_mem_startsAfter {offset start : Nat} {chars : List Char} (member : start ∈ startsAfter offset chars) :
    offset < start := by
  induction chars generalizing offset with
  | nil => cases member
  | cons char rest ih =>
    rw [startsAfter] at member
    split at member
    · rcases List.mem_cons.mp member with rfl | later
      · omega
      · have behind := ih later
        omega
    · have behind := ih member
      omega

private theorem countP_startsAfter (offset : Nat) (before after : List Char) :
    ((startsAfter offset (before ++ after)).countP fun start => start ≤ offset + (String.ofList before).utf8ByteSize) =
      before.count '\n' := by
  induction before generalizing offset with
  | nil =>
    rw [List.nil_append, List.count_nil, List.countP_eq_zero]
    intro start member
    have behind := lt_of_mem_startsAfter member
    simpa using behind
  | cons char rest ih =>
    rw [List.cons_append, startsAfter, size_ofList_cons]
    by_cases feed : char = '\n'
    · subst feed
      have size : '\n'.utf8Size = 1 := rfl
      rw [if_pos rfl, List.count_cons_self, size, ← Nat.add_assoc, List.countP_cons, ih]
      simp
    · rw [if_neg feed, List.count_cons_of_ne feed, ← Nat.add_assoc, ih]

theorem line_of_cut (before after : String) :
    (ofText (before ++ after)).line before.utf8ByteSize = before.toList.count '\n' + 1 := by
  have counted := countP_startsAfter 0 before.toList after.toList
  rw [Nat.zero_add, String.ofList_toList] at counted
  rw [line, ofText, String.toList_append, List.countP_cons, counted]
  simp

end LineIndex

namespace Text

theorem occursIn_iff {pattern chars : List Char} : occursIn pattern chars = true ↔ pattern <:+: chars := by
  induction chars with
  | nil => rw [occursIn, List.isEmpty_iff, List.infix_nil]
  | cons char rest ih => rw [occursIn, Bool.or_eq_true, List.isPrefixOf_iff_prefix, ih, List.infix_cons_iff]

def Silenced (line : List Char) : Prop :=
  ∃ comment ∈ suppressions, comment.toList <:+: line

theorem isSuppressed_iff (line : List Char) : isSuppressed (String.ofList line) ↔ Silenced line := by
  simp only [isSuppressed, List.any_eq_true, contains, String.toList_ofList, occursIn_iff, Silenced]

/-- What stands in two texts one after the other stands in one of them or across the cut. -/
theorem infix_append_cases {α : Type} {pattern first second : List α} (occurs : pattern <:+: first ++ second) :
    pattern <:+: first ∨ pattern <:+: second ∨
      ∃ left right, pattern = left ++ right ∧ right ≠ [] ∧ right <+: second := by
  obtain ⟨front, back, split⟩ := occurs
  rw [List.append_assoc] at split
  rcases List.append_eq_append_iff.mp split with ⟨middle, early, late⟩ | ⟨middle, early, late⟩
  · rcases List.append_eq_append_iff.mp late with ⟨more, here, _⟩ | ⟨more, here, there⟩
    · exact .inl ⟨front, more, by rw [early, here, List.append_assoc]⟩
    · by_cases none : more = []
      · exact .inl ⟨front, [], by rw [early, here, none]; simp⟩
      · exact .inr (.inr ⟨middle, more, here, none, back, there.symm⟩)
  · exact .inr (.inl ⟨middle, back, by rw [late, List.append_assoc]⟩)

private theorem comment_shape {comment : String} (member : comment ∈ suppressions) :
    comment.toList.getLast? = some 'e' ∧ '\x7d' ∉ comment.toList ∧ comment.toList ≠ [] := by
  simp only [suppressions, List.mem_cons, List.not_mem_nil, or_false] at member
  rcases member with rfl | rfl <;> decide

private theorem mem_of_comment {comment : String} (member : comment ∈ suppressions) {left right : List Char}
    (split : comment.toList = left ++ right) (some : right ≠ []) : 'e' ∈ right := by
  have last := (comment_shape member).1
  rw [split, List.getLast?_append_of_ne_nil left some] at last
  exact List.mem_of_getLast? last

/-- No comment reaches into a stretch without the letter that all comments end with. -/
theorem silenced_append {quiet : List Char} (silent : 'e' ∉ quiet) (line : List Char) :
    Silenced (line ++ quiet) ↔ Silenced line := by
  constructor
  · intro ⟨comment, member, occurs⟩
    rcases infix_append_cases occurs with inside | behind | ⟨left, right, split, some, up⟩
    · exact ⟨comment, member, inside⟩
    · have letter := mem_of_comment member (List.nil_append _).symm (comment_shape member).2.2
      exact absurd (behind.subset letter) silent
    · exact absurd (up.subset (mem_of_comment member split some)) silent
  · intro ⟨comment, member, occurs⟩
    exact ⟨comment, member, occurs.trans List.infix_append_left⟩

/-- Text that goes in front of a closing brace and its blanks breaks no comment. -/
theorem Silenced.insert {line quiet rest : List Char} (silenced : Silenced (line ++ (quiet ++ rest))) (silent : 'e' ∉ quiet)
    (brace : rest = [] ∨ ∃ more, rest = '\x7d' :: more) (extra : List Char) :
    Silenced (line ++ (extra ++ (quiet ++ rest))) := by
  obtain ⟨comment, member, occurs⟩ := silenced
  refine ⟨comment, member, ?_⟩
  rcases infix_append_cases occurs with inside | behind | ⟨left, right, split, some, up⟩
  · exact inside.trans List.infix_append_left
  · exact behind.trans (List.infix_append_right.trans List.infix_append_right)
  · exfalso
    have letter := mem_of_comment member split some
    obtain ⟨back, whole⟩ := up
    rcases List.append_eq_append_iff.mp whole with ⟨more, long, _⟩ | ⟨more, long, short⟩
    · exact silent (by rw [long]; exact List.mem_append_left _ letter)
    · cases more with
      | nil => exact silent (by rwa [long, List.append_nil] at letter)
      | cons char more =>
        rcases brace with none | ⟨after, known⟩
        · rw [none] at short
          cases short
        · rw [known] at short
          obtain rfl : '\x7d' = char := (List.cons.inj short).1
          apply (comment_shape member).2.1
          rw [split, long]
          simp

section
variable {quiet extra : List Char} (silent : 'e' ∉ quiet) (fits : '\n' ∈ extra → '\n' ∈ quiet)

include silent fits

/-- A cut in front of the closing brace stays silent if text goes between the two. -/
theorem Silenced.before {front gap back : List Char}
    (silenced : Silenced (lineAround front (gap ++ (quiet ++ '\x7d' :: back)))) :
    Silenced (lineAround front (gap ++ (extra ++ (quiet ++ '\x7d' :: back)))) := by
  rw [lineAround] at silenced ⊢
  by_cases broken : '\n' ∈ gap
  · rwa [firstLine_of_mem broken] at silenced ⊢
  rw [firstLine_of_not_mem broken, ← List.append_assoc] at silenced ⊢
  by_cases ends : '\n' ∈ quiet
  · -- The line ends before the brace, so the comment stands in front of the new text.
    have still : 'e' ∉ firstLine quiet := fun member => silent ((List.takeWhile_subset _) member)
    rw [firstLine_of_mem ends, silenced_append still] at silenced
    obtain ⟨comment, member, occurs⟩ := silenced
    exact ⟨comment, member, occurs.trans List.infix_append_left⟩
  · rw [firstLine_of_not_mem ends] at silenced
    rw [firstLine_of_not_mem (mt fits ends), firstLine_of_not_mem ends]
    refine silenced.insert silent (.inr ⟨firstLine back, ?_⟩) extra
    rw [firstLine, List.takeWhile_cons_of_pos (by decide)]
    rfl

/-- So does a cut behind it if text goes in front of the brace. -/
theorem Silenced.behind {front mid back : List Char}
    (silenced : Silenced (lineAround (front ++ (quiet ++ '\x7d' :: mid)) back)) :
    Silenced (lineAround (front ++ (extra ++ (quiet ++ '\x7d' :: mid))) back) := by
  rw [lineAround] at silenced ⊢
  by_cases broken : '\n' ∈ quiet ++ '\x7d' :: mid
  · rw [lastLine_of_mem broken] at silenced
    rwa [lastLine_of_mem (List.mem_append_right _ broken), lastLine_of_mem broken]
  · -- The brace is on the line of the cut, and then so is the new text.
    have whole : '\n' ∉ extra := fun member => broken (List.mem_append_left _ (fits member))
    rw [lastLine_of_not_mem broken, List.append_assoc, List.append_assoc] at silenced
    rw [lastLine_of_not_mem (by simp [whole, broken]), List.append_assoc, List.append_assoc, List.append_assoc]
    exact silenced.insert silent (.inr ⟨_, rfl⟩) extra

end

theorem silenced_stripReturn (line : List Char) : Silenced (stripReturn line) ↔ Silenced line := by
  rw [stripReturn]
  split
  next ends =>
    obtain ⟨front, rfl⟩ := List.getLast?_eq_some_iff.mp ends
    rw [List.dropLast_concat, silenced_append (by decide)]
  next => rfl

theorem not_silenced_nil : ¬ Silenced [] := by
  intro ⟨comment, member, occurs⟩
  exact (comment_shape member).2.2 (List.infix_nil.mp occurs)

/-- Neither a carriage return nor an empty last line matters. -/
theorem exists_suppressed_iff (text : String) (number : Nat) :
    (∃ line, (lines text)[number]? = some line ∧ isSuppressed line) ↔
      ∃ piece, (splitItems '\n' text.toList)[number]? = some piece ∧ Silenced piece := by
  obtain ⟨front, last, pieces⟩ := (List.eq_nil_or_concat' (splitItems '\n' text.toList)).resolve_left (splitItems_ne_nil _ _)
  have ended : lines text = (front.map stripReturn).map String.ofList ++ if last = [] then [] else [String.ofList last] := by
    rw [lines, pieces]
    cases last <;> simp
  rw [ended, pieces]
  rcases Nat.lt_trichotomy number front.length with before | rfl | behind
  · rw [List.getElem?_append_left (by simpa using before), List.getElem?_append_left before, List.getElem?_map,
      List.getElem?_map, List.getElem?_eq_getElem before]
    simp [isSuppressed_iff, silenced_stripReturn]
  · rw [List.getElem?_append_right (by simp), List.getElem?_concat_length]
    cases last with
    | nil => simp [not_silenced_nil]
    | cons char rest =>
      rw [if_neg (List.cons_ne_nil char rest)]
      simp only [List.length_map, Nat.sub_self, List.getElem?_cons_zero, Option.some.injEq, exists_eq_left',
        isSuppressed_iff]
  · have short : (if last = [] then [] else [String.ofList last]).length ≤ 1 := by split <;> simp
    rw [List.getElem?_eq_none (by simp only [List.length_append, List.length_map]; omega),
      List.getElem?_eq_none (by rw [List.length_append, List.length_singleton]; omega)]
    simp

end Text

/-- The rules are silent at a cut exactly if there is a suppression comment in its line. -/
theorem contains_suppressedLines (before after : String) :
    (suppressedLines (before ++ after)).contains ((LineIndex.ofText (before ++ after)).line before.utf8ByteSize) ↔
      Text.Silenced (Text.lineAround before.toList after.toList) := by
  have piece := Text.getElem?_splitItems before.toList after.toList
  have numbered := Text.exists_suppressed_iff (before ++ after) (before.toList.count '\n')
  rw [String.toList_append, piece] at numbered
  have silent : (∃ piece, some (Text.lineAround before.toList after.toList) = some piece ∧ Text.Silenced piece) ↔
      Text.Silenced (Text.lineAround before.toList after.toList) := by
    simp
  rw [LineIndex.line_of_cut, List.contains_iff_mem, suppressedLines, List.mem_filterMap, ← silent, ← numbered]
  constructor
  · intro ⟨⟨line, number⟩, member, known⟩
    obtain ⟨order, here⟩ := List.mk_mem_zipIdx_iff_le_and_getElem?_sub.mp member
    simp only [Option.ite_none_right_eq_some, Option.some.injEq] at known
    obtain ⟨suppressed, rfl⟩ := known
    exact ⟨line, by simpa using here, suppressed⟩
  · intro ⟨line, here, suppressed⟩
    refine ⟨(line, before.toList.count '\n' + 1), List.mk_mem_zipIdx_iff_le_and_getElem?_sub.mpr ⟨by omega, ?_⟩, ?_⟩
    · simpa using here
    · simp [suppressed]

theorem unsuppressed_eq_false_iff {tree : Tree} {defect : Defect} {before after : String}
    (text : tree.text = before ++ after) (start : defect.span.start = before.utf8ByteSize) :
    unsuppressed tree defect = false ↔ Text.Silenced (Text.lineAround before.toList after.toList) := by
  rw [unsuppressed, start, text, Bool.not_eq_false', contains_suppressedLines]

end TreeLint
