import TreeLint.Proofs.Lines

/-! Lines by number. The line of an offset is the text around it up to the next line feeds, also where the offset falls
inside a character. Its number, the column of the offset and the list of the silent lines all speak of that one line. -/

namespace TreeLint

namespace Text

private theorem bytes_cons (char : Char) (rest : List Char) :
    bytes (String.ofList (char :: rest)) = String.utf8EncodeChar char ++ bytes (String.ofList rest) := by
  rw [bytes, bytes, String.toByteArray_ofList, List.utf8Encode_cons, List.utf8Encode_singleton, String.toByteArray_ofList,
    ByteArray.data_append, Array.toList_append, List.toList_data_toByteArray]

/-- All bytes of a character of several bytes have their highest bit set, so none of them is a line feed. -/
private theorem feed_mem_utf8EncodeChar {char : Char} (feed : '\n'.toUInt8 ∈ String.utf8EncodeChar char) :
    char = '\n' := by
  have high (byte mark : UInt8) (large : 128 ≤ mark) : '\n'.toUInt8 ≠ byte ||| mark := by
    intro same
    have above : (128 : UInt8) ≤ '\n'.toUInt8 := UInt8.le_trans large (same ▸ UInt8.right_le_or)
    exact absurd above (by decide)
  rcases Char.utf8Size_eq char with one | two | three | four
  · rw [String.utf8EncodeChar_eq_singleton one, List.mem_singleton] at feed
    have small := UInt32.le_iff_toNat_le.mp (Char.utf8Size_eq_one_iff.mp one)
    have same := congrArg UInt8.toNat feed
    have ten : '\n'.toUInt8.toNat = 10 := rfl
    have limit : (127 : UInt32).toNat = 127 := rfl
    rw [ten, UInt32.toNat_toUInt8, Nat.mod_eq_of_lt (by omega)] at same
    exact Char.toNat_inj.mp same.symm
  · rw [String.utf8EncodeChar_eq_cons_cons two] at feed
    simp [high] at feed
  · rw [String.utf8EncodeChar_eq_cons_cons_cons three] at feed
    simp [high] at feed
  · rw [String.utf8EncodeChar_eq_cons_cons_cons_cons four] at feed
    simp [high] at feed

theorem count_bytes (text : String) : (bytes text).count '\n'.toUInt8 = text.toList.count '\n' := by
  have listed (chars : List Char) : (bytes (String.ofList chars)).count '\n'.toUInt8 = chars.count '\n' := by
    induction chars with
    | nil => rfl
    | cons char rest ih =>
      rw [bytes_cons, List.count_append, ih]
      by_cases feed : char = '\n'
      · subst feed
        rw [List.count_cons_self, show (String.utf8EncodeChar '\n').count '\n'.toUInt8 = 1 from by decide, Nat.add_comm]
      · rw [List.count_cons_of_ne feed, List.count_eq_zero_of_not_mem (mt feed_mem_utf8EncodeChar feed), Nat.zero_add]
  rw [← listed, String.ofList_toList]

/-- A text cut where the line of an offset starts and where it ends. A line feed still lies on the line that it ends. -/
structure LineAt (text : String) (offset : Nat) (front line back : String) : Prop where
  whole : text = front ++ (line ++ back)
  opens : front = "" ∨ ∃ earlier, front = earlier ++ "\n"
  closes : back = "" ∨ ∃ later, back = "\n" ++ later
  unbroken : '\n' ∉ line.toList
  behind : front.utf8ByteSize ≤ offset
  ahead : offset ≤ front.utf8ByteSize + line.utf8ByteSize

private theorem exists_lineAt_ofList (chars : List Char) {offset : Nat}
    (inside : offset ≤ (String.ofList chars).utf8ByteSize) :
    ∃ front line back, LineAt (String.ofList chars) offset front line back := by
  induction chars generalizing offset with
  | nil => exact ⟨"", "", "", rfl, .inl rfl, .inl rfl, by simp, Nat.zero_le _, inside⟩
  | cons char rest ih =>
    rw [size_ofList_cons] at inside
    obtain ⟨front, line, back, found⟩ := @ih (offset - char.utf8Size) (by omega)
    have before := found.behind
    have after := found.ahead
    rw [String.ofList_cons, found.whole]
    by_cases feed : char = '\n'
    · subst feed
      have size : '\n'.utf8Size = 1 := rfl
      cases offset with
      | zero =>
        exact ⟨"", "", "\n" ++ (front ++ (line ++ back)), by simp, .inl rfl, .inr ⟨_, rfl⟩, by simp, Nat.zero_le _,
          Nat.zero_le _⟩
      | succ offset =>
        refine ⟨"\n" ++ front, line, back, by rw [String.append_assoc]; rfl, .inr ?_, found.closes, found.unbroken, ?_, ?_⟩
        · rcases found.opens with rfl | ⟨earlier, rfl⟩
          · exact ⟨"", by simp⟩
          · exact ⟨"\n" ++ earlier, by rw [String.append_assoc]⟩
        all_goals
          rw [String.utf8ByteSize_append, show "\n".utf8ByteSize = 1 from rfl]
          omega
    · rcases found.opens with rfl | ⟨earlier, rfl⟩
      · refine ⟨"", String.singleton char ++ line, back, by simp [String.append_assoc], .inl rfl, found.closes, ?_,
          Nat.zero_le _, ?_⟩
        · simpa [Ne.symm feed] using found.unbroken
        · rw [String.utf8ByteSize_append, String.utf8ByteSize_singleton]
          omega
      · -- A line feed lies in front of the offset, so the offset is not inside this character.
        rw [String.utf8ByteSize_append, show "\n".utf8ByteSize = 1 from rfl] at before after
        refine ⟨String.singleton char ++ (earlier ++ "\n"), line, back, by simp only [String.append_assoc],
          .inr ⟨String.singleton char ++ earlier, by rw [String.append_assoc]⟩, found.closes, found.unbroken, ?_, ?_⟩
        all_goals
          rw [String.utf8ByteSize_append, String.utf8ByteSize_append, String.utf8ByteSize_singleton,
            show "\n".utf8ByteSize = 1 from rfl]
          omega

theorem exists_lineAt {text : String} {offset : Nat} (inside : offset ≤ text.utf8ByteSize) :
    ∃ front line back, LineAt text offset front line back := by
  rw [← String.ofList_toList (s := text)] at inside ⊢
  exact exists_lineAt_ofList text.toList inside

/-- What a suppression comment has to stand in for the rules to be silent at an offset. -/
theorem LineAt.lineAround_eq {text front line back : String} {offset : Nat} (found : LineAt text offset front line back) :
    lineAround front.toList (line ++ back).toList = line.toList := by
  have before : lastLine front.toList = [] := by
    rcases found.opens with rfl | ⟨earlier, rfl⟩
    · rfl
    · rw [String.toList_append, lastLine_of_mem (by simp)]
      rfl
  have after : firstLine back.toList = [] := by
    rcases found.closes with rfl | ⟨later, rfl⟩
    · rfl
    · rw [String.toList_append, firstLine_of_mem (by simp)]
      rfl
  rw [lineAround, before, String.toList_append, firstLine_of_not_mem found.unbroken, after, List.nil_append,
    List.append_nil]

end Text

namespace LineIndex
open TreeLint.Text

theorem startsAfter_append (offset : Nat) (before after : List Char) :
    startsAfter offset (before ++ after) =
      startsAfter offset before ++ startsAfter (offset + (String.ofList before).utf8ByteSize) after := by
  induction before generalizing offset with
  | nil => rfl
  | cons char rest ih =>
    rw [List.cons_append, startsAfter, startsAfter, size_ofList_cons, ih, ih, Nat.add_assoc, Nat.add_assoc]
    by_cases feed : char = '\n'
    · subst feed
      rw [if_pos rfl, if_pos rfl, List.cons_append]
      rfl
    · rw [if_neg feed, if_neg feed]

theorem length_startsAfter (offset : Nat) (chars : List Char) : (startsAfter offset chars).length = chars.count '\n' := by
  induction chars generalizing offset with
  | nil => rfl
  | cons char rest ih =>
    rw [startsAfter]
    by_cases feed : char = '\n'
    · rw [if_pos feed, feed, List.count_cons_self, List.length_cons, ih]
    · rw [if_neg feed, List.count_cons_of_ne feed, ih]

theorem pairwise_startsAfter (offset : Nat) (chars : List Char) : (startsAfter offset chars).Pairwise (· < ·) := by
  induction chars generalizing offset with
  | nil => exact .nil
  | cons char rest ih =>
    rw [startsAfter]
    split
    · exact List.pairwise_cons.mpr ⟨fun _ member => lt_of_mem_startsAfter member, ih _⟩
    · exact ih _

theorem pairwise_starts (text : String) : (ofText text).starts.Pairwise (· < ·) :=
  List.pairwise_cons.mpr ⟨fun _ member => lt_of_mem_startsAfter member, pairwise_startsAfter 0 text.toList⟩

theorem line_mono (index : LineIndex) {offset other : Nat} (order : offset ≤ other) :
    index.line offset ≤ index.line other := by
  apply List.countP_mono_left
  intro start _ early
  exact decide_eq_true (Nat.le_trans (of_decide_eq_true early) order)

/-- What a binary search in a sorted list comes to: where the value stands, or else where it could be put in. -/
inductive Searched (sorted : List Nat) (value : Nat) : Except Nat Nat → Prop where
  | present {place : Nat} : sorted[place]? = some value → Searched sorted value (.ok place)
  | absent {place : Nat} : place ≤ sorted.length → (∀ item ∈ sorted.take place, item < value) →
      (∀ item ∈ sorted.drop place, value < item) → Searched sorted value (.error place)

def lineFound : Except Nat Nat → Nat
  | .ok place => place + 1
  | .error place => place

/-- The line of an offset can be told by any binary search. -/
theorem line_of_searched {index : LineIndex} {offset : Nat} {result : Except Nat Nat}
    (order : index.starts.Pairwise (· < ·)) (search : Searched index.starts offset result) :
    index.line offset = lineFound result := by
  have count {place : Nat} (inside : place ≤ index.starts.length)
      (early : ∀ start ∈ index.starts.take place, start ≤ offset)
      (late : ∀ start ∈ index.starts.drop place, offset < start) : index.line offset = place := by
    rw [line, ← List.take_append_drop place index.starts, List.countP_append,
      List.countP_eq_length.mpr (by simpa using early), List.countP_eq_zero.mpr (by simpa using late), List.length_take, Nat.min_eq_left inside, Nat.add_zero]
  cases search with
  | @present place here =>
    obtain ⟨inside, value⟩ := List.getElem?_eq_some_iff.mp here
    have split : index.starts = index.starts.take place ++ offset :: index.starts.drop (place + 1) := by
      rw [← value, ← List.drop_eq_getElem_cons inside, List.take_append_drop]
    rw [split, List.pairwise_append, List.pairwise_cons] at order
    refine count inside ?_ order.2.1.1
    intro start member
    rw [lineFound, List.take_add_one, here, List.mem_append] at member
    rcases member with earlier | same
    · exact Nat.le_of_lt (order.2.2 start earlier offset (List.mem_cons_self ..))
    · exact Nat.le_of_eq (by simpa using same)
  | absent inside early late => exact count inside (fun start member => Nat.le_of_lt (early start member)) late

end LineIndex

namespace Text.LineAt

variable {text front line back : String} {offset : Nat} (found : LineAt text offset front line back)

include found

/-- The line feeds in front of the offset are those in front of its line. -/
theorem count_before : ((bytes text).take offset).count '\n'.toUInt8 = front.toList.count '\n' := by
  have before := found.behind
  have after := found.ahead
  have inner : (bytes line).count '\n'.toUInt8 = 0 := by
    rw [count_bytes, List.count_eq_zero_of_not_mem found.unbroken]
  have part := ((List.take_sublist (offset - front.utf8ByteSize) (bytes line)).count_le '\n'.toUInt8).trans_eq inner
  rw [found.whole, bytes_append, bytes_append, List.take_append, List.take_of_length_le (by simpa using before),
    length_bytes, List.take_append_of_le_length (by rw [length_bytes]; omega), List.count_append, Nat.le_zero.mp part, count_bytes,
    Nat.add_zero]

theorem line_eq : (LineIndex.ofText text).line offset = front.toList.count '\n' + 1 := by
  have first := LineIndex.line_of_cut front (line ++ back)
  have last := LineIndex.line_of_cut (front ++ line) back
  rw [← found.whole] at first
  rw [String.append_assoc, ← found.whole, String.toList_append, List.count_append,
    List.count_eq_zero_of_not_mem found.unbroken, String.utf8ByteSize_append] at last
  have low := (LineIndex.ofText text).line_mono found.behind
  have high := (LineIndex.ofText text).line_mono found.ahead
  omega

theorem starts_getElem? : (LineIndex.ofText text).starts[front.toList.count '\n']? = some front.utf8ByteSize := by
  rcases found.opens with rfl | ⟨earlier, rfl⟩
  · rfl
  · have feed : LineIndex.startsAfter 0 text.toList = LineIndex.startsAfter 0 earlier.toList ++
        (earlier.utf8ByteSize + 1) :: LineIndex.startsAfter (earlier.utf8ByteSize + 1) (line ++ back).toList := by
      rw [found.whole, String.append_assoc, String.toList_append, LineIndex.startsAfter_append, String.ofList_toList,
        Nat.zero_add, String.toList_append]
      rfl
    have count : (earlier ++ "\n").toList.count '\n' = earlier.toList.count '\n' + 1 := by
      rw [String.toList_append, List.count_append]
      rfl
    rw [LineIndex.ofText, feed, count, List.getElem?_cons_succ,
      List.getElem?_append_right (by rw [LineIndex.length_startsAfter]), LineIndex.length_startsAfter, Nat.sub_self, String.utf8ByteSize_append]
    rfl

theorem position_eq : (LineIndex.ofText text).position offset =
    ((LineIndex.ofText text).line offset, offset - front.utf8ByteSize + 1) := by
  rw [LineIndex.position, found.line_eq, Nat.add_sub_cancel, found.starts_getElem?, Option.getD_some]

theorem suppressed_iff : (suppressedLines text).contains ((LineIndex.ofText text).line offset) ↔
    ∃ comment ∈ suppressions, contains line comment := by
  have start := LineIndex.line_of_cut front (line ++ back)
  have silent := contains_suppressedLines front (line ++ back)
  rw [start, ← found.whole, ← found.line_eq, found.lineAround_eq, ← isSuppressed_iff, String.ofList_toList] at silent
  rw [silent, isSuppressed, List.any_eq_true]

end Text.LineAt

/-- The number of a line counts the line feeds in front of it, a column the bytes from its start, and the rules are silent
on exactly the lines in which a suppression comment stands. -/
theorem LineIndex.line_exact {text : String} {offset : Nat} (inside : offset ≤ text.utf8ByteSize) :
    let index := LineIndex.ofText text
    index.line offset = ((Text.bytes text).take offset).count '\n'.toUInt8 + 1 ∧
      index.starts.Pairwise (· < ·) ∧
      (∀ result, Searched index.starts offset result → index.line offset = lineFound result) ∧
      (∃ front line back, Text.LineAt text offset front line back) ∧
      (∀ front line back, Text.LineAt text offset front line back →
        index.starts[index.line offset - 1]? = some front.utf8ByteSize ∧ front.utf8ByteSize ≤ offset ∧
          index.position offset = (index.line offset, offset - front.utf8ByteSize + 1) ∧
          ((suppressedLines text).contains (index.line offset) ↔ ∃ comment ∈ suppressions, Text.contains line comment)) ∧
      ∀ other ≤ text.utf8ByteSize, index.position other = index.position offset → other = offset := by
  intro index
  obtain ⟨front, line, back, found⟩ := Text.exists_lineAt inside
  refine ⟨?_, pairwise_starts text, fun result search => line_of_searched (pairwise_starts text) search,
    ⟨front, line, back, found⟩, ?_, ?_⟩
  · rw [found.line_eq, found.count_before]
  · intro front line back found
    refine ⟨?_, found.behind, found.position_eq, found.suppressed_iff⟩
    rw [found.line_eq, Nat.add_sub_cancel, found.starts_getElem?]
  · intro other within same
    obtain ⟨ahead, _, _, there⟩ := Text.exists_lineAt within
    rw [there.position_eq, found.position_eq] at same
    obtain ⟨number, column⟩ := Prod.mk.inj same
    -- Lines of one number have one start.
    have start := there.starts_getElem?
    rw [there.line_eq, found.line_eq, Nat.add_right_cancel_iff] at number
    rw [number, found.starts_getElem?, Option.some_inj] at start
    have here := found.behind
    have beyond := there.behind
    omega

def twoLines : String :=
  "var a;\nbool notÄ; // sharplint:ignore\r\n"

theorem LineIndex.line_exact_insideCharacter :
    16 ≤ twoLines.utf8ByteSize ∧ (ofText twoLines).position 16 = (2, 10) ∧ (suppressedLines twoLines).contains 2 ∧
      ((Text.bytes twoLines).take 16).count '\n'.toUInt8 = 1 := by
  have inside : 16 ≤ twoLines.utf8ByteSize := by decide +kernel
  obtain ⟨counted, _, _, _, told, _⟩ := line_exact inside
  have found : Text.LineAt twoLines 16 "var a;\n" "bool notÄ; // sharplint:ignore\r" "\n" :=
    ⟨by decide +kernel, .inr ⟨"var a;", rfl⟩, .inr ⟨"", rfl⟩, by decide +kernel, by decide +kernel, by decide +kernel⟩
  obtain ⟨_, _, position, silent⟩ := told _ _ _ found
  have second : (ofText twoLines).line 16 = 2 := by decide +kernel
  rw [second] at counted position silent
  exact ⟨inside, position, silent.mpr ⟨"// sharplint:ignore", by decide +kernel, by decide +kernel⟩,
    (Nat.succ.inj counted).symm⟩

end TreeLint
