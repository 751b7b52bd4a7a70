import TreeLint.Text.Bytes

/-! Texts as bytes. A cut between two characters is the same thing as a way to write the text as two
texts one after the other, and slicing at cuts gives back what lies between them. -/

namespace TreeLint.Text

def bytes (text : String) : List UInt8 :=
  text.toByteArray.data.toList

@[simp] theorem bytes_append (first second : String) : bytes (first ++ second) = bytes first ++ bytes second := by
  simp [bytes]

@[simp] theorem length_bytes (text : String) : (bytes text).length = text.utf8ByteSize := by
  simp [bytes, ← String.size_toByteArray]

theorem size_ofList_cons (char : Char) (rest : List Char) :
    (String.ofList (char :: rest)).utf8ByteSize = char.utf8Size + (String.ofList rest).utf8ByteSize := by
  rw [String.ofList_cons, String.utf8ByteSize_append, String.utf8ByteSize_singleton]

/-- A cut between two characters, or at one end of the text. -/
def Boundary (text : String) (offset : Nat) : Prop :=
  ∃ before after, text = before ++ after ∧ before.utf8ByteSize = offset

theorem boundary_zero (text : String) : Boundary text 0 :=
  ⟨"", text, by simp, by simp⟩

theorem boundary_max {text : String} {first second : Nat} (one : Boundary text first)
    (two : Boundary text second) : Boundary text (max first second) := by
  rcases Nat.le_total first second with below | above
  · rwa [Nat.max_eq_right below]
  · rwa [Nat.max_eq_left above]

private theorem splitBytes?_append (before after : List Char) :
    splitBytes? (before ++ after) (String.ofList before).utf8ByteSize = some (before, after) := by
  induction before with
  | nil => cases after <;> simp [splitBytes?]
  | cons char rest ih =>
    have positive := char.utf8Size_pos
    obtain ⟨count, size⟩ : ∃ count, (String.ofList (char :: rest)).utf8ByteSize = count + 1 :=
      ⟨_, (Nat.sub_add_cancel (by rw [size_ofList_cons]; omega)).symm⟩
    have left : count + 1 - char.utf8Size = (String.ofList rest).utf8ByteSize := by
      rw [← size, size_ofList_cons]
      omega
    have fits : char.utf8Size ≤ count + 1 := by
      rw [← size, size_ofList_cons]
      omega
    rw [List.cons_append, size, splitBytes?, if_pos fits, left, ih]
    rfl

theorem sliceFrom?_append (before after : String) :
    sliceFrom? (before ++ after) before.utf8ByteSize = some after := by
  have cut := splitBytes?_append before.toList after.toList
  rw [String.ofList_toList] at cut
  simp [sliceFrom?, cut]

theorem slice?_eq {text before middle after : String} {start stop : Nat}
    (whole : text = before ++ (middle ++ after)) (opens : before.utf8ByteSize = start)
    (closes : start + middle.utf8ByteSize = stop) : slice? text start stop = some middle := by
  have first := splitBytes?_append before.toList (middle.toList ++ after.toList)
  have second := splitBytes?_append middle.toList after.toList
  rw [String.ofList_toList] at first second
  subst whole opens closes
  simp [slice?, first, second]

/-- Two cuts of one text, the first not behind the second, cut it into three texts. -/
theorem split_between {before rest : String} {offset : Nat} (cut : Boundary (before ++ rest) offset)
    (order : before.utf8ByteSize ≤ offset) :
    ∃ middle after, rest = middle ++ after ∧ before.utf8ByteSize + middle.utf8ByteSize = offset := by
  obtain ⟨front, back, same, size⟩ := cut
  have lists : before.toList ++ rest.toList = front.toList ++ back.toList := by
    rw [← String.toList_append, same, String.toList_append]
  rcases List.append_eq_append_iff.mp lists with ⟨between, longer, tail⟩ | ⟨between, longer, tail⟩
  · refine ⟨String.ofList between, back, ?_, ?_⟩
    · apply String.toList_inj.mp
      rw [String.toList_append, String.toList_ofList, tail]
    · rw [← size, ← String.ofList_toList (s := front), longer, String.ofList_append, String.ofList_toList,
        String.utf8ByteSize_append]
  · -- The other cut comes first, so both are the same cut.
    have whole : before.utf8ByteSize = front.utf8ByteSize + (String.ofList between).utf8ByteSize := by
      rw [← String.ofList_toList (s := before), longer, String.ofList_append, String.ofList_toList,
        String.utf8ByteSize_append]
    exact ⟨"", rest, by simp, by simp; omega⟩

theorem exists_slice {text : String} {start stop : Nat} (opens : Boundary text start) (closes : Boundary text stop)
    (order : start ≤ stop) : ∃ between, slice? text start stop = some between := by
  obtain ⟨before, rest, rfl, rfl⟩ := opens
  obtain ⟨middle, after, rfl, size⟩ := split_between closes order
  exact ⟨middle, slice?_eq rfl rfl size⟩

theorem Boundary.exists_rest {text : String} {offset : Nat} (cut : Boundary text offset) :
    ∃ rest, sliceFrom? text offset = some rest := by
  obtain ⟨before, rest, rfl, rfl⟩ := cut
  exact ⟨rest, sliceFrom?_append before rest⟩

private theorem append_of_splitBytes? {chars before after : List Char} {count : Nat}
    (split : splitBytes? chars count = some (before, after)) :
    chars = before ++ after ∧ (String.ofList before).utf8ByteSize = count := by
  induction chars generalizing before count with
  | nil =>
    cases count with
    | zero => cases split; exact ⟨rfl, rfl⟩
    | succ count => cases split
  | cons char rest ih =>
    cases count with
    | zero => cases split; exact ⟨rfl, rfl⟩
    | succ count =>
      rw [splitBytes?] at split
      split at split
      next fits =>
        obtain ⟨⟨front, back⟩, later, same⟩ := Option.map_eq_some_iff.mp split
        cases same
        obtain ⟨rfl, size⟩ := ih later
        refine ⟨rfl, ?_⟩
        rw [size_ofList_cons, size]
        omega
      next => cases split

/-- A text is cut at an offset exactly if it can be sliced from there. -/
theorem boundary_iff {text : String} {offset : Nat} : Boundary text offset ↔ (sliceFrom? text offset).isSome := by
  constructor
  · intro cut
    obtain ⟨rest, known⟩ := cut.exists_rest
    rw [known, Option.isSome_some]
  · intro known
    rw [sliceFrom?, Option.isSome_map, Option.isSome_iff_exists] at known
    obtain ⟨⟨before, after⟩, split⟩ := known
    obtain ⟨whole, size⟩ := append_of_splitBytes? split
    refine ⟨String.ofList before, String.ofList after, ?_, size⟩
    rw [← String.ofList_append, ← whole, String.ofList_toList]

instance (text : String) (offset : Nat) : Decidable (Boundary text offset) :=
  decidable_of_iff _ boundary_iff.symm

end TreeLint.Text
