import Mathlib.Data.List.Lex
import TreeLint.Analysis.Run
import TreeLint.Proofs.Splitting

/-! Spellings of paths. The path of an entry has one part more than that of its folder, however the folder is written.
Paths are told apart by their parts, so sorting brings the spellings of one path together, and one of each is kept. -/

namespace TreeLint

namespace Path
open TreeLint.Text

/-- A name as the entries of a folder have it. As a piece of a path it stands for itself. -/
structure IsName (name : String) : Prop where
  single : '/' ∉ name.toList
  part : part? name = some (.name name)

theorem isName_of_part {piece text : String} (single : '/' ∉ piece.toList) (part : part? piece = some (.name text)) :
    IsName text := by
  have same : piece = text := by
    unfold part? at part
    split at part
    · cases part
    · split at part
      · cases part
      · exact Part.name.inj (Option.some.inj part)
  subst same
  exact ⟨single, part⟩

def opening (piece : String) : List Part :=
  if piece = "" then [.root] else if piece = "." then [.here] else (part? piece).toList

theorem partsOf_cons {first : String} {rest : List String} (meant : first = "" → rest ≠ []) :
    partsOf (first :: rest) = opening first ++ rest.filterMap part? := by
  rw [partsOf.eq_3 _ _ meant, opening]
  split
  · rfl
  · split
    · rfl
    · rw [List.filterMap_cons]
      cases part? first <;> rfl

theorem exists_piece {pieces : List String} {text : String} (member : .name text ∈ partsOf pieces) :
    ∃ piece ∈ pieces, part? piece = some (.name text) := by
  match pieces with
  | [] => cases member
  | first :: rest =>
    by_cases empty : first = "" ∧ rest = []
    · rw [empty.1, empty.2] at member
      cases member
    · rw [partsOf_cons (fun none alone => empty ⟨none, alone⟩), List.mem_append, List.mem_filterMap] at member
      rcases member with front | ⟨piece, later, known⟩
      · unfold opening at front
        split at front
        · cases List.mem_singleton.mp front
        · split at front
          · cases List.mem_singleton.mp front
          · exact ⟨first, List.mem_cons_self, Option.mem_toList.mp front⟩
      · exact ⟨piece, List.mem_cons_of_mem _ later, known⟩

theorem isName_of_mem_names {path name : String} (member : name ∈ names path) : IsName name := by
  obtain ⟨part, among, known⟩ := List.mem_filterMap.mp member
  cases part with
  | name text =>
    cases known
    obtain ⟨piece, inside, stands⟩ := exists_piece among
    obtain ⟨chars, found, rfl⟩ := List.mem_map.mp inside
    apply isName_of_part _ stands
    rw [String.toList_ofList]
    exact not_mem_of_mem_splitItems found
  | _ => cases known

theorem split_child {folder name : String} (nonempty : folder ≠ "") (isName : IsName name) :
    ∃ first rest, split (child folder name) '/' = first :: (rest ++ [name]) ∧
      parts folder = opening first ++ rest.filterMap part? := by
  have own : splitItems '/' name.toList = [name.toList] := splitItems_of_not_mem isName.single
  rw [child, if_neg nonempty]
  split
  next slash =>
    obtain ⟨base, whole⟩ := List.getLast?_eq_some_iff.mp slash
    obtain ⟨first, rest, pieces⟩ := List.exists_cons_of_ne_nil (splitItems_ne_nil '/' base)
    refine ⟨String.ofList first, rest.map String.ofList, ?_, ?_⟩
    · rw [split, String.toList_append, whole, List.append_assoc, List.singleton_append, splitItems_append, own, pieces]
      simp
    · rw [parts, split, whole, splitItems_append, pieces, splitItems, List.cons_append, List.map_cons,
        partsOf_cons (fun _ => by simp)]
      simp [part?]
  next =>
    obtain ⟨first, rest, pieces⟩ := List.exists_cons_of_ne_nil (splitItems_ne_nil '/' folder.toList)
    refine ⟨String.ofList first, rest.map String.ofList, ?_, ?_⟩
    · rw [split, String.append_assoc, String.toList_append, String.toList_append, show "/".toList = ['/'] from rfl,
        List.singleton_append, splitItems_append, own, pieces]
      simp
    · rw [parts, split, pieces, List.map_cons, partsOf_cons]
      intro none alone
      rw [String.ofList_eq_empty_iff.mp none, List.map_eq_nil_iff.mp alone] at pieces
      exact nonempty (String.toList_inj.mp (splitItems_eq_nil pieces))

theorem parts_child {folder name : String} (nonempty : folder ≠ "") (isName : IsName name) :
    parts (child folder name) = parts folder ++ [.name name] := by
  obtain ⟨first, rest, pieces, folderParts⟩ := split_child nonempty isName
  rw [parts, pieces, partsOf_cons (fun _ => by simp), folderParts, List.filterMap_append, List.filterMap_cons, isName.part,
    List.append_assoc]
  rfl

/-- All paths are names behind one lead, such as a dot. -/
def WrittenAlike (paths : List String) : Prop :=
  ∃ lead, ∀ path ∈ paths, ∃ names : List String, parts path = lead ++ names.map .name

theorem key_injective : Function.Injective Part.key := by
  intro first second same
  cases first with
  | name text =>
    cases second with
    | name other =>
      have numbers : Function.Injective Char.toNat := fun _ _ => Char.toNat_inj.mp
      rw [String.toList_inj.mp (numbers.list_map (List.cons.inj same).2)]
    | _ => cases (List.cons.inj same).1
  | _ =>
    cases second with
    | name other => cases (List.cons.inj same).1
    | _ => first | rfl | cases same

theorem same_iff {first second : String} : same first second ↔ key first = key second := by
  rw [same, decide_eq_true_iff, key, key]
  exact ⟨congrArg _, fun alike => key_injective.list_map alike⟩

theorem le_iff {first second : String} : le first second ↔ key first ≤ key second := by
  rw [le, Bool.not_eq_true', decide_eq_false_iff_not, not_lt]

theorem pairwise_mergeSort (paths : List String) :
    (paths.mergeSort le).Pairwise fun first second => key first ≤ key second := by
  have transitive (first second third : String) (one : le first second) (two : le second third) : le first third :=
    le_iff.mpr (le_trans (le_iff.mp one) (le_iff.mp two))
  have total (first second : String) : le first second || le second first := by
    rw [Bool.or_eq_true, le_iff, le_iff]
    exact le_total _ _
  exact (List.pairwise_mergeSort transitive total paths).imp le_iff.mp

end Path

open TreeLint.Path

theorem dropRepeated_sublist (paths : List String) : (dropRepeated paths).Sublist paths := by
  fun_induction dropRepeated paths with
  | case1 => exact List.Sublist.refl _
  | case2 path => exact List.Sublist.refl _
  | case3 path next rest alike ih => exact ih.trans ((List.sublist_cons_self next rest).cons_cons path)
  | case4 path next rest apart ih => exact ih.cons_cons path

/-- Of each path a spelling is kept. -/
theorem exists_kept {paths : List String} {path : String} (member : path ∈ paths) :
    ∃ kept ∈ dropRepeated paths, same kept path := by
  fun_induction dropRepeated paths generalizing path with
  | case1 => cases member
  | case2 only => exact ⟨only, List.mem_singleton_self _, by rw [List.mem_singleton.mp member]; simp [same]⟩
  | case3 first next rest alike ih =>
    rcases List.mem_cons.mp member with rfl | later
    · exact ih List.mem_cons_self
    · rcases List.mem_cons.mp later with rfl | last
      · obtain ⟨kept, present, like⟩ := ih List.mem_cons_self
        exact ⟨kept, present, same_iff.mpr ((same_iff.mp like).trans (same_iff.mp alike))⟩
      · exact ih (List.mem_cons_of_mem _ last)
  | case4 first next rest apart ih =>
    rcases List.mem_cons.mp member with rfl | later
    · exact ⟨path, List.mem_cons_self, by simp [same]⟩
    · obtain ⟨kept, present, like⟩ := ih later
      exact ⟨kept, List.mem_cons_of_mem _ present, like⟩

/-- Of each path one spelling only is kept. -/
theorem pairwise_dropRepeated {paths : List String} (sorted : paths.Pairwise fun first second => key first ≤ key second) :
    (dropRepeated paths).Pairwise fun first second => key first < key second := by
  fun_induction dropRepeated paths with
  | case1 => exact .nil
  | case2 path => exact List.pairwise_singleton _ _
  | case3 path next rest alike ih => exact ih (sorted.sublist ((List.sublist_cons_self next rest).cons_cons path))
  | case4 path next rest apart ih =>
    obtain ⟨first, others⟩ := List.pairwise_cons.mp sorted
    refine List.pairwise_cons.mpr ⟨fun later member => ?_, ih others⟩
    have below : key path < key next :=
      lt_of_le_of_ne (first next List.mem_cons_self) fun alike => apart (same_iff.mpr alike)
    rcases List.mem_cons.mp ((dropRepeated_sublist _).subset member) with rfl | last
    · exact below
    · exact below.trans_le ((List.pairwise_cons.mp others).1 later last)

end TreeLint
