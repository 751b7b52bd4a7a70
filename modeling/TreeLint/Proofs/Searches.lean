import TreeLint.Builtin.Search
import TreeLint.Proofs.Disks

/-! What searches come to. All of it stands below the path that is searched and is written like that path. Nothing more
is asked of a search, so it may leave out whatever it likes. -/

namespace TreeLint
open TreeLint.FileTree

/-- The spot is below what a path leads to, and written like that path. -/
def Disk.Below (disk : Disk) (above : String) (names : List String) (spot : Spot) : Prop :=
  ∃ way : List String, Path.parts spot.path = Path.parts above ++ way.map .name ∧
    disk.locate? spot.path = some (names ++ way) ∧ disk.root.shape? (names ++ way) = some spot.isFolder

/-- On a proper disk a search comes only to what stands at and below the path, each by the path of its entry. -/
structure Search.Lawful (search : Search) : Prop where
  below : ∀ disk path keep names spot, disk.root.Proper → disk.locate? path = some names →
    spot ∈ search disk path keep → disk.Below path names spot

variable {disk : Disk}

theorem below_self {path : String} {names : List String} {tree : FileTree} (located : disk.locate? path = some names)
    (present : disk.root.get? names = some tree) : disk.Below path names ⟨path, tree.isFolder⟩ :=
  ⟨[], by simp, by simpa using located, by simp [shape?_eq, present]⟩

theorem Disk.Below.of_child {above name : String} {names : List String} {spot : Spot} (nonempty : above ≠ "")
    (isName : Path.IsName name) (below : disk.Below (Path.child above name) (names ++ [name]) spot) :
    disk.Below above names spot := by
  obtain ⟨way, written, located, shape⟩ := below
  rw [Path.parts_child nonempty isName, List.append_assoc] at written
  rw [List.append_assoc] at located shape
  exact ⟨name :: way, written, located, shape⟩

mutual

theorem below_spotsAt (keep : Spot → Bool) (place : Place) {tree : FileTree} (proper : tree.Proper)
    (located : disk.locate? place.path = some place.names) (present : disk.root.get? place.names = some tree) :
    ∀ spot ∈ spotsAt keep place tree, disk.Below place.path place.names spot := by
  have self := below_self located present
  match tree with
  | file contents =>
    intro spot member
    rw [List.mem_singleton.mp member]
    exact self
  | folder entries =>
    rw [spotsAt, List.forall_mem_cons]
    exact ⟨self, below_spotsIn keep (place.enter entries) located present (fun name entry => lookup_of_mem proper.1)
      (allProper_iff.mp proper.2)⟩

theorem below_spotsIn (keep : Spot → Bool) (place : Place) {whole entries : List (String × FileTree)}
    (located : disk.locate? place.path = some place.names) (present : disk.root.get? place.names = some (folder whole))
    (known : ∀ name entry, (name, entry) ∈ entries → whole.lookup name = some entry)
    (proper : ∀ pair ∈ entries, Path.IsName pair.1 ∧ pair.2.Proper) :
    ∀ spot ∈ spotsIn keep place entries, disk.Below place.path place.names spot := by
  match entries with
  | [] => exact fun spot member => absurd member List.not_mem_nil
  | (name, entry) :: rest =>
    obtain ⟨⟨isName, here⟩, others⟩ := List.forall_mem_cons.mp proper
    have found := known name entry List.mem_cons_self
    have first := Disk.locate?_child located present found isName
    have there : disk.root.get? (place.names ++ [name]) = some entry := (get?_concat present name).trans found
    have nonempty := (Disk.follow_of_locate? located).1
    have later := below_spotsIn keep place located present
      (fun name entry member => known name entry (List.mem_cons_of_mem _ member)) others
    rw [spotsIn]
    split
    · exact later
    · split
      · rw [List.forall_mem_append]
        refine ⟨?_, later⟩
        intro spot member
        exact (below_spotsAt keep (place.child name) here first there spot member).of_child nonempty isName
      · exact later

end

theorem lawful_builtin : Search.builtin.Lawful where
  below := by
    intro disk path keep names spot proper located member
    rw [Search.builtin, located] at member
    dsimp only at member
    cases present : disk.root.get? names with
    | none =>
      rw [present] at member
      cases member
    | some tree =>
      rw [present] at member
      exact below_spotsAt keep ⟨path, names, _⟩ (proper.get? present) located present spot member

end TreeLint
