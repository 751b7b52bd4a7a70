import Mathlib.Data.List.Nodup
import TreeLint.Files.Listing
import TreeLint.Proofs.Spelling

/-! Where paths lead on a disk. Putting a file in place of another one changes what stands there and not where anything
stands, so all paths keep their meaning. On a proper disk, whose folders have each name once, the path of an entry leads
to the entry. -/

namespace TreeLint

/-- What is seen at a place without looking below it. -/
inductive Sight where
  | folder
  | file (contents : Contents)

def Sight.isFolder : Sight → Bool
  | folder => true
  | file _ => false

namespace FileTree

def sight : FileTree → Sight
  | folder _ => .folder
  | file contents => .file contents

def sight? (tree : FileTree) (names : List String) : Option Sight :=
  (tree.get? names).map sight

theorem sight?_cons (tree : FileTree) (name : String) (names : List String) :
    tree.sight? (name :: names) = (tree.entry? name).bind fun entry => entry.sight? names := by
  rw [sight?, get?]
  cases tree.entry? name <;> rfl

theorem sight?_eq_file {tree : FileTree} {names : List String} {contents : Contents} :
    tree.sight? names = some (.file contents) ↔ tree.get? names = some (file contents) := by
  rw [sight?, Option.map_eq_some_iff]
  constructor
  · intro ⟨found, present, seen⟩
    cases found with
    | folder entries => cases seen
    | file other => cases seen; exact present
  · intro present
    exact ⟨_, present, rfl⟩

theorem lookup_cons_eq (name other : String) (entry : FileTree) (rest : List (String × FileTree)) :
    ((name, entry) :: rest).lookup other = if other = name then some entry else rest.lookup other := by
  rw [List.lookup_cons]
  by_cases same : other = name
  · simp [same]
  · rw [beq_false_of_ne same, if_neg same]

theorem lookup_putEntry (name other : String) (entry : FileTree) (entries : List (String × FileTree)) :
    (putEntry name entry entries).lookup other = if other = name then some entry else entries.lookup other := by
  induction entries with
  | nil => exact lookup_cons_eq name other entry []
  | cons first rest ih =>
    obtain ⟨here, old⟩ := first
    rw [putEntry]
    by_cases found : here = name
    · subst found
      rw [if_pos rfl, lookup_cons_eq, lookup_cons_eq]
      by_cases same : other = here <;> simp [same]
    · rw [if_neg found, lookup_cons_eq, lookup_cons_eq, ih]
      by_cases same : other = here
      · simp [same, found]
      · simp [same]

theorem entry?_put (tree : FileTree) (name other : String) (names : List String) (entry : FileTree) :
    entry? (tree.put (name :: names) entry) other =
      if other = name then some (((tree.entry? name).getD empty).put names entry) else tree.entry? other := by
  cases tree with
  | folder entries => exact lookup_putEntry ..
  | file contents => exact lookup_cons_eq ..

theorem sight?_put {tree : FileTree} {names : List String} {old : Contents}
    (present : tree.sight? names = some (.file old)) (new : Contents) (place : List String) :
    (tree.put names (file new)).sight? place = if place = names then some (.file new) else tree.sight? place := by
  induction names generalizing tree place with
  | nil =>
    have whole : tree = file old := Option.some.inj (sight?_eq_file.mp present)
    cases place with
    | nil => rfl
    | cons other below => rw [whole, if_neg (by simp)]; rfl
  | cons name rest ih =>
    rw [sight?_cons, Option.bind_eq_some_iff] at present
    obtain ⟨entry, here, inside⟩ := present
    cases place with
    | nil =>
      cases tree with
      | folder entries => rw [if_neg (by simp)]; rfl
      | file contents => cases here
    | cons other below =>
      rw [sight?_cons, entry?_put, here, Option.getD_some]
      by_cases same : other = name
      · subst same
        rw [if_pos rfl, Option.bind_some, ih inside, sight?_cons, here, Option.bind_some]
        simp
      · rw [if_neg same, ← sight?_cons, if_neg (by simp [same])]

def shape? (tree : FileTree) (names : List String) : Option Bool :=
  (tree.sight? names).map Sight.isFolder

theorem shape?_eq (tree : FileTree) (names : List String) : tree.shape? names = (tree.get? names).map isFolder := by
  rw [shape?, sight?, Option.map_map]
  congr 1
  funext found
  cases found <;> rfl

theorem follow_cons (tree : FileTree) (names : List String) (part : Path.Part) (rest : List Path.Part) :
    tree.follow names (part :: rest) =
      if part = .root then tree.follow [] rest
      else if tree.shape? names = some true then
        match part with
        | .up => tree.follow names.dropLast rest
        | .name text => if (tree.shape? (names ++ [text])).isSome then tree.follow (names ++ [text]) rest else none
        | _ => tree.follow names rest
      else none := by
  rw [follow.eq_def, shape?_eq]
  simp only [shape?_eq]
  cases part with
  | root => rfl
  | _ =>
    cases tree.get? names with
    | none => rfl
    | some found =>
      cases found with
      | file contents => rfl
      | folder entries => simp [isFolder]

theorem follow_congr {first second : FileTree} (alike : first.shape? = second.shape?) (names : List String)
    (parts : List Path.Part) : first.follow names parts = second.follow names parts := by
  induction parts generalizing names with
  | nil => rfl
  | cons part rest ih => simp only [follow_cons, alike, ih]

variable {tree : FileTree}

theorem follow_append (names : List String) (first second : List Path.Part) :
    tree.follow names (first ++ second) = (tree.follow names first).bind fun middle => tree.follow middle second := by
  induction first generalizing names with
  | nil => rfl
  | cons part rest ih =>
    simp only [List.cons_append, follow_cons, ih]
    split
    · rfl
    · split
      · cases part with
        | root => rfl
        | here => rfl
        | up => rfl
        | name text => dsimp only; split <;> rfl
      · rfl

theorem follow_names {start names found : List String} (followed : tree.follow start (names.map .name) = some found) :
    found = start ++ names := by
  induction names generalizing start with
  | nil => simpa [follow] using followed.symm
  | cons name rest ih =>
    rw [List.map_cons, follow_cons, if_neg (by simp)] at followed
    split at followed
    · dsimp only at followed
      split at followed
      · rw [ih followed, List.append_assoc, List.singleton_append]
      · cases followed
    · cases followed

theorem get?_cons (tree : FileTree) (name : String) (names : List String) :
    tree.get? (name :: names) = (tree.entry? name).bind fun entry => entry.get? names := by
  rw [get?]
  cases tree.entry? name <;> rfl

theorem get?_append (tree : FileTree) (first second : List String) :
    tree.get? (first ++ second) = (tree.get? first).bind fun found => found.get? second := by
  induction first generalizing tree with
  | nil => rfl
  | cons name rest ih =>
    rw [List.cons_append, get?_cons, get?_cons]
    cases tree.entry? name with
    | none => rfl
    | some entry => exact ih entry

theorem get?_concat {names : List String} {entries : List (String × FileTree)}
    (present : tree.get? names = some (folder entries)) (name : String) :
    tree.get? (names ++ [name]) = entries.lookup name := by
  rw [get?_append, present, Option.bind_some, get?_cons, entry?]
  cases entries.lookup name <;> rfl

mutual

/-- Every folder has each name once, and its names can be parts of paths. -/
def Proper : FileTree → Prop
  | file _ => True
  | folder entries => (entries.map Prod.fst).Nodup ∧ AllProper entries

def AllProper : List (String × FileTree) → Prop
  | [] => True
  | (name, entry) :: rest => Path.IsName name ∧ entry.Proper ∧ AllProper rest

end

theorem allProper_iff {entries : List (String × FileTree)} :
    AllProper entries ↔ ∀ pair ∈ entries, Path.IsName pair.1 ∧ pair.2.Proper := by
  induction entries with
  | nil => simp [AllProper]
  | cons pair rest ih => simp [AllProper, ih, and_assoc]

theorem lookup_of_mem {entries : List (String × FileTree)} (distinct : (entries.map Prod.fst).Nodup) {name : String}
    {entry : FileTree} (member : (name, entry) ∈ entries) : entries.lookup name = some entry := by
  induction entries with
  | nil => cases member
  | cons pair rest ih =>
    obtain ⟨other, first⟩ := pair
    rw [List.map_cons, List.nodup_cons] at distinct
    rw [lookup_cons_eq]
    rcases List.mem_cons.mp member with here | later
    · cases here
      rw [if_pos rfl]
    · have apart : name ≠ other := by
        intro same
        exact distinct.1 (same ▸ List.mem_map.mpr ⟨_, later, rfl⟩)
      rw [if_neg apart]
      exact ih distinct.2 later

theorem Proper.entry? {entry : FileTree} {name : String} (proper : tree.Proper) (found : tree.entry? name = some entry) :
    Path.IsName name ∧ entry.Proper := by
  cases tree with
  | file contents => cases found
  | folder entries =>
    obtain ⟨front, back, rfl, _⟩ := List.lookup_eq_some_iff.mp found
    exact allProper_iff.mp proper.2 (name, entry) (by simp)

theorem Proper.get? {found : FileTree} {names : List String} (proper : tree.Proper)
    (present : tree.get? names = some found) : found.Proper := by
  induction names generalizing tree with
  | nil => cases present; exact proper
  | cons name rest ih =>
    rw [get?_cons, Option.bind_eq_some_iff] at present
    obtain ⟨entry, here, below⟩ := present
    exact ih (proper.entry? here).2 below

theorem mem_putEntry {name : String} {entry : FileTree} {entries : List (String × FileTree)} {pair : String × FileTree}
    (member : pair ∈ putEntry name entry entries) : pair = (name, entry) ∨ pair ∈ entries := by
  induction entries with
  | nil => exact .inl (List.mem_singleton.mp member)
  | cons first rest ih =>
    rw [putEntry] at member
    split at member
    · rcases List.mem_cons.mp member with new | later
      · exact .inl new
      · exact .inr (List.mem_cons_of_mem _ later)
    · rcases List.mem_cons.mp member with rfl | later
      · exact .inr List.mem_cons_self
      · exact (ih later).imp_right (List.mem_cons_of_mem _)

theorem nodup_putEntry {name : String} {entry : FileTree} {entries : List (String × FileTree)}
    (distinct : (entries.map Prod.fst).Nodup) : ((putEntry name entry entries).map Prod.fst).Nodup := by
  induction entries with
  | nil => exact List.nodup_singleton _
  | cons first rest ih =>
    obtain ⟨apart, others⟩ := List.nodup_cons.mp distinct
    rw [putEntry]
    split
    next same => exact same ▸ distinct
    next other =>
      rw [List.map_cons, List.nodup_cons]
      refine ⟨?_, ih others⟩
      intro member
      obtain ⟨pair, among, same⟩ := List.mem_map.mp member
      rcases mem_putEntry among with rfl | old
      · exact other same.symm
      · exact apart (List.mem_map.mpr ⟨pair, old, same⟩)

theorem proper_empty : empty.Proper :=
  ⟨List.nodup_nil, trivial⟩

theorem Proper.put {entry : FileTree} {names : List String} (proper : tree.Proper) (fresh : entry.Proper)
    (isNames : ∀ name ∈ names, Path.IsName name) : (tree.put names entry).Proper := by
  induction names generalizing tree with
  | nil => exact fresh
  | cons name rest ih =>
    obtain ⟨isName, others⟩ := List.forall_mem_cons.mp isNames
    have below : (((tree.entry? name).getD empty).put rest entry).Proper := by
      apply ih _ others
      cases found : tree.entry? name with
      | none => exact proper_empty
      | some old => exact (proper.entry? found).2
    cases tree with
    | file contents => exact ⟨List.nodup_singleton _, isName, below, trivial⟩
    | folder entries =>
      refine ⟨nodup_putEntry proper.1, allProper_iff.mpr ?_⟩
      intro pair member
      rcases mem_putEntry member with rfl | old
      · exact ⟨isName, below⟩
      · exact allProper_iff.mp proper.2 pair old

theorem Proper.add {entry : FileTree} (proper : tree.Proper) (fresh : entry.Proper) (path : String) :
    (tree.add path entry).Proper := by
  unfold FileTree.add
  dsimp only
  split
  · exact proper
  · exact proper.put fresh fun name => Path.isName_of_mem_names

theorem proper_foldl_add {files : List (String × FileTree)} (fresh : ∀ pair ∈ files, pair.2.Proper)
    (proper : tree.Proper) : (files.foldl (fun tree (path, entry) => tree.add path entry) tree).Proper := by
  induction files generalizing tree with
  | nil => exact proper
  | cons pair rest ih =>
    obtain ⟨here, later⟩ := List.forall_mem_cons.mp fresh
    exact ih later (proper.add here pair.1)

end FileTree

namespace Disk
open TreeLint.FileTree

/-- A path leads to the same place as long as everything stands where it stood. -/
theorem locate?_congr {first second : Disk} (alike : first.root.shape? = second.root.shape?)
    (sameWork : first.work = second.work) (path : String) : first.locate? path = second.locate? path := by
  simp only [locate?, sameWork, follow_congr alike, ← shape?_eq, alike]

variable {disk : Disk}

theorem follow_of_locate? {path : String} {names : List String} (located : disk.locate? path = some names) :
    path ≠ "" ∧ disk.root.follow disk.work (Path.parts path) = some names := by
  unfold locate? at located
  split at located
  · cases located
  next nonempty =>
    split at located
    · cases located
    next followed =>
      dsimp only at located
      split at located
      · cases located
      · cases located
        exact ⟨nonempty, followed⟩

/-- The path of an entry leads to the entry. -/
theorem locate?_child {path name : String} {names : List String} {entries : List (String × FileTree)} {entry : FileTree}
    (located : disk.locate? path = some names) (present : disk.root.get? names = some (folder entries))
    (known : entries.lookup name = some entry) (isName : Path.IsName name) :
    disk.locate? (Path.child path name) = some (names ++ [name]) := by
  obtain ⟨nonempty, followed⟩ := follow_of_locate? located
  obtain ⟨first, rest, pieces, _⟩ := Path.split_child nonempty isName
  have longer : Path.child path name ≠ "" := by
    intro empty
    rw [empty] at pieces
    cases rest <;> cases pieces
  have inside : disk.root.follow disk.work (Path.parts (Path.child path name)) = some (names ++ [name]) := by
    have isFolder : disk.root.shape? names = some true := by rw [shape?_eq, present]; rfl
    have there : (disk.root.shape? (names ++ [name])).isSome := by rw [shape?_eq, get?_concat present, known]; rfl
    rw [Path.parts_child nonempty isName, follow_append, followed, Option.bind_some, follow_cons, if_neg (by simp),
      if_pos isFolder]
    dsimp only
    rw [if_pos there, follow]
  -- The last piece is a name, so the path may lead to a file.
  have last : (Text.split (Path.child path name) '/').getLast? = some name := by
    rw [pieces, ← List.cons_append, List.getLast?_concat]
  rw [locate?, if_neg longer, inside]
  simp [last, isName.part]

theorem isFile_iff {path : String} :
    disk.isFile path ↔ ∃ names, disk.locate? path = some names ∧ disk.root.shape? names = some false := by
  rw [isFile, at?]
  cases disk.locate? path with
  | none => simp
  | some names =>
    simp only [shape?_eq, Option.some.injEq, exists_eq_left']
    cases disk.root.get? names with
    | none => simp
    | some tree => cases tree <;> simp [isFolder]

theorem pathExists_of_isFile {path : String} (isFile : disk.isFile path) : disk.pathExists path := by
  obtain ⟨names, located, shape⟩ := isFile_iff.mp isFile
  rw [shape?_eq, Option.map_eq_some_iff] at shape
  obtain ⟨tree, present, _⟩ := shape
  rw [pathExists, at?, located]
  simp [present]

theorem exists_place_of_pathExists {path : String} (present : disk.pathExists path) :
    ∃ names, disk.locate? path = some names := by
  rw [pathExists, at?] at present
  cases located : disk.locate? path with
  | none =>
    rw [located] at present
    cases present
  | some names => exact ⟨names, rfl⟩

theorem sources_of_present {paths : List String} (search : Search) (excluded : List String)
    (present : ∀ path ∈ paths, disk.pathExists path) :
    disk.sources search excluded paths =
      .ok (dropRepeated ((paths.flatMap fun path => (disk.collect search path excluded).files).mergeSort Path.le)) := by
  have all : (paths.find? fun path => !disk.pathExists path) = none := by
    simpa using present
  rw [sources, all]

/-- Files that are asked for are kept in the order of paths, however folders are searched. -/
theorem sources_of_files {first second : String} (search : Search) (excluded : List String) (one : disk.isFile first)
    (two : disk.isFile second) (order : Path.le first second = false) (apart : Path.same second first = false) :
    disk.sources search excluded [first, second] = .ok [second, first] := by
  have present : ∀ path ∈ [first, second], disk.pathExists path :=
    List.forall_mem_cons.mpr ⟨pathExists_of_isFile one, List.forall_mem_singleton.mpr (pathExists_of_isFile two)⟩
  have found : ([first, second].flatMap fun path => (disk.collect search path excluded).files) = [first, second] := by
    simp [collect, one, two]
  rw [sources_of_present search excluded present, found]
  simp [List.mergeSort, order, dropRepeated, apart]

theorem proper_ofWork {files : FileTree} (proper : files.Proper) : (ofWork files).root.Proper :=
  ⟨List.nodup_singleton _, ⟨by decide, by decide⟩, proper, trivial⟩

/-- What a record puts in front of the rest of a listing is a file or an empty folder. -/
theorem proper_precede (record : Listing.Record) {tail : Listing.Tail} (proper : ∀ pair ∈ tail.files, pair.2.Proper) :
    ∀ pair ∈ (tail.precede record).files, pair.2.Proper := by
  cases record with
  | work path => exact proper
  | folder path => exact List.forall_mem_cons.mpr ⟨proper_empty, proper⟩
  | text path text => exact List.forall_mem_cons.mpr ⟨trivial, proper⟩
  | binary path lead => exact List.forall_mem_cons.mpr ⟨trivial, proper⟩
  | source path text => exact List.forall_mem_cons.mpr ⟨trivial, proper⟩
  | node line => exact proper

theorem proper_foldr_precede (records : List Listing.Record) :
    ∀ pair ∈ (records.foldr Listing.Tail.precede {}).files, pair.2.Proper := by
  induction records with
  | nil => exact fun pair member => absurd member List.not_mem_nil
  | cons record rest ih => exact proper_precede record ih

theorem proper_of_disk? {listing : String} (read : Listing.disk? listing = some disk) : disk.root.Proper := by
  obtain ⟨records, _, made⟩ := Option.bind_eq_some_iff.mp read
  obtain rfl := Option.some.inj made
  exact proper_foldl_add (proper_foldr_precede records) proper_empty

end Disk

end TreeLint
