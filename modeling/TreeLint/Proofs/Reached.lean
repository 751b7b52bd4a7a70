import Mathlib.Data.List.Dedup
import TreeLint.Proofs.DryRun
import TreeLint.Proofs.Searches
import TreeLint.Proofs.Visits

/-! The files that a run reaches. What is collected below a path is written like that path, so a file that is reached by
one way of writing is analysed once, and a file that is reached by several is analysed once for each of them. -/

namespace TreeLint

namespace Disk
open TreeLint.Path TreeLint.FileTree

def collected (disk : Disk) (search : Search) (excluded paths : List String) : List String :=
  paths.flatMap fun path => (disk.collect search path excluded).files

/-- The files that are collected, each once, whatever paths lead to them. -/
def reached (disk : Disk) (search : Search) (excluded paths : List String) : List (List String) :=
  ((disk.collected search excluded paths).filterMap disk.locate?).dedup

def kept (disk : Disk) (search : Search) (excluded paths : List String) : List String :=
  dropRepeated ((disk.collected search excluded paths).mergeSort le)

/-- No file is collected by two different paths. -/
def OneWay (disk : Disk) (search : Search) (excluded paths : List String) : Prop :=
  ∀ first ∈ disk.collected search excluded paths, ∀ second ∈ disk.collected search excluded paths,
    disk.locate? first = disk.locate? second → same first second

/-- What is collected are files, and each is written like a path that is asked for. -/
def Placed (disk : Disk) (search : Search) (excluded paths : List String) : Prop :=
  ∀ path ∈ disk.collected search excluded paths, disk.isFile path ∧
    ∃ above ∈ paths, ∃ way : List String, parts path = parts above ++ way.map .name

variable {disk : Disk} {search : Search} {excluded paths : List String}

/-- A lawful search places all that is collected. -/
theorem placed_of_lawful (lawful : search.Lawful) (proper : disk.root.Proper)
    (present : ∀ path ∈ paths, disk.pathExists path) : disk.Placed search excluded paths := by
  intro path member
  obtain ⟨above, asked, found⟩ := List.mem_flatMap.mp member
  rw [collect] at found
  split at found
  next own =>
    rw [List.mem_singleton.mp found]
    exact ⟨own, above, asked, [], by simp⟩
  next =>
    obtain ⟨spot, searched, here⟩ := List.mem_map.mp (List.mem_mergeSort.mp found)
    obtain ⟨reached, source⟩ := List.mem_filter.mp searched
    obtain ⟨names, located⟩ := exists_place_of_pathExists (present above asked)
    obtain ⟨way, written, leads, shape⟩ := lawful.below disk above _ names spot proper located reached
    have isFile : spot.isFolder = false := by
      rw [Spot.isSource, Bool.and_eq_true, Bool.not_eq_true'] at source
      exact source.1
    subst here
    rw [isFile] at shape
    exact ⟨isFile_iff.mpr ⟨_, leads, shape⟩, above, asked, way, written⟩

theorem exists_place (placed : disk.Placed search excluded paths) {path : String}
    (member : path ∈ disk.collected search excluded paths) : ∃ names, disk.locate? path = some names := by
  obtain ⟨names, located, _⟩ := isFile_iff.mp (placed path member).1
  exact ⟨names, located⟩

theorem mem_collected_of_kept {path : String} (member : path ∈ disk.kept search excluded paths) :
    path ∈ disk.collected search excluded paths :=
  List.mem_mergeSort.mp ((dropRepeated_sublist _).subset member)

theorem exists_same_kept {path : String} (member : path ∈ disk.collected search excluded paths) :
    ∃ other ∈ disk.kept search excluded paths, same other path :=
  exists_kept (List.mem_mergeSort.mpr member)

theorem nodup_keys_kept : ((disk.kept search excluded paths).map key).Nodup := by
  have strict := pairwise_dropRepeated (pairwise_mergeSort (disk.collected search excluded paths))
  exact List.Pairwise.map _ (fun first second below => ne_of_lt below) strict

theorem nodup_kept : (disk.kept search excluded paths).Nodup :=
  nodup_keys_kept.of_map _

theorem eq_of_same_kept {first second : String} (one : first ∈ disk.kept search excluded paths)
    (two : second ∈ disk.kept search excluded paths) (alike : same first second) : first = second :=
  List.inj_on_of_nodup_map nodup_keys_kept one two (same_iff.mp alike)

/-- Two spellings of one path lead to the same file, if they lead anywhere. -/
theorem locate?_eq_of_same {first second : String} {names others : List String}
    (one : disk.locate? first = some names) (two : disk.locate? second = some others) (alike : same first second) :
    names = others := by
  have followed := (follow_of_locate? one).2
  rw [of_decide_eq_true alike, (follow_of_locate? two).2] at followed
  exact (Option.some.inj followed).symm

theorem locate?_same {first second : String} (placed : disk.Placed search excluded paths)
    (one : first ∈ disk.collected search excluded paths) (two : second ∈ disk.collected search excluded paths)
    (alike : same first second) : disk.locate? first = disk.locate? second := by
  obtain ⟨names, located⟩ := exists_place placed one
  obtain ⟨others, there⟩ := exists_place placed two
  rw [located, there, locate?_eq_of_same located there alike]

theorem nodup_places_iff (placed : disk.Placed search excluded paths) :
    ((disk.kept search excluded paths).map disk.locate?).Nodup ↔ disk.OneWay search excluded paths := by
  rw [List.nodup_map_iff_inj_on nodup_kept]
  constructor
  · intro apart first one second two together
    obtain ⟨kept, present, like⟩ := exists_same_kept one
    obtain ⟨other, there, alike⟩ := exists_same_kept two
    have equal : kept = other := by
      apply apart kept present other there
      rw [locate?_same placed (mem_collected_of_kept present) one like, together,
        locate?_same placed (mem_collected_of_kept there) two alike]
    subst equal
    exact same_iff.mpr ((same_iff.mp like).symm.trans (same_iff.mp alike))
  · intro oneWay first one second two together
    exact eq_of_same_kept one two (oneWay first (mem_collected_of_kept one) second (mem_collected_of_kept two) together)

theorem mem_reached (placed : disk.Placed search excluded paths) {names : List String} :
    names ∈ disk.reached search excluded paths ↔
      ∃ path ∈ disk.kept search excluded paths, disk.locate? path = some names := by
  rw [reached, List.mem_dedup, List.mem_filterMap]
  constructor
  · intro ⟨path, member, located⟩
    obtain ⟨kept, present, like⟩ := exists_same_kept member
    exact ⟨kept, present, (locate?_same placed (mem_collected_of_kept present) member like).trans located⟩
  · intro ⟨path, member, located⟩
    exact ⟨path, mem_collected_of_kept member, located⟩

theorem length_reached (placed : disk.Placed search excluded paths) :
    (disk.reached search excluded paths).length = ((disk.kept search excluded paths).map disk.locate?).dedup.length := by
  have once : ((disk.reached search excluded paths).map some).Nodup :=
    (List.nodup_dedup _).map fun _ _ => Option.some.inj
  have both : ((disk.reached search excluded paths).map some).Perm
      ((disk.kept search excluded paths).map disk.locate?).dedup := by
    rw [List.perm_ext_iff_of_nodup once (List.nodup_dedup _)]
    intro place
    rw [List.mem_dedup, List.mem_map, List.mem_map]
    constructor
    · intro ⟨names, member, same⟩
      rw [← same]
      exact (mem_reached placed).mp member
    · intro ⟨path, member, same⟩
      obtain ⟨names, located⟩ := exists_place placed (mem_collected_of_kept member)
      exact ⟨names, (mem_reached placed).mpr ⟨path, member, located⟩, located.symm.trans same⟩
  rw [← both.length_eq, List.length_map]

/-- As many files are kept as are reached exactly if each is collected by one path. -/
theorem length_kept_eq_iff (placed : disk.Placed search excluded paths) :
    (disk.kept search excluded paths).length = (disk.reached search excluded paths).length ↔
      disk.OneWay search excluded paths := by
  rw [← nodup_places_iff placed, length_reached placed, ← List.dedup_eq_self]
  constructor
  · intro lengths
    exact (List.dedup_sublist _).eq_of_length (by rw [List.length_map, lengths])
  · intro whole
    rw [whole, List.length_map]

theorem length_kept :
    (disk.kept search excluded paths).length = ((disk.collected search excluded paths).map parts).dedup.length := by
  have apart : ((disk.kept search excluded paths).map parts).Nodup := by
    rw [List.nodup_map_iff_inj_on nodup_kept]
    intro first one second two alike
    exact eq_of_same_kept one two (decide_eq_true alike)
  have both : ((disk.kept search excluded paths).map parts).Perm
      ((disk.collected search excluded paths).map parts).dedup := by
    rw [List.perm_ext_iff_of_nodup apart (List.nodup_dedup _)]
    intro spelled
    rw [List.mem_dedup, List.mem_map, List.mem_map]
    constructor
    · intro ⟨path, member, written⟩
      exact ⟨path, mem_collected_of_kept member, written⟩
    · intro ⟨path, member, written⟩
      obtain ⟨kept, present, like⟩ := exists_same_kept member
      exact ⟨kept, present, (of_decide_eq_true like).trans written⟩
  rw [← both.length_eq, List.length_map]

theorem oneWay_of_alike (placed : disk.Placed search excluded paths) (alike : WrittenAlike paths) :
    disk.OneWay search excluded paths := by
  obtain ⟨lead, written⟩ := alike
  -- All paths start with the same lead, which leads to one place, and go on from there by names.
  have onward : ∀ path ∈ disk.collected search excluded paths, ∃ way base : List String,
      parts path = lead ++ way.map .name ∧ disk.root.follow disk.work lead = some base ∧
        disk.locate? path = some (base ++ way) := by
    intro path member
    obtain ⟨isFile, above, asked, below, spelled⟩ := placed path member
    obtain ⟨place, located, _⟩ := isFile_iff.mp isFile
    obtain ⟨names, prefixed⟩ := written above asked
    rw [prefixed, List.append_assoc, ← List.map_append] at spelled
    have followed := (follow_of_locate? located).2
    rw [spelled, follow_append, Option.bind_eq_some_iff] at followed
    obtain ⟨base, start, rest⟩ := followed
    exact ⟨names ++ below, base, spelled, start, by rw [located, follow_names rest]⟩
  intro first one second two together
  obtain ⟨way, base, spelled, start, located⟩ := onward first one
  obtain ⟨other, again, spelledOther, sameStart, there⟩ := onward second two
  obtain rfl : base = again := Option.some.inj (start.symm.trans sameStart)
  rw [located, there, Option.some_inj, List.append_cancel_left_eq] at together
  exact decide_eq_true (by rw [spelled, spelledOther, together])

def leads (disk : Disk) (names : List String) (path : String) : Bool :=
  disk.locate? path = some names

end Disk

/-- One report for each file that is reached, and of no file anything that its one analysis does not say. -/
structure AnalysedOnce (options : Options) (search : Search) (disk : Disk) (paths : List String) (report : RunReport) :
    Prop where
  files : report.summary.files = (disk.reached search options.excludedFolders paths).length
  each : ∀ names ∈ disk.reached search options.excludedFolders paths, ∃ path, disk.locate? path = some names ∧
    report.findings.filter (fun finding => disk.leads names finding.file) = (options.analyzeFile disk path).findings ∧
    report.fixes.filter (fun fixes => disk.leads names fixes.file) = (options.analyzeFile disk path).fixes.toList ∧
    report.failures.filter (fun failure => disk.leads names failure.file) = (options.analyzeFile disk path).failure.toList

structure FileReport.About (path : String) (report : FileReport) : Prop where
  findings : ∀ finding ∈ report.findings, finding.file = path
  fixes : ∀ fixes ∈ report.fixes.toList, fixes.file = path
  failure : ∀ failure ∈ report.failure.toList, failure.file = path

theorem FileReport.about_failed (path error : String) (lines : Nat) :
    About path { failure := some ⟨path, error⟩, lines := lines } := by
  constructor <;> simp

theorem flatMap_eq_of_single {α β : Type} {items : List α} {item : α} (distinct : items.Nodup) (member : item ∈ items)
    {read : α → List β} (others : ∀ other ∈ items, other ≠ item → read other = []) : items.flatMap read = read item := by
  obtain ⟨front, back, rfl⟩ := List.append_of_mem member
  obtain ⟨_, later, apart⟩ := List.nodup_append.mp distinct
  have before : front.flatMap read = [] := by
    rw [List.flatMap_eq_nil_iff]
    intro other early
    exact others other (by simp [early]) (apart other early item (by simp))
  have after : back.flatMap read = [] := by
    rw [List.flatMap_eq_nil_iff]
    intro other late
    apply others other (by simp [late])
    intro same
    exact (List.nodup_cons.mp later).1 (same ▸ late)
  rw [List.flatMap_append, List.flatMap_cons, before, after, List.nil_append, List.append_nil]

namespace Options

theorem about_analyze (options : Options) (file source : String) (concrete : Concrete) :
    (options.analyze file source concrete).About file := by
  refine ⟨?_, ?_, ?_⟩
  · intro finding member
    have found := (List.mem_filter.mp member).1
    rw [findings_eq] at found
    obtain ⟨defect, _, same⟩ := List.mem_map.mp found
    rw [← same]
    rfl
  · intro fixes member
    rw [analyze, Option.mem_toList] at member
    dsimp only at member
    split at member
    · cases member; rfl
    · cases member
  · intro failure member
    cases member

theorem about_analyzeFile (options : Options) (disk : Disk) (path : String) :
    (options.analyzeFile disk path).About path := by
  rw [analyzeFile]
  split
  · exact about_analyze ..
  all_goals exact FileReport.about_failed ..

variable {options : Options} {search : Search} {disk : Disk} {paths : List String}

/-- What the reports on the files that are kept say of one of them, as long as no other path leads there. -/
theorem filter_told {α : Type} {names : List String} {path : String}
    (alone : ((disk.kept search options.excludedFolders paths).map disk.locate?).Nodup)
    (member : path ∈ disk.kept search options.excludedFolders paths) (located : disk.locate? path = some names)
    (tell : FileReport → List α) (file : α → String)
    (own : ∀ path, ∀ item ∈ tell (options.analyzeFile disk path), file item = path) :
    (((disk.kept search options.excludedFolders paths).map (options.analyzeFile disk)).flatMap tell).filter
      (fun item => disk.leads names (file item)) = tell (options.analyzeFile disk path) := by
  rw [List.flatMap_map, List.filter_flatMap, flatMap_eq_of_single Disk.nodup_kept member]
  · rw [List.filter_eq_self]
    intro item told
    rw [own path item told]
    exact decide_eq_true located
  · intro other present apart
    rw [List.filter_eq_nil_iff]
    intro item told leads
    rw [own other item told] at leads
    exact apart (List.inj_on_of_nodup_map alone present member ((of_decide_eq_true leads).trans located.symm))

theorem analysedOnce_iff (placed : disk.Placed search options.excludedFolders paths) :
    AnalysedOnce options search disk paths
        (.ofReports ((disk.kept search options.excludedFolders paths).map (options.analyzeFile disk))) ↔
      disk.OneWay search options.excludedFolders paths := by
  have files : (RunReport.ofReports
      ((disk.kept search options.excludedFolders paths).map (options.analyzeFile disk))).summary.files =
      (disk.kept search options.excludedFolders paths).length := List.length_map ..
  constructor
  · intro once
    rw [← Disk.length_kept_eq_iff placed, ← files, once.files]
  · intro oneWay
    have alone := (Disk.nodup_places_iff placed).mpr oneWay
    refine ⟨files.trans ((Disk.length_kept_eq_iff placed).mpr oneWay), ?_⟩
    intro names member
    obtain ⟨path, present, located⟩ := (Disk.mem_reached placed).mp member
    have about := about_analyzeFile options disk
    have findings := filter_told alone present located FileReport.findings Finding.file fun path => (about path).findings
    have fixes := filter_told alone present located (fun report => report.fixes.toList) FileFixes.file
      fun path => (about path).fixes
    have failures := filter_told alone present located (fun report => report.failure.toList) ReadFailure.file
      fun path => (about path).failure
    rw [← List.filterMap_eq_flatMap_toList] at fixes failures
    exact ⟨path, located, findings, fixes, failures⟩

/-- A run reports on every path that is collected, once for all its spellings. That is once for each file exactly if no
file is collected by two different paths, as it is when all arguments are written alike. How folders are searched makes
no difference. -/
theorem run_reached (lawful : search.Lawful) (options : Options) (proper : disk.root.Proper)
    (present : ∀ path ∈ paths, disk.pathExists path) :
    ∃ report after, options.run search paths disk = (.ok report, after) ∧
      report.summary.files = ((disk.collected search options.excludedFolders paths).map Path.parts).dedup.length ∧
      (AnalysedOnce options search disk paths report ↔ disk.OneWay search options.excludedFolders paths) ∧
      (Path.WrittenAlike paths → AnalysedOnce options search disk paths report) := by
  have placed : disk.Placed search options.excludedFolders paths := Disk.placed_of_lawful lawful proper present
  rw [run_eq, Disk.sources_of_present search _ present]
  refine ⟨_, _, rfl, ?_, analysedOnce_iff placed, ?_⟩
  · exact (List.length_map ..).trans Disk.length_kept
  · intro alike
    exact (analysedOnce_iff placed).mpr (Disk.oneWay_of_alike placed alike)

def foldered : FileTree :=
  .folder [("src", Command.oneFile)]

theorem proper_oneFile : Command.oneFile.Proper :=
  ⟨by simp, ⟨by decide, by decide⟩, trivial, trivial⟩

theorem run_reached_foldered :
    Search.builtin.Lawful ∧ (Disk.ofWork foldered).root.Proper ∧
      (∀ path ∈ ["src", "src//A.cs", "src"], (Disk.ofWork foldered).pathExists path) ∧
      Path.WrittenAlike ["src", "src//A.cs", "src"] ∧
      (Disk.ofWork foldered).reached .builtin [] ["src", "src//A.cs", "src"] = [["work", "src", "A.cs"]] ∧
      ∃ report after,
        ({} : Options).run .builtin ["src", "src//A.cs", "src"] (.ofWork foldered) = (.ok report, after) ∧
          AnalysedOnce {} .builtin (.ofWork foldered) ["src", "src//A.cs", "src"] report := by
  have proper : (Disk.ofWork foldered).root.Proper :=
    Disk.proper_ofWork ⟨by simp, ⟨by decide, by decide⟩, proper_oneFile, trivial⟩
  have present : ∀ path ∈ ["src", "src//A.cs", "src"], (Disk.ofWork foldered).pathExists path := by decide +kernel
  have alike : Path.WrittenAlike ["src", "src//A.cs", "src"] := by
    have folder : ∃ names : List String, Path.parts "src" = [] ++ names.map .name := ⟨["src"], by decide +kernel⟩
    have file : ∃ names : List String, Path.parts "src//A.cs" = [] ++ names.map .name :=
      ⟨["src", "A.cs"], by decide +kernel⟩
    exact ⟨[], List.forall_mem_cons.mpr ⟨folder, List.forall_mem_cons.mpr ⟨file, List.forall_mem_singleton.mpr folder⟩⟩⟩
  have reached : (Disk.ofWork foldered).reached .builtin [] ["src", "src//A.cs", "src"] = [["work", "src", "A.cs"]] := by
    decide +kernel
  obtain ⟨report, after, done, _, _, once⟩ := run_reached lawful_builtin {} proper present
  exact ⟨lawful_builtin, proper, present, alike, reached, report, after, done, once alike⟩

/-- A file that is asked for by its name and, once more, with a dot in front is analysed twice. -/
theorem run_repeated_oneFile :
    (Disk.ofWork Command.oneFile).root.Proper ∧
      (∀ path ∈ ["A.cs", "./A.cs"], (Disk.ofWork Command.oneFile).pathExists path) ∧
      (Disk.ofWork Command.oneFile).reached .builtin [] ["A.cs", "./A.cs"] = [["work", "A.cs"]] ∧
      ∃ report after, ({} : Options).run .builtin ["A.cs", "./A.cs"] (.ofWork Command.oneFile) = (.ok report, after) ∧
        report.summary.files = 2 ∧ report.findings.map Finding.file = ["./A.cs", "A.cs"] ∧
        ¬ AnalysedOnce {} .builtin (.ofWork Command.oneFile) ["A.cs", "./A.cs"] report := by
  have present : ∀ path ∈ ["A.cs", "./A.cs"], (Disk.ofWork Command.oneFile).pathExists path := by decide +kernel
  have reached : (Disk.ofWork Command.oneFile).reached .builtin [] ["A.cs", "./A.cs"] = [["work", "A.cs"]] := by
    decide +kernel
  have sources : (Disk.ofWork Command.oneFile).sources .builtin [] ["A.cs", "./A.cs"] = .ok ["./A.cs", "A.cs"] :=
    Disk.sources_of_files _ _ (by decide +kernel) (by decide +kernel) (by decide +kernel) (by decide +kernel)
  refine ⟨Disk.proper_ofWork proper_oneFile, present, reached, ?_⟩
  rw [run_eq, show ({} : Options).excludedFolders = [] from rfl, sources]
  refine ⟨_, _, rfl, rfl, by decide +kernel, ?_⟩
  intro once
  have files := once.files
  rw [show ({} : Options).excludedFolders = [] from rfl, reached] at files
  cases files

end Options

end TreeLint
