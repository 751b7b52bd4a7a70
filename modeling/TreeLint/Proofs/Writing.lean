import Mathlib.Data.List.Induction
import TreeLint.Analysis.Run
import TreeLint.Proofs.Disks

/-! What a run does to the files it finds. The paths of the files that are still to be written keep their meaning while
others are written. Two paths may lead to one file; that file is then written twice, with the same text. -/

namespace TreeLint

namespace Options

def repair? (options : Options) : Sight → Option (List AppliedFix × String)
  | .file (.text source (some concrete)) =>
    let (final, applied) := options.fixed (concrete.toTree source)
    if applied.isEmpty then none else some (applied, final.text)
  | _ => none

def repaired (options : Options) (before : Sight) : Sight :=
  match options.repair? before with
  | some (_, text) => .file (.text text none)
  | none => before

theorem repair?_eq_some {options : Options} {seen : Sight} {applied : List AppliedFix} {text : String} :
    options.repair? seen = some (applied, text) ↔
      ∃ source concrete, seen = .file (.text source (some concrete)) ∧ applied ≠ [] ∧
        applied = (options.fixed (concrete.toTree source)).2 ∧ text = (options.fixed (concrete.toTree source)).1.text := by
  constructor
  · intro found
    match seen with
    | .file (.text source (some concrete)) =>
      rw [repair?] at found
      by_cases unchanged : (options.fixed (concrete.toTree source)).2.isEmpty
      · simp [unchanged] at found
      · simp only [unchanged] at found
        obtain ⟨rfl, rfl⟩ := Prod.mk.inj (Option.some.inj found)
        exact ⟨source, concrete, rfl, by simpa using unchanged, rfl, rfl⟩
  · intro ⟨source, concrete, same, changed, fixes, text⟩
    subst same fixes text
    simp [repair?, changed]

def repairAt? (options : Options) (disk : Disk) (path : String) : Option (List AppliedFix × String) :=
  (disk.locate? path).bind fun names => (disk.root.sight? names).bind options.repair?

variable (options : Options) (disk : Disk) (path : String)

theorem analyzeFile_repairs :
    (options.analyzeFile disk path).fixes =
        (options.repairAt? disk path).map (fun repair => ⟨path, repair.1, !options.dryRun⟩) ∧
      (options.analyzeFile disk path).fixedText = (options.repairAt? disk path).map Prod.snd := by
  rw [analyzeFile, repairAt?, Disk.at?]
  cases disk.locate? path with
  | none => exact ⟨rfl, rfl⟩
  | some names =>
    simp only [Option.bind_some, FileTree.sight?]
    cases disk.root.get? names with
    | none => exact ⟨rfl, rfl⟩
    | some tree =>
      cases tree with
      | folder entries => exact ⟨rfl, rfl⟩
      | file contents =>
        cases contents with
        | binary lead => exact ⟨rfl, rfl⟩
        | text source concrete =>
          cases concrete with
          | none => exact ⟨rfl, rfl⟩
          | some concrete =>
            simp only [Option.map_some, Option.bind_some, FileTree.sight, repair?, analyze]
            cases (options.fixed (concrete.toTree source)).2.isEmpty <;> exact ⟨rfl, rfl⟩

variable {options disk}

theorem store_of_repairAt?_none (state : Disk) (none : options.repairAt? disk path = none) :
    state.store (options.analyzeFile disk path) = state := by
  rw [Disk.store, (analyzeFile_repairs options disk path).1, none]
  rfl

theorem store_of_repairAt?_some {state : Disk} {names : List String} {applied : List AppliedFix} {text : String}
    (real : options.dryRun = false) (located : state.locate? path = some names)
    (found : options.repairAt? disk path = some (applied, text)) :
    state.store (options.analyzeFile disk path) =
      { state with root := state.root.put names (.file (.text text none)) } := by
  obtain ⟨fixes, fixedText⟩ := analyzeFile_repairs options disk path
  rw [Disk.store, fixes, fixedText, found]
  simp [real, Disk.writeText, located]

theorem isFolder_repaired (seen : Sight) : (options.repaired seen).isFolder = seen.isFolder := by
  rw [repaired]
  cases found : options.repair? seen with
  | none => rfl
  | some repair =>
    obtain ⟨source, concrete, rfl, _⟩ := repair?_eq_some.mp found
    rfl

theorem map_repaired {seen : Option Sight} (none : seen.bind options.repair? = none) :
    seen.map options.repaired = seen := by
  cases seen with
  | none => rfl
  | some before =>
    rw [Option.bind_some] at none
    rw [Option.map_some, repaired, none]

/-- Some files are fixed already, and all else is as it was. -/
structure Partly (options : Options) (disk state : Disk) : Prop where
  work : state.work = disk.work
  files : ∀ names, state.root.sight? names = disk.root.sight? names ∨
    state.root.sight? names = (disk.root.sight? names).map options.repaired

theorem Partly.locate?_eq {state : Disk} (partly : Partly options disk state) (path : String) :
    state.locate? path = disk.locate? path := by
  refine Disk.locate?_congr ?_ partly.work path
  funext names
  rw [FileTree.shape?, FileTree.shape?]
  rcases partly.files names with same | fixed
  · rw [same]
  · rw [fixed, Option.map_map, show Sight.isFolder ∘ options.repaired = Sight.isFolder from funext isFolder_repaired]

/-- Storing one report, as part of a run. -/
theorem Partly.store {state : Disk} (partly : Partly options disk state) (real : options.dryRun = false) :
    (state.store (options.analyzeFile disk path)).work = disk.work ∧
      ∀ names, (state.store (options.analyzeFile disk path)).root.sight? names =
        if disk.locate? path = some names then (disk.root.sight? names).map options.repaired
        else state.root.sight? names := by
  cases found : options.repairAt? disk path with
  | none =>
    rw [store_of_repairAt?_none path state found]
    refine ⟨partly.work, ?_⟩
    intro names
    split
    next located =>
      rw [repairAt?, located, Option.bind_some] at found
      rw [map_repaired found]
      rcases partly.files names with same | fixed
      · exact same
      · exact fixed.trans (map_repaired found)
    next => rfl
  | some repair =>
    obtain ⟨applied, text⟩ := repair
    obtain ⟨place, located, seen⟩ := Option.bind_eq_some_iff.mp found
    obtain ⟨before, present, fixed⟩ := Option.bind_eq_some_iff.mp seen
    obtain ⟨source, concrete, rfl, _⟩ := repair?_eq_some.mp fixed
    have there : ∃ old, state.root.sight? place = some (.file old) := by
      rcases partly.files place with same | repaired
      · exact ⟨_, same.trans present⟩
      · rw [present, Option.map_some, Options.repaired, fixed] at repaired
        exact ⟨_, repaired⟩
    obtain ⟨old, there⟩ := there
    rw [store_of_repairAt?_some path real ((partly.locate?_eq path).trans located) found]
    refine ⟨partly.work, ?_⟩
    intro names
    rw [FileTree.sight?_put there]
    by_cases here : names = place
    · subst here
      rw [if_pos rfl, if_pos located, present, Option.map_some, repaired, fixed]
    · rw [if_neg here, if_neg (by rw [located, Option.some_inj]; exact Ne.symm here)]

/-- What all reports together make of the files. -/
theorem foldl_store (real : options.dryRun = false) (paths : List String) :
    ((paths.map (options.analyzeFile disk)).foldl Disk.store disk).work = disk.work ∧
      ∀ names, ((paths.map (options.analyzeFile disk)).foldl Disk.store disk).root.sight? names =
        if names ∈ paths.filterMap disk.locate? then (disk.root.sight? names).map options.repaired
        else disk.root.sight? names := by
  induction paths using List.reverseRecOn with
  | nil => exact ⟨rfl, fun _ => rfl⟩
  | append_singleton paths path ih =>
    obtain ⟨sameWork, sights⟩ := ih
    have partly : Partly options disk ((paths.map (options.analyzeFile disk)).foldl Disk.store disk) := by
      refine ⟨sameWork, ?_⟩
      intro place
      rw [sights]
      split
      next => exact .inr rfl
      next => exact .inl rfl
    rw [List.map_append, List.foldl_append, List.map_singleton, List.foldl_cons, List.foldl_nil]
    obtain ⟨work, stored⟩ := partly.store path real
    refine ⟨work, ?_⟩
    intro names
    rw [stored, sights]
    by_cases here : disk.locate? path = some names
    · simp [here]
    · simp [here]

end Options

/-- The files afterwards hold the fixed texts that a report lists, and are otherwise as they were. -/
structure Overwritten (options : Options) (disk : Disk) (report : RunReport) (after : Disk) : Prop where
  work : after.work = disk.work
  listed : ∀ fixes ∈ report.fixes, ∃ names source concrete,
    disk.locate? fixes.file = some names ∧ disk.root.get? names = some (.file (.text source (some concrete))) ∧
      fixes.applied = (options.fixed (concrete.toTree source)).2 ∧
      after.root.get? names = some (.file (.text (options.fixed (concrete.toTree source)).1.text none))
  others : ∀ names, (∀ fixes ∈ report.fixes, disk.locate? fixes.file ≠ some names) →
    after.root.sight? names = disk.root.sight? names

def RunReport.unwritten (report : RunReport) : RunReport :=
  { report with fixes := report.fixes.map fun fixes => { fixes with written := false } }

theorem ofReports_unwritten (reports : List FileReport) :
    RunReport.ofReports (reports.map FileReport.unwritten) = (RunReport.ofReports reports).unwritten := by
  have findings : (reports.map FileReport.unwritten).flatMap FileReport.findings = reports.flatMap FileReport.findings :=
    List.flatMap_map ..
  have failures : (reports.map FileReport.unwritten).filterMap FileReport.failure = reports.filterMap FileReport.failure :=
    List.filterMap_map ..
  have lines : (reports.map FileReport.unwritten).map FileReport.lines = reports.map FileReport.lines :=
    List.map_map ..
  have fixes : (reports.map FileReport.unwritten).filterMap FileReport.fixes =
      (reports.filterMap FileReport.fixes).map fun fixes => { fixes with written := false } := by
    rw [List.filterMap_map, List.map_filterMap]
    rfl
  simp only [RunReport.ofReports, RunReport.unwritten, findings, failures, lines, fixes, List.length_map, List.map_map]
  rfl

namespace RunM

theorem get_apply (disk : Disk) : (get : RunM Disk) disk = (.ok disk, disk) :=
  rfl

theorem bind_apply {α β : Type} (first : RunM α) (next : α → RunM β) (disk : Disk) :
    (first >>= next) disk =
      match first disk with
      | (.ok value, after) => next value after
      | (.error failure, after) => (.error failure, after) := by
  show (match first disk with | (value, after) => ExceptT.bindCont next value after) = _
  rcases first disk with ⟨value | failure, after⟩ <;> rfl

theorem forM_store (reports : List FileReport) (disk : Disk) :
    (reports.forM fun report => modify fun disk => disk.store report : RunM PUnit) disk =
      (.ok ⟨⟩, reports.foldl Disk.store disk) := by
  induction reports generalizing disk with
  | nil => rfl
  | cons report rest ih => exact ih (disk.store report)

end RunM

namespace Options

theorem run_eq (options : Options) (search : Search) (paths : List String) (disk : Disk) :
    options.run search paths disk =
      match disk.sources search options.excludedFolders paths with
      | .error failure => (.error failure, disk)
      | .ok found =>
        (.ok (.ofReports (found.map (options.analyzeFile disk))),
          (found.map (options.analyzeFile disk)).foldl Disk.store disk) := by
  have asked : (liftM (disk.sources search options.excludedFolders paths) : RunM (List String)) disk =
      (disk.sources search options.excludedFolders paths, disk) := rfl
  simp only [run, RunM.bind_apply, RunM.get_apply, asked]
  cases disk.sources search options.excludedFolders paths with
  | error failure => rfl
  | ok found =>
    simp only [RunM.forM_store]
    rfl

theorem foldl_store_self {reports : List FileReport} (idle : ∀ report ∈ reports, ∀ state, Disk.store state report = state)
    (disk : Disk) : reports.foldl Disk.store disk = disk := by
  induction reports with
  | nil => rfl
  | cons report rest ih =>
    obtain ⟨here, later⟩ := List.forall_mem_cons.mp idle
    rw [List.foldl_cons, here]
    exact ih later

variable {options : Options} {search : Search} {paths : List String} {disk after : Disk} {report : RunReport}

theorem overwritten_of_run (real : options.dryRun = false) (done : options.run search paths disk = (.ok report, after)) :
    Overwritten options disk report after ∧ ∀ fixes ∈ report.fixes, fixes.written := by
  rw [run_eq] at done
  split at done
  next => cases done
  next found _ =>
    cases done
    have listed {fixes : FileFixes} :
        fixes ∈ (RunReport.ofReports (found.map (options.analyzeFile disk))).fixes ↔
          ∃ path ∈ found, ∃ repair, options.repairAt? disk path = some repair ∧ ⟨path, repair.1, true⟩ = fixes := by
      have one (path : String) : (options.analyzeFile disk path).fixes =
          (options.repairAt? disk path).map fun repair => ⟨path, repair.1, true⟩ := by
        rw [(analyzeFile_repairs options disk path).1, real]
        rfl
      simp only [RunReport.ofReports, List.mem_filterMap, List.mem_map, exists_exists_and_eq_and, one, Option.map_eq_some_iff]
    obtain ⟨work, stored⟩ := foldl_store real found
    refine ⟨⟨work, ?_, ?_⟩, ?_⟩
    · intro fixes member
      obtain ⟨path, asked, ⟨applied, text⟩, found, rfl⟩ := listed.mp member
      obtain ⟨names, located, seen⟩ := Option.bind_eq_some_iff.mp found
      obtain ⟨before, present, fixed⟩ := Option.bind_eq_some_iff.mp seen
      obtain ⟨source, concrete, rfl, _, rfl, rfl⟩ := repair?_eq_some.mp fixed
      refine ⟨names, source, concrete, located, FileTree.sight?_eq_file.mp present, rfl, ?_⟩
      rw [← FileTree.sight?_eq_file, stored, if_pos (List.mem_filterMap.mpr ⟨path, asked, located⟩), present,
        Option.map_some, repaired, fixed]
    · intro names apart
      rw [stored]
      split
      next among =>
        obtain ⟨path, asked, located⟩ := List.mem_filterMap.mp among
        apply map_repaired
        by_contra fixed
        obtain ⟨repair, known⟩ := Option.ne_none_iff_exists'.mp fixed
        have found : options.repairAt? disk path = some repair := by
          rw [repairAt?, located, Option.bind_some, known]
        exact apart _ (listed.mpr ⟨path, asked, repair, found, rfl⟩) located
      next => rfl
    · intro fixes member
      obtain ⟨path, _, repair, _, rfl⟩ := listed.mp member
      rfl

theorem analyzeFile_dryRun (options : Options) (disk : Disk) (path : String) :
    { options with dryRun := true }.analyzeFile disk path = (options.analyzeFile disk path).unwritten := by
  rw [analyzeFile, analyzeFile]
  split
  next source concrete _ =>
    have fixed : { options with dryRun := true }.fixed = options.fixed := rfl
    have rules : { options with dryRun := true }.rules = options.rules := rfl
    simp only [analyze, FileReport.unwritten, fixed, rules]
    cases (options.fixed (concrete.toTree source)).2.isEmpty <;> rfl
  all_goals rfl

theorem run_dryRun (done : options.run search paths disk = (.ok report, after)) :
    { options with dryRun := true }.run search paths disk = (.ok report.unwritten, disk) := by
  rw [run_eq] at done ⊢
  split at done
  next => cases done
  next found sources =>
    cases done
    have dry : found.map ({ options with dryRun := true }.analyzeFile disk) =
        (found.map (options.analyzeFile disk)).map FileReport.unwritten := by
      rw [List.map_map]
      exact List.map_congr_left fun path _ => analyzeFile_dryRun options disk path
    simp only [sources, dry, ofReports_unwritten]
    rw [foldl_store_self]
    intro told member state
    obtain ⟨told, _, rfl⟩ := List.mem_map.mp member
    rw [Disk.store, FileReport.unwritten]
    cases told.fixes <;> cases told.fixedText <;> rfl

theorem run_unfixed (unasked : options.fix = false) (search : Search) (paths : List String) (disk : Disk) :
    (options.run search paths disk).2 = disk := by
  have nothing (seen : Sight) : options.repair? seen = none := by
    rw [Option.eq_none_iff_forall_ne_some]
    intro ⟨applied, text⟩ fixed
    obtain ⟨source, concrete, _, changed, same, _⟩ := repair?_eq_some.mp fixed
    rw [Options.fixed, unasked] at same
    exact changed same
  rw [run_eq]
  split
  next => rfl
  next found _ =>
    apply foldl_store_self
    intro told member state
    obtain ⟨path, _, rfl⟩ := List.mem_map.mp member
    apply store_of_repairAt?_none
    simp [repairAt?, nothing]

theorem exists_run (options : Options) (search : Search) (present : ∀ path ∈ paths, disk.pathExists path) :
    ∃ report after, options.run search paths disk = (.ok report, after) := by
  rw [run_eq, Disk.sources_of_present search _ present]
  exact ⟨_, _, rfl⟩

/-- The first path that leads nowhere ends the run, before anything is written. -/
theorem run_missing (options : Options) (search : Search) (missing : ∃ path ∈ paths, ¬ disk.pathExists path) :
    ∃ first ∈ paths, ¬ disk.pathExists first ∧ options.run search paths disk = (.error (.missingPath first), disk) := by
  obtain ⟨path, asked, absent⟩ := missing
  cases known : paths.find? fun path => !disk.pathExists path with
  | none => exact absurd (by simpa using List.find?_eq_none.mp known path asked) absent
  | some first =>
    refine ⟨first, List.mem_of_find?_eq_some known, by simpa using List.find?_some known, ?_⟩
    rw [run_eq, Disk.sources, known]

theorem summary_of_run (done : options.run search paths disk = (.ok report, after)) :
    report.summary.findings = report.findings.length ∧ report.summary.failures = report.failures.length := by
  rw [run_eq] at done
  split at done
  next => cases done
  next => cases done; exact ⟨rfl, rfl⟩

end Options

end TreeLint
