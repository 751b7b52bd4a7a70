import TreeLint.Proofs.Switches
import TreeLint.Proofs.Writing

/-! A dry run and the run that it announces. Their arguments differ in one switch only, and nothing that the first one
tells of findings, failures and fixes is different in the second one, which alone writes. This is so however settings
are read and folders are searched. -/

namespace TreeLint

namespace Arguments

/-- The arguments of a run that writes what a dry run announces: one switch stands for the other, unless both are
given already. -/
def announced (front back : List String) (dry : Arguments) : List String :=
  if dry.fix then front ++ back else front ++ "--fix" :: back

def forReal (dry : Arguments) : Arguments :=
  { dry with dryRun := false, fix := true }

theorem read_announced {read : List String → Except Interruption Arguments} (reads : ReadsSwitches read)
    {front back : List String} {dry : Arguments} (apart : "--" ∉ front)
    (parsed : read (front ++ "--dry-run" :: back) = .ok dry) :
    read (announced front back dry) = .ok dry.forReal := by
  rw [announced]
  cases fix : dry.fix with
  | false => exact reads.instead front back dry apart parsed fix
  | true =>
    have written := reads.without front back dry apart parsed
    rw [fix] at written
    exact written

end Arguments

namespace Command

structure Completes (host : Host) (colored : Bool) (disk : Disk) (list : List String) (arguments : Arguments)
    (report : RunReport) (after : Disk) : Prop where
  parsed : host.arguments list = .ok arguments
  reported : (options (config host disk arguments) arguments).run host.search arguments.paths disk = (.ok report, after)
  answered : execute host colored list disk =
    (.ok (answer colored (options (config host disk arguments) arguments) arguments report), after)

/-- What a dry run tells of the run that it announces. -/
structure Announces (told done : RunReport) : Prop where
  findings : told.findings = done.findings
  failures : told.failures = done.failures
  summary : told.summary = done.summary
  exitCode : exitCode told = exitCode done
  fixes : told.fixes = done.fixes.map fun fixes => { fixes with written := false }
  written : ∀ fixes ∈ done.fixes, fixes.written

variable {host : Host} {colored : Bool} {disk after : Disk} {list : List String} {arguments : Arguments}
  {report : RunReport}

theorem execute_eq (colored : Bool) (disk : Disk) (parsed : host.arguments list = .ok arguments) :
    execute host colored list disk =
      match (options (config host disk arguments) arguments).run host.search arguments.paths disk with
      | (.ok report, after) =>
        (.ok (answer colored (options (config host disk arguments) arguments) arguments report), after)
      | (.error failure, after) => (.error failure, after) := by
  rw [execute, parsed]
  simp only [analyze, RunM.bind_apply, RunM.get_apply]
  rcases (options (config host disk arguments) arguments).run host.search arguments.paths disk
    with ⟨report | failure, after⟩ <;> rfl

theorem after_execute (colored : Bool) (disk : Disk) (parsed : host.arguments list = .ok arguments) :
    (execute host colored list disk).2 =
      ((options (config host disk arguments) arguments).run host.search arguments.paths disk).2 := by
  rw [execute_eq colored disk parsed]
  rcases (options (config host disk arguments) arguments).run host.search arguments.paths disk
    with ⟨report | failure, after⟩ <;> rfl

theorem completes_of_run (parsed : host.arguments list = .ok arguments)
    (reported : (options (config host disk arguments) arguments).run host.search arguments.paths disk =
      (.ok report, after)) :
    Completes host colored disk list arguments report after := by
  refine ⟨parsed, reported, ?_⟩
  rw [execute_eq colored disk parsed, reported]

/-- A dry run announces the run that one switch turns it into. -/
theorem announces_of_parsed (reads : ReadsSwitches host.arguments) {front back : List String} {dry : Arguments}
    (apart : "--" ∉ front) (parsed : host.arguments (front ++ "--dry-run" :: back) = .ok dry)
    (present : ∀ path ∈ dry.paths, disk.pathExists path) :
    ∃ told done after, Completes host colored disk (front ++ "--dry-run" :: back) dry told disk ∧
      Completes host colored disk (Arguments.announced front back dry) dry.forReal done after ∧ Announces told done ∧
      Overwritten (options (config host disk dry) dry.forReal) disk done after := by
  obtain ⟨done, after, ran⟩ := (options (config host disk dry) dry.forReal).exists_run host.search present
  obtain ⟨overwritten, written⟩ := Options.overwritten_of_run rfl ran
  have isDry := reads.dryRun front back dry apart parsed
  have same : { options (config host disk dry) dry.forReal with dryRun := true } =
      options (config host disk dry) dry := by
    simp [options, Arguments.forReal, isDry]
  have told := Options.run_dryRun ran
  rw [same] at told
  have announces : Announces done.unwritten done := ⟨rfl, rfl, rfl, rfl, rfl, written⟩
  exact ⟨done.unwritten, done, after, completes_of_run parsed told,
    completes_of_run (Arguments.read_announced reads apart parsed) ran, announces, overwritten⟩

theorem exitCode_eq_one_iff
    (done : (options (config host disk arguments) arguments).run host.search arguments.paths disk = (.ok report, after)) :
    exitCode report = 1 ↔ report.findings ≠ [] ∨ report.failures ≠ [] := by
  obtain ⟨findings, failures⟩ := Options.summary_of_run done
  rw [exitCode, findings, failures]
  simp [List.length_pos_iff, or_iff_not_imp_left]

theorem code_eq_one_iff {answer : Answer} (done : execute host colored list disk = (.ok answer, after)) :
    answer.code = 1 ↔ ∃ arguments report, Completes host colored disk list arguments report after ∧
      (report.findings ≠ [] ∨ report.failures ≠ []) := by
  constructor
  · intro failed
    cases parsed : host.arguments list with
    | error interruption =>
      rw [execute, parsed] at done
      cases interruption <;> cases done <;> cases failed
    | ok arguments =>
      rw [execute_eq colored disk parsed] at done
      split at done
      next report _ ran =>
        cases done
        exact ⟨arguments, report, completes_of_run parsed ran, (exitCode_eq_one_iff ran).mp failed⟩
      next => cases done
  · intro ⟨arguments, report, completes, left⟩
    rw [completes.answered] at done
    cases done
    exact (exitCode_eq_one_iff completes.reported).mpr left

theorem disk_of_unfixed (colored : Bool) (disk : Disk) (parsed : host.arguments list = .ok arguments)
    (noSwitch : arguments.fix = false ∧ arguments.dryRun = false)
    (noSetting : (config host disk arguments).settings.fix ≠ some true) :
    (execute host colored list disk).2 = disk := by
  have unasked : (options (config host disk arguments) arguments).fix = false := by
    match set : (config host disk arguments).settings.fix with
    | none => simp [options, Config.options, noSwitch, set]
    | some false => simp [options, Config.options, noSwitch, set]
    | some true => exact absurd set noSetting
  rw [after_execute colored disk parsed, Options.run_unfixed unasked]

/-- A dry run tells what a real run does and changes no file; the real run changes the files with fixes and no others.
Without a switch or a setting that asks for fixes nothing is written, and so it is when a path leads nowhere. Only what
is left in the end makes the command fail. -/
theorem execute_safely (host : Host) (reads : ReadsSwitches host.arguments) (colored : Bool) (disk : Disk) :
    (∀ front back dry, "--" ∉ front → host.arguments (front ++ "--dry-run" :: back) = .ok dry →
      (∀ path ∈ dry.paths, disk.pathExists path) →
      ∃ told done after, Completes host colored disk (front ++ "--dry-run" :: back) dry told disk ∧
        Completes host colored disk (Arguments.announced front back dry) dry.forReal done after ∧ Announces told done ∧
        Overwritten (options (config host disk dry) dry.forReal) disk done after) ∧
    (∀ list arguments, host.arguments list = .ok arguments → arguments.fix = false ∧ arguments.dryRun = false →
      (config host disk arguments).settings.fix ≠ some true → (execute host colored list disk).2 = disk) ∧
    (∀ list arguments, host.arguments list = .ok arguments → (∃ path ∈ arguments.paths, ¬ disk.pathExists path) →
      ∃ first ∈ arguments.paths, ¬ disk.pathExists first ∧
        execute host colored list disk = (.error (.missingPath first), disk)) ∧
    ∀ list answer after, execute host colored list disk = (.ok answer, after) →
      (answer.code = 1 ↔ ∃ arguments report, Completes host colored disk list arguments report after ∧
        (report.findings ≠ [] ∨ report.failures ≠ [])) := by
  refine ⟨?_, ?_, ?_, ?_⟩
  · intro front back dry apart parsed present
    exact announces_of_parsed reads apart parsed present
  · intro list arguments parsed noSwitch noSetting
    exact disk_of_unfixed colored disk parsed noSwitch noSetting
  · intro list arguments parsed missing
    obtain ⟨first, asked, absent, failed⟩ :=
      (options (config host disk arguments) arguments).run_missing host.search missing
    refine ⟨first, asked, absent, ?_⟩
    rw [execute_eq colored disk parsed, failed]
  · intro list answer after done
    exact code_eq_one_iff done

def oneFile : FileTree :=
  .folder [("A.cs", .file (.text "bool notA = true" (some
    (.node "variable_declaration" true 0 16
      [.node "predefined_type" true 0 4 [],
        .node "variable_declarator" true 5 16
          [.node "identifier" true 5 9 [], .node "=" false 10 11 [], .node "boolean_literal" true 12 16 []]]))))]

theorem execute_safely_oneFile :
    ReadsSwitches Host.builtin.arguments ∧ ∃ told done after,
      Completes .builtin false (.ofWork oneFile) ["A.cs", "--dry-run", "/work/A.cs"]
        { paths := ["A.cs", "/work/A.cs"], dryRun := true } told (.ofWork oneFile) ∧
      Completes .builtin false (.ofWork oneFile) ["A.cs", "--fix", "/work/A.cs"]
        { paths := ["A.cs", "/work/A.cs"], fix := true } done after ∧
      Announces told done ∧ done.fixes.map FileFixes.file = ["/work/A.cs", "A.cs"] ∧
      after.readText? "A.cs" = some "bool A = true" ∧
      (¬ ∃ arguments report,
        Completes .builtin false (.ofWork oneFile) ["A.cs", "--fix", "/work/A.cs"] arguments report after ∧
          (report.findings ≠ [] ∨ report.failures ≠ [])) ∧
      (execute .builtin false ["A.cs", "../work/A.cs"] (.ofWork oneFile)).2 = .ofWork oneFile ∧
      execute .builtin false ["A.cs", "--fix", "../A.cs"] (.ofWork oneFile) =
        (.error (.missingPath "../A.cs"), .ofWork oneFile) := by
  obtain ⟨agree, unasked, missing, failed⟩ :=
    execute_safely .builtin Arguments.readsSwitches_parse false (.ofWork oneFile)
  obtain ⟨told, done, after, dry, real, announces, _⟩ :=
    agree ["A.cs"] ["/work/A.cs"] { paths := ["A.cs", "/work/A.cs"], dryRun := true } (by decide) rfl (by decide +kernel)
  have idle := unasked ["A.cs", "../work/A.cs"] { paths := ["A.cs", "../work/A.cs"] } rfl ⟨rfl, rfl⟩ (by decide +kernel)
  obtain ⟨first, asked, absent, stopped⟩ :=
    missing ["A.cs", "--fix", "../A.cs"] { paths := ["A.cs", "../A.cs"], fix := true } rfl
      ⟨"../A.cs", by decide, by decide +kernel⟩
  obtain rfl : first = "../A.cs" := by
    rcases List.mem_cons.mp asked with here | other
    · exact absurd (by rw [here]; decide +kernel) absent
    · exact List.mem_singleton.mp other
  have sources (excluded : List String) : (Disk.ofWork oneFile).sources Host.builtin.search excluded
      ["A.cs", "/work/A.cs"] = .ok ["/work/A.cs", "A.cs"] :=
    Disk.sources_of_files _ _ (by decide +kernel) (by decide +kernel) (by decide +kernel) (by decide +kernel)
  have reported := real.reported
  simp only [Options.run_eq, Arguments.forReal, sources] at reported
  obtain ⟨result, files⟩ := Prod.mk.inj reported
  obtain rfl := Except.ok.inj result
  subst files
  have passed := mt (failed _ _ _ real.answered).mpr (by decide +kernel)
  exact ⟨Arguments.readsSwitches_parse, told, _, _, dry, real, announces, by decide +kernel, by decide +kernel, passed,
    idle, stopped⟩

end Command

end TreeLint
