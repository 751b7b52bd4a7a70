import TreeLint.Builtin.Host

/-! The switches for fixing. A dry run is asked for by one switch and a real run by another one, and where the first may
stand the second may. The builtin reading goes on behind either of them in the same way, since it only turns switches
on. -/

namespace TreeLint

/-- How the switches for fixing are read. In front of two dashes, the switch of a dry run says nothing but that, and the
other switch may stand in its place if it stands nowhere else. -/
structure ReadsSwitches (read : List String → Except Interruption Arguments) : Prop where
  dryRun : ∀ front back dry, "--" ∉ front → read (front ++ "--dry-run" :: back) = .ok dry → dry.dryRun
  without : ∀ front back dry, "--" ∉ front → read (front ++ "--dry-run" :: back) = .ok dry →
    read (front ++ back) = .ok { dry with dryRun := false }
  instead : ∀ front back dry, "--" ∉ front → read (front ++ "--dry-run" :: back) = .ok dry → dry.fix = false →
    read (front ++ "--fix" :: back) = .ok { dry with dryRun := false, fix := true }

private theorem exists_of_bind_eq_ok {ε α β : Type} {first : Except ε α} {next : α → Except ε β} {result : β}
    (done : first >>= next = .ok result) : ∃ middle, first = .ok middle ∧ next middle = .ok result := by
  cases first with
  | error failure => cases done
  | ok middle => exact ⟨middle, rfl, done⟩

namespace Arguments.Reading

/-- What has been read when a real run is asked for instead of a dry one. Its own switch is there already or has to be
added. -/
def forReal (added : Bool) (reading : Reading) : Reading :=
  { reading with
    arguments := { reading.arguments with dryRun := false, fix := reading.arguments.fix || added } }

/-- Reading goes on for the real run as for the dry run, unless the switch is added to one that follows. Switches are
never turned off, so one that is off in the end has been off all the time. -/
def Mirrored (added : Bool) (step : Reading → Except Interruption Reading) : Prop :=
  ∀ reading after, reading.arguments.dryRun → step reading = .ok after →
    after.arguments.dryRun ∧ (reading.arguments.fix → after.arguments.fix) ∧
      ((added → !after.arguments.fix) → step (reading.forReal added) = .ok (after.forReal added))

variable {added : Bool} {first second : Reading → Except Interruption Reading}

theorem Mirrored.bind (one : Mirrored added first) (two : Mirrored added second) :
    Mirrored added fun reading => first reading >>= second := by
  intro reading after dry done
  obtain ⟨middle, halfway, rest⟩ := exists_of_bind_eq_ok done
  obtain ⟨stillDry, earlier, mirrored⟩ := one reading middle dry halfway
  obtain ⟨finallyDry, later, finished⟩ := two middle after stillDry rest
  refine ⟨finallyDry, fun fix => later (earlier fix), fun free => ?_⟩
  have unfixed : added → !middle.arguments.fix := by
    intro isAdded
    have last := free isAdded
    cases fix : middle.arguments.fix with
    | false => rfl
    | true => rw [later fix] at last; cases last
  change (first (reading.forReal added) >>= second) = _
  rw [mirrored unfixed]
  exact finished free

theorem mirrored_error (interruption : Interruption) : Mirrored added fun _ => .error interruption := by
  intro reading after _ done
  cases done

theorem mirrored_ok {change : Reading → Reading}
    (dryRun : ∀ reading, (change reading).arguments.dryRun = reading.arguments.dryRun)
    (fix : ∀ reading, (change reading).arguments.fix = reading.arguments.fix)
    (same : ∀ reading, change (reading.forReal added) = (change reading).forReal added) :
    Mirrored added fun reading => .ok (change reading) := by
  intro reading after dry done
  cases done
  exact ⟨(dryRun reading).trans dry, fun given => (fix reading).trans given, fun _ => congrArg Except.ok (same reading)⟩

theorem mirrored_settle : Mirrored added settle := by
  intro reading after dry done
  have same (other : Reading) : other.settle =
      if other.awaiting.isSome || other.emptyPath then .error (.usage .invalidValue) else .ok other := rfl
  rw [same] at done
  split at done
  next => cases done
  next settled =>
    cases done
    exact ⟨dry, id, fun _ => if_neg settled⟩

theorem mirrored_addValue (setting : Setting) (value : String) :
    Mirrored added fun reading => .ok (reading.addValue setting value) := by
  cases setting <;> exact mirrored_ok (fun _ => rfl) (fun _ => rfl) fun _ => rfl

theorem mirrored_addPath (path : String) : Mirrored added fun reading => .ok (reading.addPath path) :=
  mirrored_ok (fun _ => rfl) (fun _ => rfl) fun _ => rfl

theorem mirrored_await (setting : Setting) : Mirrored added fun reading => .ok { reading with awaiting := some setting } :=
  mirrored_ok (fun _ => rfl) (fun _ => rfl) fun _ => rfl

theorem mirrored_turnOn (switch : Switch) : Mirrored added fun reading => reading.turnOn switch := by
  refine Mirrored.bind mirrored_settle ?_
  intro reading after dry done
  cases switch with
  | help => cases done
  | version => cases done
  | dryRun => simp [dry] at done
  | fix =>
    simp only at done ⊢
    split at done
    next => cases done
    next unfixed =>
      cases done
      refine ⟨dry, fun _ => rfl, fun free => ?_⟩
      cases added with
      | true => cases free rfl
      | false => simp [forReal, unfixed]
  | json | verbose =>
    simp only at done ⊢
    split at done
    next => cases done
    next once =>
      cases done
      exact ⟨dry, id, fun _ => if_neg once⟩

theorem mirrored_longOption (name : String) (value : Option String) :
    Mirrored added fun reading => reading.longOption name value := by
  unfold longOption
  match OptionName.ofLong? name, value with
  | none, _ => exact mirrored_error _
  | some (.switch _), some _ => exact mirrored_error _
  | some (.switch switch), none => exact mirrored_turnOn switch
  | some (.setting setting), some value => exact Mirrored.bind mirrored_settle (mirrored_addValue setting value)
  | some (.setting setting), none => exact Mirrored.bind mirrored_settle (mirrored_await setting)

theorem mirrored_shortOptions (letters : List Char) : Mirrored added fun reading => reading.shortOptions letters := by
  induction letters with
  | nil => exact mirrored_ok (fun _ => rfl) (fun _ => rfl) fun _ => rfl
  | cons letter rest ih =>
    unfold shortOptions
    cases Switch.ofShort? letter with
    | none => exact mirrored_error _
    | some switch => exact Mirrored.bind (mirrored_turnOn switch) ih

theorem mirrored_next (argument : String) : Mirrored added fun reading => reading.next argument := by
  unfold next
  split
  next name _ => exact mirrored_longOption (splitValue name).1 (splitValue name).2
  next letter rest _ => exact mirrored_shortOptions _
  next =>
    intro reading after dry done
    cases awaiting : reading.awaiting with
    | some setting =>
      simp only [awaiting] at done
      simpa only [forReal, awaiting] using mirrored_addValue setting argument reading after dry done
    | none =>
      simp only [awaiting] at done
      simpa only [forReal, awaiting] using mirrored_addPath argument reading after dry done

theorem mirrored_addPaths (paths : List String) : Mirrored added fun reading => .ok (paths.foldl addPath reading) := by
  induction paths with
  | nil => exact mirrored_ok (fun _ => rfl) (fun _ => rfl) fun _ => rfl
  | cons path rest ih => exact Mirrored.bind (mirrored_addPath path) ih

theorem mirrored_all (arguments : List String) : Mirrored added fun reading => reading.all arguments := by
  induction arguments with
  | nil => exact mirrored_settle
  | cons argument rest ih =>
    unfold all
    by_cases dashes : argument = "--"
    · simp only [dashes, if_true]
      exact Mirrored.bind (mirrored_addPaths rest) mirrored_settle
    · simp only [dashes, if_false]
      exact Mirrored.bind (mirrored_next argument) ih

theorem all_append {front : List String} (options : "--" ∉ front) (reading : Reading) (back : List String) :
    reading.all (front ++ back) = front.foldlM next reading >>= fun middle => middle.all back := by
  induction front generalizing reading with
  | nil => rfl
  | cons argument rest ih =>
    rw [List.mem_cons, not_or] at options
    rw [List.cons_append, all, if_neg (Ne.symm options.1), List.foldlM_cons, bind_assoc]
    cases reading.next argument with
    | error interruption => rfl
    | ok middle => exact ih options.2 middle

/-- The switch of a dry run says nothing but that, and the other one can stand in its place. -/
theorem turnOn_dryRun {reading marked : Reading} (done : reading.turnOn .dryRun = .ok marked) :
    marked.arguments.dryRun ∧ marked.forReal false = reading ∧
      (!marked.arguments.fix → reading.turnOn .fix = .ok (marked.forReal true)) := by
  obtain ⟨settled, ready, rest⟩ := exists_of_bind_eq_ok done
  obtain rfl : settled = reading := by
    rw [settle] at ready
    split at ready
    next => cases ready
    next => exact (Except.ok.inj ready).symm
  change (if settled.arguments.dryRun then _ else _) = _ at rest
  split at rest
  next => cases rest
  next first =>
    cases rest
    obtain ⟨⟨paths, ignore, exclude, fix, dryRun, json, verbose⟩, awaiting, emptyPath⟩ := settled
    obtain rfl : dryRun = false := by simpa using first
    refine ⟨rfl, by simp [forReal], fun unfixed => ?_⟩
    obtain rfl : fix = false := by simpa using unfixed
    rw [turnOn, ready]
    rfl

def result (reading : Reading) : Arguments :=
  if reading.arguments.paths.isEmpty then { reading.arguments with paths := ["."] } else reading.arguments

theorem result_forReal (last : Reading) (added : Bool) :
    (last.forReal added).result = { last.result with dryRun := false, fix := last.arguments.fix || added } := by
  rw [result, result, forReal]
  split <;> rfl

theorem flags_result (last : Reading) :
    last.result.dryRun = last.arguments.dryRun ∧ last.result.fix = last.arguments.fix := by
  rw [result]
  split <;> exact ⟨rfl, rfl⟩

end Arguments.Reading

namespace Arguments
open TreeLint.Arguments.Reading

theorem parse_eq (list : List String) : parse list = Reading.all {} list >>= fun last => .ok last.result :=
  rfl

theorem parse_append {front back : List String} {start last : Reading} (apart : "--" ∉ front)
    (ahead : front.foldlM next {} = .ok start) (behind : start.all back = .ok last) :
    parse (front ++ back) = .ok last.result := by
  rw [parse_eq, all_append apart, ahead]
  change (start.all back >>= _) = _
  rw [behind]
  rfl

/-- What has been read in front of the switch of a dry run, with the switch, and in the end. -/
theorem exists_readings {front back : List String} {dry : Arguments} (apart : "--" ∉ front)
    (parsed : parse (front ++ "--dry-run" :: back) = .ok dry) :
    ∃ start marked last, front.foldlM next {} = .ok start ∧ start.turnOn .dryRun = .ok marked ∧
      marked.all back = .ok last ∧ last.result = dry := by
  rw [parse_eq, all_append apart] at parsed
  obtain ⟨last, reached, same⟩ := exists_of_bind_eq_ok parsed
  obtain ⟨start, ahead, next⟩ := exists_of_bind_eq_ok reached
  obtain ⟨marked, marking, behind⟩ := exists_of_bind_eq_ok (show start.turnOn .dryRun >>= _ = _ from next)
  exact ⟨start, marked, last, ahead, marking, behind, Except.ok.inj same⟩

theorem readsSwitches_parse : ReadsSwitches parse where
  dryRun := by
    intro front back dry apart parsed
    obtain ⟨start, marked, last, _, marking, behind, rfl⟩ := exists_readings apart parsed
    obtain ⟨isDry, _⟩ := turnOn_dryRun marking
    obtain ⟨stillDry, _⟩ := @mirrored_all false back marked last isDry behind
    exact (flags_result last).1.trans stillDry
  without := by
    intro front back dry apart parsed
    obtain ⟨start, marked, last, ahead, marking, behind, rfl⟩ := exists_readings apart parsed
    obtain ⟨isDry, same, _⟩ := turnOn_dryRun marking
    obtain ⟨_, _, mirrored⟩ := @mirrored_all false back marked last isDry behind
    have finished := mirrored (by simp)
    rw [same] at finished
    rw [parse_append apart ahead finished, result_forReal, Bool.or_false, (flags_result last).2]
  instead := by
    intro front back dry apart parsed unfixed
    obtain ⟨start, marked, last, ahead, marking, behind, rfl⟩ := exists_readings apart parsed
    obtain ⟨isDry, _, other⟩ := turnOn_dryRun marking
    obtain ⟨_, earlier, mirrored⟩ := @mirrored_all true back marked last isDry behind
    rw [(flags_result last).2] at unfixed
    have before : marked.arguments.fix = false := by
      cases already : marked.arguments.fix with
      | false => rfl
      | true => exact absurd (earlier already) (by simp [unfixed])
    have finished : start.all ("--fix" :: back) = .ok (last.forReal true) := by
      change (start.turnOn .fix >>= fun marked => marked.all back) = _
      rw [other (by simp [before])]
      exact mirrored fun _ => by simp [unfixed]
    rw [parse_append apart ahead finished, result_forReal, Bool.or_true]

end Arguments

end TreeLint
