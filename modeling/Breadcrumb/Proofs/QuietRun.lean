import Breadcrumb.Proofs.EmptyAnswers
import Breadcrumb.Proofs.QuietWords

/-!
# Quiet runs

A quiet run differs from a loud one in a single place: where an action finds nothing. All
checks are made before, with the same result, and no other refusal is kept quiet.

* `Options.FindsNothing`: a run gets as far as an action that finds nothing.
* `Job.answer_cases`, `Options.outcome_cases`: what the flag changes for a run.
* `run_quiet`: so for all options, and for the words they are read from.
-/

namespace Breadcrumb.CommandLine

/-! ## Runs -/

namespace Options

variable {options : Options} {input : Option String → Except Failure ByteArray}

/-- The checks that are made before the input is read. -/
structure Passes (options : Options) (action : Action) (thresholds : Thresholds) : Prop where
  thresholds_eq : Thresholds.parse options.verbosity options.log = .ok thresholds
  colors : (options.color && options.noColor) = false
  version : options.version = false
  action_eq : options.action = some action
  settings : options.settings.validate = .ok ()

/-- The document that is read. -/
def load (options : Options) (input : Option String → Except Failure ByteArray) :
    Except Failure Document :=
  (input options.file).bind (Document.ofBytes · options.settings.tabWidth)

/-- A run gets as far as an action that finds nothing: all checks pass, the document is read,
and it has no answer. -/
def FindsNothing (options : Options) (input : Option String → Except Failure ByteArray) : Prop :=
  ∃ action thresholds doc, options.Passes action thresholds ∧ options.load input = .ok doc ∧
    action.FindsNothing options.settings doc

/-- What a command line with these options comes to. -/
def outcome (options : Options) (stamp : String)
    (input : Option String → Except Failure ByteArray) : Outcome :=
  (options.plan stamp).outcome input

end Options

/-- The run succeeds, or it is told why not, and the reason is not an empty answer. It is in the
words of a host only if `reported` holds. -/
def Outcome.IsUsual (outcome : Outcome) (reported : Prop) : Prop :=
  outcome.exit = 0 ∨ ∃ log colors, ∃ refusal : Refusal,
    outcome = refused log colors refusal.message ∧ refusal.isQuietable = false ∧
      (refusal.isReported = true → reported)

namespace Outcome.IsUsual

theorem imp {outcome : Outcome} {reported reported' : Prop} (h : outcome.IsUsual reported)
    (himp : reported → reported') : outcome.IsUsual reported' :=
  h.imp_right fun ⟨log, colors, refusal, houtcome, hquietable, hreported⟩ =>
    ⟨log, colors, refusal, houtcome, hquietable, himp ∘ hreported⟩

theorem of_refusal {refusal : Refusal} (log : String) (colors : Bool)
    (hquietable : refusal.isQuietable = false) (hreported : refusal.isReported = false) :
    IsUsual (refused log colors refusal.message) False :=
  .inr ⟨log, colors, refusal, rfl, hquietable, fun h => Bool.false_ne_true (hreported ▸ h)⟩

/-- A usual run that does not succeed has printed nothing. -/
theorem exit_cases {outcome : Outcome} {reported : Prop} (h : outcome.IsUsual reported) :
    outcome.exit = 0 ∨ outcome.exit = 127 ∧ outcome.stdout = "" := by
  rcases h with hzero | ⟨log, colors, refusal, rfl, -⟩
  · exact .inl hzero
  · exact .inr ⟨rfl, rfl⟩

end Outcome.IsUsual

/-! ## The flag -/

namespace Job

variable {job : Job} {doc : Document}

/-- The same job for a quiet run. -/
def hushed (job : Job) : Job := { job with options := job.options.hushed }

/-- Nothing is logged of details unless more was asked for. -/
theorem log_of_details (h : Thresholds.parse 0 [] = .ok job.thresholds) {records : List Record}
    (hrecords : ∀ record ∈ records, record.IsDetail) : job.log records = "" := by
  have hnone : records.filter job.thresholds.admits = [] := by
    refine List.filter_eq_nil_iff.2 fun record hrecord => ?_
    have hthresholds : job.thresholds = ⟨some .warn, []⟩ := (Except.ok.inj h).symm
    rw [hthresholds]
    exact fun hadmits => Nat.not_lt.2 (of_decide_eq_true hadmits) (hrecords record hrecord)
  rw [log, hnone]
  rfl

/-- **Where nothing is found** a loud run tells so after the same log, and with another exit
code. Other runs are the same, and if they are refused it is for another reason. -/
theorem answer_cases (hloud : job.options.quiet = false) :
    (job.action.FindsNothing job.options.settings doc ∧
      ∃ log place, job.action.place? = some place ∧
        job.answer doc = .refused log job.options.color ("no YAML element at " ++ place) ∧
        job.hushed.answer doc = ⟨1, "", log⟩ ∧
        (Thresholds.parse 0 [] = .ok job.thresholds → log = "")) ∨
    (¬ job.action.FindsNothing job.options.settings doc ∧
      job.hushed.answer doc = job.answer doc ∧ (job.answer doc).IsUsual False) := by
  rw [Action.findsNothing_iff job.options.color]
  -- the action does not look at the flag, so the hushed job performs the same
  cases houtput : (job.action.perform job.options.color job.options.settings doc).output with
  | ok output =>
    have hhushed : job.hushed.answer doc = job.answer doc := by
      rw [answer_eq_of_ok houtput]
      exact answer_eq_of_ok houtput
    refine .inr ⟨?_, hhushed, .inl (by rw [answer_eq_of_ok houtput])⟩
    rintro ⟨refusal, -, h⟩
    cases h
  | error refusal =>
    have hanswer := answer_eq_of_error houtput
    have hhushed : job.hushed.answer doc =
        if refusal.isQuietable && true then ⟨1, "", job.runLog doc⟩
        else ⟨127, "", job.runLog doc ++ errorLine job.options.color refusal⟩ :=
      answer_eq_of_error houtput
    rw [hloud, Bool.and_false, if_neg Bool.false_ne_true, Outcome.refused_eq] at hanswer
    cases hquietable : refusal.isQuietable with
    | true =>
      obtain ⟨place, hplace, hmessage⟩ := Action.message_eq houtput hquietable
      rw [hmessage] at hanswer
      rw [hquietable] at hhushed
      refine .inl ⟨⟨refusal, hquietable, rfl⟩, _, place, hplace, hanswer, hhushed, fun h => ?_⟩
      refine log_of_details h fun record hrecord => ?_
      rcases List.mem_cons.1 hrecord with rfl | hrecord
      · show Level.warn.rank < Level.debug.rank
        decide
      · exact Action.records_perform record hrecord
    | false =>
      rw [hquietable, Bool.false_and, if_neg Bool.false_ne_true, Outcome.refused_eq] at hhushed
      refine .inr ⟨?_, hhushed.trans hanswer.symm, ?_⟩
      · rintro ⟨refusal', hquietable', h⟩
        rw [← Except.error.inj h, hquietable] at hquietable'
        cases hquietable'
      · rw [hanswer]
        exact .of_refusal _ _ hquietable (Action.output_not_reported houtput)

end Job

/-- The same plan for a quiet run. -/
def Plan.hushed : Plan → Plan
  | .done outcome => .done outcome
  | .reading job => .reading job.hushed

namespace Options

variable {options : Options} {stamp : String}

theorem plan_of_passes {action : Action} {thresholds : Thresholds}
    (h : options.Passes action thresholds) :
    options.plan stamp =
      .reading ⟨options, action, thresholds, if options.logTime then some stamp else none⟩ := by
  unfold plan
  simp only [h.thresholds_eq, h.colors, h.version, h.action_eq, h.settings,
    if_neg Bool.false_ne_true]

/-- **The checks do not look at the flag.** -/
theorem plan_hushed (options : Options) (stamp : String) :
    options.hushed.plan stamp = (options.plan stamp).hushed := by
  -- one check after the other: each is about a field that the two options share
  have hsettings : options.hushed.settings = options.settings := rfl
  unfold plan
  rw [hsettings]
  cases hthresholds : Thresholds.parse options.verbosity options.log with
  | error error =>
    have hthresholds' : Thresholds.parse options.hushed.verbosity options.hushed.log =
        .error error := hthresholds
    rw [hthresholds']
    rfl
  | ok thresholds =>
    have hthresholds' : Thresholds.parse options.hushed.verbosity options.hushed.log =
        .ok thresholds := hthresholds
    rw [hthresholds']
    dsimp only
    by_cases hcolors : (options.color && options.noColor) = true
    · rw [if_pos hcolors]
      exact if_pos hcolors
    · rw [if_neg hcolors]
      refine (if_neg hcolors).trans ?_
      by_cases hversion : options.version = true
      · rw [if_pos hversion]
        exact if_pos hversion
      · rw [if_neg hversion]
        refine (if_neg hversion).trans ?_
        cases haction : options.action with
        | none =>
          have haction' : options.hushed.action = none := haction
          rw [haction']
          rfl
        | some action =>
          have haction' : options.hushed.action = some action := haction
          rw [haction']
          cases options.settings.validate <;> rfl

/-- A run that ends before its input is read ends well, or is told why not. -/
theorem plan_cases (options : Options) (stamp : String) :
    (∃ action thresholds, options.Passes action thresholds) ∨
      ∃ outcome : Outcome, options.plan stamp = .done outcome ∧ outcome.IsUsual False := by
  have hrefused : ∀ {colors : Bool} {refusal : Refusal}, refusal.isQuietable = false →
      refusal.isReported = false →
      ∃ outcome : Outcome, plan.refuse colors refusal = .done outcome ∧ outcome.IsUsual False := by
    intro colors refusal hquietable hreported
    have husual := Outcome.IsUsual.of_refusal "" colors hquietable hreported
    rw [← Outcome.refused_eq, String.empty_append] at husual
    exact ⟨_, rfl, husual⟩
  unfold plan
  cases hthresholds : Thresholds.parse options.verbosity options.log with
  | error error => exact .inr (hrefused rfl rfl)
  | ok thresholds =>
    cases hcolors : options.color && options.noColor with
    | true => exact .inr (hrefused rfl rfl)
    | false =>
      cases hversion : options.version with
      | true => exact .inr ⟨_, rfl, .inl rfl⟩
      | false =>
        cases haction : options.action with
        | none => exact .inr (hrefused rfl rfl)
        | some action =>
          cases hvalid : options.settings.validate with
          | ok _ => exact .inl ⟨action, thresholds, hthresholds, hcolors, hversion, haction, hvalid⟩
          | error failure =>
            refine .inr (hrefused rfl ?_)
            unfold Settings.validate at hvalid
            split at hvalid
            · cases hvalid
              rfl
            · split at hvalid <;> cases hvalid
              rfl

variable {input : Option String → Except Failure ByteArray}

theorem outcome_of_done {outcome : Outcome} (h : options.plan stamp = .done outcome) :
    options.outcome stamp input = outcome := by
  rw [Options.outcome, h, Plan.outcome]

theorem outcome_of_passes {action : Action} {thresholds : Thresholds}
    (h : options.Passes action thresholds) (stamp : String)
    (input : Option String → Except Failure ByteArray) :
    options.outcome stamp input =
      match options.load input with
      | .ok doc =>
        Job.answer ⟨options, action, thresholds, if options.logTime then some stamp else none⟩ doc
      | .error failure => .refused "" options.color failure.message := by
  have hrefused (failure : Failure) : ⟨127, "", errorLine options.color (.failure failure)⟩ =
      Outcome.refused "" options.color failure.message := by
    have heq := Outcome.refused_eq "" options.color (.failure failure)
    rwa [String.empty_append] at heq
  simp only [← hrefused]
  rw [Options.outcome, plan_of_passes h]
  rfl

theorem passes_quiet_iff (quiet : Bool) {action : Action} {thresholds : Thresholds} :
    Options.Passes { options with quiet := quiet } action thresholds ↔
      options.Passes action thresholds :=
  ⟨fun h => ⟨h.thresholds_eq, h.colors, h.version, h.action_eq, h.settings⟩,
    fun h => ⟨h.thresholds_eq, h.colors, h.version, h.action_eq, h.settings⟩⟩

theorem findsNothing_quiet_iff (quiet : Bool) :
    Options.FindsNothing { options with quiet := quiet } input ↔ options.FindsNothing input :=
  exists_congr fun _ => exists_congr fun _ => exists_congr fun _ =>
    and_congr_left' (passes_quiet_iff quiet)

theorem Passes.findsNothing_iff {action : Action} {thresholds : Thresholds}
    (h : options.Passes action thresholds) :
    options.FindsNothing input ↔
      ∃ doc, options.load input = .ok doc ∧ action.FindsNothing options.settings doc := by
  constructor
  · rintro ⟨action', thresholds', doc, h', hload, hnothing⟩
    cases h.action_eq.symm.trans h'.action_eq
    exact ⟨doc, hload, hnothing⟩
  · rintro ⟨doc, hload, hnothing⟩
    exact ⟨action, thresholds, doc, h, hload, hnothing⟩

/-- Only a host fails in its own words, when it is to read the input. -/
theorem reported_of_load {failure : Failure} (h : options.load input = .error failure)
    (hreported : (Refusal.failure failure).isReported = true) :
    ∃ subject text, input options.file = .error (.reported subject text) := by
  cases failure with
  | reported subject text =>
    unfold load at h
    cases hinput : input options.file with
    | error failure =>
      rw [hinput] at h
      cases h
      exact ⟨subject, text, rfl⟩
    | ok bytes =>
      rw [hinput] at h
      change Document.ofBytes bytes _ = _ at h
      unfold Document.ofBytes at h
      split at h <;> cases h
  | _ => cases hreported

/-- **What the flag changes.** Where nothing is found, a loud run tells so after the same log,
and with another exit code. Other runs are the same, and if they are refused it is for another
reason. -/
theorem outcome_cases (hloud : options.quiet = false) (stamp : String)
    (input : Option String → Except Failure ByteArray) :
    (options.FindsNothing input ∧ ∃ log place, options.action.bind Action.place? = some place ∧
      options.outcome stamp input =
        .refused log options.color ("no YAML element at " ++ place) ∧
      options.hushed.outcome stamp input = ⟨1, "", log⟩ ∧
      (options.verbosity = 0 → options.log = [] → log = "")) ∨
    (¬ options.FindsNothing input ∧
      options.hushed.outcome stamp input = options.outcome stamp input ∧
      (options.outcome stamp input).IsUsual
        (∃ subject text, input options.file = .error (.reported subject text))) := by
  rcases options.plan_cases stamp with
    ⟨action, thresholds, hpasses⟩ | ⟨outcome, hplan, husual⟩
  -- the input is read, for both runs the same
  · have hload' : options.hushed.load input = options.load input := rfl
    have hpasses' : options.hushed.Passes action thresholds := (passes_quiet_iff true).2 hpasses
    rw [outcome_of_passes hpasses, outcome_of_passes hpasses', hpasses.findsNothing_iff, hload']
    cases hload : options.load input with
    | error failure =>
      refine .inr ⟨?_, rfl, .inr ⟨"", options.color, .failure failure, rfl, rfl, ?_⟩⟩
      · rintro ⟨doc, h, -⟩
        cases h
      · exact reported_of_load hload
    | ok doc =>
      have hiff : (∃ doc', (.ok doc : Except Failure Document) = .ok doc' ∧
          action.FindsNothing options.settings doc') ↔
            action.FindsNothing options.settings doc := by simp
      rw [hiff]
      let job : Job := ⟨options, action, thresholds, if options.logTime then some stamp else none⟩
      rcases job.answer_cases hloud with
        ⟨hnothing, log, place, hplace, hanswer, hhushed, hlog⟩ | ⟨hsome, hhushed, husual⟩
      · rw [hpasses.action_eq]
        refine .inl ⟨hnothing, log, place, hplace, hanswer, hhushed, fun hverbosity hno => ?_⟩
        refine hlog ?_
        rw [← hverbosity, ← hno]
        exact hpasses.thresholds_eq
      · exact .inr ⟨hsome, hhushed, husual.imp False.elim⟩
  -- the plan is done, for both runs the same
  · have hfails : ¬ options.FindsNothing input := by
      rintro ⟨action, thresholds, doc, hpasses, -⟩
      rw [plan_of_passes hpasses] at hplan
      cases hplan
    have hhushed : options.hushed.plan stamp = .done outcome := by
      rw [plan_hushed, hplan]
      rfl
    rw [outcome_of_done hplan, outcome_of_done hhushed]
    exact .inr ⟨hfails, rfl, husual.imp False.elim⟩

theorem exists_loud (h : options.quiet = true) :
    ∃ loud : Options, loud.quiet = false ∧ loud.hushed = options :=
  ⟨{ options with quiet := false }, rfl, by rw [hushed, ← h]⟩

/-- **How runs end.** Only a run that succeeds prints, and a quiet run that finds nothing is
the only one with its exit code. -/
theorem outcome_ends (options : Options) (stamp : String)
    (input : Option String → Except Failure ByteArray) :
    ((options.outcome stamp input).exit = 1 ∧ (options.outcome stamp input).stdout = "" ∧
      options.quiet = true ∧ options.FindsNothing input) ∨
    (((options.outcome stamp input).exit = 0 ∨
        (options.outcome stamp input).exit = 127 ∧ (options.outcome stamp input).stdout = "") ∧
      ¬ (options.quiet = true ∧ options.FindsNothing input)) := by
  cases hquiet : options.quiet with
  | false =>
    refine .inr ⟨?_, fun h => Bool.false_ne_true h.1⟩
    rcases outcome_cases hquiet stamp input with
      ⟨-, log, place, -, houtcome, -⟩ | ⟨-, -, husual⟩
    · rw [houtcome]
      exact .inr ⟨rfl, rfl⟩
    · exact husual.exit_cases
  | true =>
    obtain ⟨loud, hloud, rfl⟩ := exists_loud hquiet
    rw [show loud.hushed.FindsNothing input ↔ loud.FindsNothing input from
      findsNothing_quiet_iff true]
    rcases outcome_cases hloud stamp input with
      ⟨hnothing, log, place, -, -, houtcome, -⟩ | ⟨hsome, hsame, husual⟩
    · rw [houtcome]
      exact .inl ⟨rfl, rfl, rfl, hnothing⟩
    · rw [hsame]
      exact .inr ⟨husual.exit_cases, fun h => hsome h.2⟩

theorem stdout_of_exit_ne_zero (h : (options.outcome stamp input).exit ≠ 0) :
    (options.outcome stamp input).stdout = "" := by
  rcases options.outcome_ends stamp input with ⟨-, hstdout, -⟩ | ⟨hzero | ⟨-, hstdout⟩, -⟩
  · exact hstdout
  · exact absurd hzero h
  · exact hstdout

theorem exit_eq_one_iff :
    (options.outcome stamp input).exit = 1 ↔
      options.quiet = true ∧ options.FindsNothing input := by
  rcases options.outcome_ends stamp input with ⟨hexit, -, hnothing⟩ | ⟨hexit | ⟨hexit, -⟩, husual⟩
  · exact iff_of_true hexit hnothing
  · exact iff_of_false (by rw [hexit]; decide) husual
  · exact iff_of_false (by rw [hexit]; decide) husual

end Options

/-! ## Command lines -/

/-- A command line is run as the options that it is read as. -/
theorem run_of_parse {words : List String} {options : Options}
    (h : Options.parse words = .ok options) (stamp : String)
    (input : Option String → Except Failure ByteArray) :
    run words stamp input = options.outcome stamp input := by
  rw [run, CommandLine.plan, h, Options.outcome]

/-- **Failures print nothing, and the quiet flag touches only empty answers.** A run that fails
has printed nothing. Its exit code is 1 just if it is a quiet run that gets as far as an action
that finds nothing. Words that are read as these options are run as they are, and if they do not
say so, `-q` in front of them makes the run quiet. The quiet run and the loud one print the same;
they differ just if nothing is found. Then the loud one fails with the message that there is no
element, and the quiet one says nothing of it. In all other cases they are the same run, and if
it fails it tells why, but not that there is no element unless a host has that in its own
words. -/
theorem run_quiet (options : Options) (stamp : String)
    (input : Option String → Except Failure ByteArray) :
    let outcome := options.outcome stamp input
    let loud := Options.outcome { options with quiet := false } stamp input
    let quiet := Options.outcome { options with quiet := true } stamp input
    (outcome.exit ≠ 0 → outcome.stdout = "") ∧
    (outcome.exit = 1 ↔ options.quiet = true ∧ options.FindsNothing input) ∧
    (∀ words, Options.parse words = .ok options → run words stamp input = outcome ∧
      (options.quiet = false → run ("-q" :: words) stamp input = quiet)) ∧
    quiet.stdout = loud.stdout ∧
    (options.FindsNothing input → loud.exit = 127 ∧ quiet.exit = 1 ∧
      (∃ place, options.action.bind Action.place? = some place ∧ loud.stderr =
        quiet.stderr ++ errorLabel options.color ++ ("no YAML element at " ++ place) ++ "\n") ∧
      (options.verbosity = 0 → options.log = [] → quiet.stderr = "")) ∧
    (¬ options.FindsNothing input → quiet = loud ∧
      (loud.exit ≠ 0 → loud.exit = 127 ∧ ∃ log colors, ∃ refusal : Refusal,
        loud.stderr = log ++ errorLabel colors ++ refusal.message ++ "\n" ∧
        ("no YAML element".toList <+: refusal.message.toList →
          ∃ subject text, input options.file = .error (.reported subject text)))) := by
  intro outcome loud quiet
  refine ⟨Options.stdout_of_exit_ne_zero, Options.exit_eq_one_iff, fun words hparse =>
    ⟨run_of_parse hparse stamp input, fun hloud =>
      run_of_parse (Options.parse_quiet hparse hloud) stamp input⟩, ?_⟩
  have hloud : ({ options with quiet := false } : Options).quiet = false := rfl
  have hcases := Options.outcome_cases hloud stamp input
  rw [Options.findsNothing_quiet_iff false] at hcases
  rcases hcases with
    ⟨hnothing, log, place, hplace, hloud, hquiet, hlog⟩ | ⟨hsome, hsame, husual⟩
  -- nothing is found: a loud refusal, and a quiet exit
  · rw [show loud = _ from hloud, show quiet = _ from hquiet]
    exact ⟨rfl, fun _ => ⟨rfl, rfl, ⟨place, hplace, rfl⟩, hlog⟩, fun h => absurd hnothing h⟩
  -- one and the same run: a refusal is told, but it does not tell of nothing
  · have hquiet : quiet = loud := hsame
    rw [hquiet]
    refine ⟨rfl, fun h => absurd h hsome, fun _ => ⟨rfl, fun hne => ?_⟩⟩
    rcases husual with hzero | ⟨log, colors, refusal, hrefused, hquietable, hreported⟩
    · exact absurd hzero hne
    · rw [show loud = _ from hrefused]
      refine ⟨rfl, log, colors, refusal, rfl, fun hprefix => hreported ?_⟩
      by_contra hnot
      rw [(Refusal.prefix_message_iff (Bool.eq_false_iff.2 hnot)).1 hprefix] at hquietable
      cases hquietable

/-- A comment has no element; a loud run says so. -/
theorem run_quiet_comment :
    let options : Options := { action := some (.trail 2) }
    let input : Option String → Except Failure ByteArray := fun _ => .ok "a: 1\n# b\n".toUTF8
    let loud := run ["chain", "2"] "" input
    let quiet := run ["-q", "chain", "2"] "" input
    Options.parse ["chain", "2"] = .ok options ∧ options.FindsNothing input ∧
      loud.exit = 127 ∧ loud.stdout = "" ∧ loud.stderr = "Error: no YAML element at line 2\n" ∧
      quiet.exit = 1 ∧ quiet.stdout = "" ∧ quiet.stderr = "" := by
  intro options input loud quiet
  have hparse : Options.parse ["chain", "2"] = .ok options := rfl
  let doc := Document.ofText "a: 1\n# b\n".toList 8
  have hpasses : options.Passes (.trail 2) ⟨some .warn, []⟩ := ⟨rfl, rfl, rfl, rfl, rfl⟩
  have hload : options.load input = .ok doc := by
    rw [Options.load, show options.settings.tabWidth = 8 by decide]
    exact Document.ofBytes_toUTF8 "a: 1\n# b\n" 8
  have hempty : Action.IsEmptyLine doc 2 := ⟨by decide, by decide +kernel, by decide +kernel⟩
  have hnothing : options.FindsNothing input :=
    ⟨.trail 2, ⟨some .warn, []⟩, doc, hpasses, hload, hempty⟩
  obtain ⟨hfails, -, hwords, hsame, hdiffers, -⟩ := run_quiet options "" input
  obtain ⟨hexit, hone, ⟨place, hplace, hstderr⟩, hsilent⟩ := hdiffers hnothing
  obtain ⟨hrun, hhushed⟩ := hwords ["chain", "2"] hparse
  rw [show loud = _ from hrun, show quiet = _ from hhushed rfl]
  have hstdout : (options.outcome "" input).stdout = "" := hfails (by rw [hexit]; decide)
  refine ⟨hparse, hnothing, hexit, hstdout, ?_, hone, hsame.trans hstdout, hsilent rfl rfl⟩
  obtain rfl : "line 2" = place := Option.some.inj hplace
  rw [hsilent rfl rfl] at hstderr
  exact hstderr.trans (by decide +kernel)

end Breadcrumb.CommandLine
