import Breadcrumb.Proofs.Messages

/-!
# What a run comes to

A run writes as it goes, but by the time it prints its answer nothing can go wrong any more.
So it comes to the same as if the action were performed first, and then its records were
written, and then either its answer or why there is none.

* `Action.perform`: what an action comes to, apart from when it is written.
* `Job.act_eq`: all writing can be put off to the end.
* `Job.answer_eq_of_ok`, `Job.answer_eq_of_error`: so a refused run has printed nothing.
-/

namespace Breadcrumb.CommandLine

/-- What an action comes to: the output, or why there is none; and the records
written meanwhile. -/
structure Result where
  records : List Record
  output : Except Refusal String

namespace Action

/-- Answers about the line with a number, if it has an answer. -/
def onLine (doc : Document) (number : Nat) (records : Nat → List Record)
    (answer : Nat → Option String) : Result :=
  match doc.index? number with
  | .error failure => ⟨[], .error (.failure failure)⟩
  | .ok i => ⟨records i, (answer i).elim (.error (.nothingAtLine number)) .ok⟩

def perform (colors : Bool) (settings : Settings) (doc : Document) : Action → Result
  | path number =>
    onLine doc number (Narration.path doc settings) fun i =>
      (doc.path? settings i).map (· ++ "\n")
  | subscript number =>
    onLine doc number (Narration.trail doc) fun i =>
      (doc.subscript? settings.mark i).map (· ++ "\n")
  | trail number =>
    onLine doc number (Narration.trail doc) fun i => (doc.trail? i).map (Listing.trail colors)
  | paths ending force =>
    if settings.isLive doc then
      ⟨Narration.paths doc settings, .ok (listing ending settings doc)⟩
    else if force then
      ⟨Narration.oversized :: Narration.paths doc settings,
        .ok (listing ending settings.lifted doc)⟩
    else ⟨[], .error (.tooLarge doc.size settings.sizeLimit)⟩
  | locate wanted =>
    ⟨Narration.locate doc settings.separator wanted,
      match doc.locate settings.separator wanted with
      | [] => .error (.nothingAtPath wanted)
      | lines => .ok (Listing.numbers (lines.map (· + 1)))⟩

end Action

namespace Script

theorem ext {α : Type} {script other : Script α}
    (h : ∀ streams, script.run streams = other.run streams) : script = other := funext h

@[simp]
theorem run_print (text : String) (streams : Streams) :
    (print text).run streams = .ok () { streams with stdout := streams.stdout ++ text } := rfl

theorem print_empty : print "" = pure () :=
  ext fun streams => by rw [run_print, String.append_empty, EStateM.run_pure]

theorem print_append (text more : String) :
    print (text ++ more) = (do print text; print more) :=
  ext fun streams => by simp only [EStateM.run_bind, run_print, String.append_assoc]

/-- What is printed piece by piece could be printed at once. -/
theorem forM_print {α : Type} (text : α → String) (pieces : List α) :
    (pieces.forM fun piece => print (text piece)) = print (String.join (pieces.map text)) := by
  induction pieces with
  | nil => exact print_empty.symm
  | cons piece pieces ih =>
    rw [List.map_cons, String.join_cons, print_append, ← ih]
    rfl

end Script

namespace Job

variable (job : Job) (doc : Document)

theorem log_append (records more : List Record) :
    job.log (records ++ more) = job.log records ++ job.log more := by
  rw [log, List.filter_append, List.map_append, String.join_append]
  rfl

@[simp]
theorem run_tell (records : List Record) (streams : Streams) :
    (job.tell records).run streams =
      .ok () { streams with stderr := streams.stderr ++ job.log records } := rfl

theorem tell_nil : job.tell [] = pure () :=
  Script.ext fun streams => by
    rw [run_tell, show job.log [] = "" from rfl, String.append_empty, EStateM.run_pure]

theorem tell_append (records more : List Record) :
    job.tell (records ++ more) = (do job.tell records; job.tell more) :=
  Script.ext fun streams => by
    simp only [EStateM.run_bind, run_tell, log_append, String.append_assoc]

/-- Writes the records of a result, and then its output. -/
def conclude (result : Result) : Script Bool := do
  job.tell result.records
  match result.output with
  | .ok text =>
    Script.print text
    return true
  | .error refusal =>
    if refusal.isQuietable && job.options.quiet then return false else throw refusal

theorem conclude_cons (record : Record) (records : List Record)
    (output : Except Refusal String) :
    job.conclude ⟨record :: records, output⟩ =
      (do job.tell [record]; job.conclude ⟨records, output⟩) := by
  rw [conclude, ← List.singleton_append, tell_append, bind_assoc]
  rfl

theorem conclude_of_not_quietable {refusal : Refusal} (h : refusal.isQuietable = false) :
    job.conclude ⟨[], .error refusal⟩ = throw refusal := by
  simp only [conclude, tell_nil, pure_bind, h, Bool.false_and, if_neg Bool.false_ne_true]

theorem actOnLine_eq (number : Nat) (records : Nat → List Record)
    (answer : Nat → Option String) :
    job.actOnLine doc number records answer =
      job.conclude (Action.onLine doc number records answer) := by
  rw [actOnLine, Action.onLine]
  cases doc.index? number with
  | error failure => exact (job.conclude_of_not_quietable rfl).symm
  | ok i =>
    dsimp only [conclude]
    cases answer i <;> rfl

section Paths

variable {doc}

theorem permit_of_isLive (h : job.options.settings.isLive doc = true) (force : Bool) :
    job.permit doc force = pure job.options.settings := by
  rw [permit, if_pos h]

theorem permit_forced (h : job.options.settings.isLive doc = false) :
    job.permit doc true =
      (do job.tell [Narration.oversized]; return job.options.settings.lifted) := by
  rw [permit, h, if_neg Bool.false_ne_true]
  rfl

theorem permit_unforced (h : job.options.settings.isLive doc = false) :
    job.permit doc false = throw (.tooLarge doc.size job.options.settings.sizeLimit) := by
  rw [permit, h, if_neg Bool.false_ne_true]
  rfl

theorem act_paths_eq (ending : Ending) (force : Bool) :
    job.act doc (.paths ending force) =
      job.conclude ((Action.paths ending force).perform job.options.color job.options.settings
        doc) := by
  rw [act, Action.perform]
  cases hlive : job.options.settings.isLive doc with
  | true =>
    rw [permit_of_isLive job hlive, pure_bind, if_pos rfl]
    rfl
  | false =>
    rw [if_neg Bool.false_ne_true]
    cases force with
    | true =>
      rw [permit_forced job hlive, if_pos rfl, conclude_cons, bind_assoc, pure_bind]
      rfl
    | false =>
      rw [permit_unforced job hlive, if_neg Bool.false_ne_true]
      exact (job.conclude_of_not_quietable rfl).symm

end Paths

theorem act_locate_eq (wanted : String) :
    job.act doc (.locate wanted) =
      job.conclude ((Action.locate wanted).perform job.options.color job.options.settings
        doc) := by
  have hperform : ∀ lines, doc.locate job.options.separator wanted = lines →
      (Action.locate wanted).perform job.options.color job.options.settings doc =
        ⟨Narration.locate doc job.options.separator wanted,
          match lines with
          | [] => .error (.nothingAtPath wanted)
          | lines => .ok (Listing.numbers (lines.map (· + 1)))⟩ := by
    rintro lines rfl
    rfl
  rw [act]
  cases hlines : doc.locate job.options.separator wanted with
  | nil =>
    rw [hperform [] hlines]
    rfl
  | cons i lines =>
    -- line numbers are printed one by one, but nothing comes in between
    rw [hperform (i :: lines) hlines, conclude]
    simp only [Script.forM_print, Listing.numbers, List.map_map]
    rfl

/-- **All writing can be put off to the end.** -/
theorem act_eq (action : Action) :
    job.act doc action =
      job.conclude (action.perform job.options.color job.options.settings doc) := by
  cases action with
  | path number => exact job.actOnLine_eq doc number _ _
  | subscript number => exact job.actOnLine_eq doc number _ _
  | trail number => exact job.actOnLine_eq doc number _ _
  | paths ending force => exact job.act_paths_eq ending force
  | locate wanted => exact job.act_locate_eq doc wanted

theorem outcome_conclude_ok (records : List Record) (output : String) :
    (job.conclude ⟨records, .ok output⟩).outcome job.options.color =
      ⟨0, output, job.log records⟩ := by
  show Outcome.mk 0 ("" ++ output) ("" ++ job.log records) = _
  rw [String.empty_append, String.empty_append]

theorem outcome_conclude_error (records : List Record) (refusal : Refusal) :
    (job.conclude ⟨records, .error refusal⟩).outcome job.options.color =
      if refusal.isQuietable && job.options.quiet then ⟨1, "", job.log records⟩
      else ⟨127, "", job.log records ++ errorLine job.options.color refusal⟩ := by
  unfold conclude
  dsimp only
  cases refusal.isQuietable && job.options.quiet with
  | true =>
    show Outcome.mk 1 "" ("" ++ job.log records) = ⟨1, "", job.log records⟩
    rw [String.empty_append]
  | false =>
    show Outcome.mk 127 "" ("" ++ job.log records ++ errorLine job.options.color refusal) =
      ⟨127, "", job.log records ++ errorLine job.options.color refusal⟩
    rw [String.empty_append]

/-- The log of a run: the document that was read, and what the action records. -/
def runLog : String :=
  job.log (Narration.loaded doc ::
    (job.action.perform job.options.color job.options.settings doc).records)

theorem script_eq :
    let result := job.action.perform job.options.color job.options.settings doc
    job.script doc = job.conclude ⟨Narration.loaded doc :: result.records, result.output⟩ := by
  intro result
  rw [script, act_eq, conclude_cons]

variable {job doc}

/-- **What a run prints** is the output of an action that succeeds. -/
theorem answer_eq_of_ok {text : String}
    (h : (job.action.perform job.options.color job.options.settings doc).output = .ok text) :
    job.answer doc = ⟨0, text, job.runLog doc⟩ := by
  rw [answer, script_eq, h, outcome_conclude_ok, runLog]

/-- **A refused run has printed nothing.** -/
theorem answer_eq_of_error {refusal : Refusal}
    (h : (job.action.perform job.options.color job.options.settings doc).output =
      .error refusal) :
    job.answer doc =
      if refusal.isQuietable && job.options.quiet then ⟨1, "", job.runLog doc⟩
      else ⟨127, "", job.runLog doc ++ errorLine job.options.color refusal⟩ := by
  rw [answer, script_eq, h, outcome_conclude_error, runLog]

end Job

end Breadcrumb.CommandLine
