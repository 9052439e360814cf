import Breadcrumb.CommandLine.Arguments
import Breadcrumb.CommandLine.Narration
import Breadcrumb.Tour

/-!
# Running a command line

What a command line prints and how it exits. First come the checks that need no
document; if they leave something to do, the document is read, and then the action
is carried out. A run writes as it goes, and whatever ends it, what it has written
stays written.

* A refusal exits with 127 and is told on standard error.
* Finding nothing is a refusal too, but a quiet run exits with 1 and does not tell.
* Arguments that cannot be read exit with 2.
-/

namespace Breadcrumb.CommandLine

/-- Why a command line is not carried out. -/
inductive Refusal where
  | failure (cause : Failure)
  | specification (error : SpecificationError)
  | colorConflict
  | missingAction
  | nothingAtLine (number : Nat)
  | nothingAtPath (path : String)
  | tooLarge (size limit : Nat)
  deriving DecidableEq, Repr

namespace Refusal

def message : Refusal → String
  | failure cause => cause.message
  | specification error => error.message
  | colorConflict => "Cannot use both --color and --no-color"
  | missingAction => "Missing action"
  | nothingAtLine number => "no YAML element at line " ++ toString number
  | nothingAtPath path => "no YAML element at path '" ++ path ++ "'"
  | tooLarge size limit =>
    "document is " ++ toString size ++ " bytes, over the " ++ toString limit ++
      " bytes limit (use --max-size or --force)"

end Refusal

structure Outcome where
  exit : UInt8
  stdout : String
  stderr : String
  deriving DecidableEq, Repr

/-- The line that tells of a refusal. -/
def errorLine (colors : Bool) (refusal : Refusal) : String :=
  Style.red.applyIf colors "Error" ++ ": " ++ refusal.message ++ "\n"

/-! ## Scripts -/

/-- What a run has written. -/
structure Streams where
  stdout : String := ""
  stderr : String := ""
  deriving DecidableEq, Repr

/-- A part of a run. It writes as it goes; if it is refused, what it has written before
stays written. -/
abbrev Script := EStateM Refusal Streams

namespace Script

def print (text : String) : Script Unit :=
  modify fun streams => { streams with stdout := streams.stdout ++ text }

/-- The outcome of a script that comes back with whether it has found anything. -/
def outcome (colors : Bool) (script : Script Bool) : Outcome :=
  match script.run {} with
  | .ok found streams => ⟨if found then 0 else 1, streams.stdout, streams.stderr⟩
  | .error refusal streams => ⟨127, streams.stdout, streams.stderr ++ errorLine colors refusal⟩

end Script

/-! ## Runs -/

/-- A run that waits for its document. -/
structure Job where
  options : Options
  action : Action
  thresholds : Thresholds
  /-- The time stamp of records, if they carry one. -/
  stamp : Option String

/-- The entries noted on a tour. A tour does not leave the text, so it is never `none`. -/
def Action.listing (ending : Ending) (settings : Settings) (doc : Document) : String :=
  Listing.entries ending ((doc.tour? settings).getD [])

namespace Job

/-- The records that are written, as lines of a log. -/
def log (job : Job) (records : List Record) : String :=
  String.join ((records.filter job.thresholds.admits).map
    (Record.render job.options.color job.stamp))

def tell (job : Job) (records : List Record) : Script Unit :=
  modify fun streams => { streams with stderr := streams.stderr ++ job.log records }

/-- Ends a run that finds nothing. -/
def endEmpty (job : Job) (refusal : Refusal) : Script Bool :=
  if job.options.quiet then return false else throw refusal

/-- Prints the answer about the line with a number, if it has an answer. -/
def actOnLine (job : Job) (doc : Document) (number : Nat) (records : Nat → List Record)
    (answer : Nat → Option String) : Script Bool := do
  match doc.index? number with
  | .error failure => throw (.failure failure)
  | .ok i =>
    job.tell (records i)
    match answer i with
    | some text =>
      Script.print text
      return true
    | none => job.endEmpty (.nothingAtLine number)

/-- The settings under which all paths are listed; a document over the size limit has to be
forced. -/
def permit (job : Job) (doc : Document) (force : Bool) : Script Settings := do
  let settings := job.options.settings
  if settings.isLive doc then return settings
  if !force then throw (.tooLarge doc.size settings.sizeLimit)
  job.tell [Narration.oversized]
  return settings.lifted

/-- Carries out an action. -/
def act (job : Job) (doc : Document) : Action → Script Bool
  | .path number =>
    job.actOnLine doc number (Narration.path doc job.options.settings) fun i =>
      (doc.path? job.options.settings i).map (· ++ "\n")
  | .subscript number =>
    job.actOnLine doc number (Narration.trail doc) fun i =>
      (doc.subscript? job.options.settings.mark i).map (· ++ "\n")
  | .trail number =>
    job.actOnLine doc number (Narration.trail doc) fun i =>
      (doc.trail? i).map (Listing.trail job.options.color)
  | .paths ending force => do
    let settings ← job.permit doc force
    job.tell (Narration.paths doc settings)
    Script.print (Action.listing ending settings doc)
    return true
  | .locate wanted => do
    job.tell (Narration.locate doc job.options.separator wanted)
    match doc.locate job.options.separator wanted with
    | [] => job.endEmpty (.nothingAtPath wanted)
    | lines =>
      lines.forM fun i => Script.print (toString (i + 1) ++ "\n")
      return true

/-- The run once its document is there. -/
def script (job : Job) (doc : Document) : Script Bool := do
  job.tell [Narration.loaded doc]
  job.act doc job.action

/-- What the run comes to once its document is there. -/
def answer (job : Job) (doc : Document) : Outcome := (job.script doc).outcome job.options.color

/-- The run after its input has been read, or could not be. -/
def finish (job : Job) (input : Except Failure ByteArray) : Outcome :=
  match input.bind (Document.ofBytes · job.options.settings.tabWidth) with
  | .ok doc => job.answer doc
  | .error failure => ⟨127, "", errorLine job.options.color (.failure failure)⟩

end Job

/-- What is left to do once the words of a command line are read. -/
inductive Plan where
  | done (outcome : Outcome)
  /-- The input is to be read, from a file or else from standard input, to finish the job. -/
  | reading (job : Job)

/-- The version of the program, and the compiler it was built with. -/
def versionText : String := "version: 0.1.0\nRust: unknown\n"

/-- The checks before the input is read. Colors are on only once the options that
govern them are known to agree. -/
def Options.plan (options : Options) (stamp : String) : Plan :=
  match Thresholds.parse options.verbosity options.log with
  | .error error => refuse false (.specification error)
  | .ok thresholds =>
    -- before this check it is not known whether the refusal itself may be colored
    if options.color && options.noColor then refuse false .colorConflict
    else if options.version then .done ⟨0, versionText, ""⟩
    else match options.action with
      | none => refuse options.color .missingAction
      | some action =>
        match options.settings.validate with
        | .error failure => refuse options.color (.failure failure)
        | .ok () =>
          .reading ⟨options, action, thresholds, if options.logTime then some stamp else none⟩
where
  /-- A run that ends with a refusal. -/
  refuse (colors : Bool) (refusal : Refusal) : Plan := .done ⟨127, "", errorLine colors refusal⟩

/-- What to do about the words of a command line; records are stamped with `stamp`. -/
def plan (words : List String) (stamp : String) : Plan :=
  match Options.parse words with
  | .ok options => options.plan stamp
  | .error .help => .done ⟨0, Usage.helpText, ""⟩
  | .error usage => .done ⟨2, "", "error: " ++ usage.message ++ "\n"⟩

/-- What a plan comes to; `input` is what a file, or else standard input, holds. -/
def Plan.outcome (input : Option String → Except Failure ByteArray) : Plan → Outcome
  | .done outcome => outcome
  | .reading job => job.finish (input job.options.file)

/-- Runs a command line. -/
def run (words : List String) (stamp : String) (input : Option String → Except Failure ByteArray) :
    Outcome :=
  (plan words stamp).outcome input

end Breadcrumb.CommandLine
