import Breadcrumb.Walk

/-!
# Sessions

A session moves a cursor step by step, sends it to answer questions about the point
and the document, and tells observers of the path at the point. An excursion puts the
point back after its steps. A step that would read off the text ends the session with
`none`, and so does one whose count stops.
-/

namespace Breadcrumb

open Text

/-- What can be asked in a session. Lines are given by their numbers. -/
inductive Question where
  | lineNumber
  | atStart
  | atLineStart
  | atLineEnd
  | inComment
  | indentation
  | restOfLine
  | token
  | looksAt (literal : String)
  | role
  | isStructural
  | tagOf (number : Nat)
  | previousStructural (number : Nat)
  | parent (number : Nat) (column : UInt64)
  | ancestors (number : Nat) (column : UInt64)
  | trail
  | keys
  | path
  | subscript
  | locate (path : String)
  | isLive
  deriving DecidableEq, Repr

/-- A step of a session. -/
inductive Step where
  | goto (number : Nat)
  | goUp
  | backToIndent
  | moveToColumn (column : UInt64)
  | ask (question : Question)
  /-- Adds an observer. -/
  | register
  /-- Tells every observer of the path at the point, unless the document is too large. -/
  | announce
  /-- Steps after which the point is put back. -/
  | excursion (steps : List Step)
  deriving Repr

inductive Answer where
  | nothing
  | flag (value : Bool)
  | number (value : Nat)
  | text (value : String)
  | role (value : LineRole)
  | numbers (values : List Nat)
  | texts (values : List String)
  | trail (crumbs : List Crumb)
  deriving DecidableEq, Repr

/-- An observer is told of the path at a point; there is none outside of the structure. -/
structure Notice where
  observer : Nat
  point : Point
  path : Option String
  deriving DecidableEq, Repr

/-- What a step leaves behind: its answer or those of its steps, the point after it,
and what observers were told meanwhile. -/
inductive Report where
  | single (answer : Except Failure Answer) (point : Point) (notices : List Notice)
  | excursion (reports : List Report) (point : Point) (notices : List Notice)

def Report.notices : Report → List Notice
  | single _ _ notices => notices
  | excursion _ _ notices => notices

/-- A cursor and the number of observers registered. -/
structure Session where
  settings : Settings
  cursor : Cursor
  observers : Nat := 0

namespace Answer

def ofOption {α : Type} (f : α → Answer) (value : Option α) : Answer := value.elim nothing f

end Answer

namespace Question

/-- Finds out about the line with a number, if there is one. -/
def onLine (number : Nat) (walk : Nat → Walk Answer) : Walk (Except Failure Answer) := do
  match (← get).document.index? number with
  | .ok i => return .ok (← walk i)
  | .error failure => return .error failure

/-- The walk that answers a question. -/
def walk (settings : Settings) (question : Question) : Walk (Except Failure Answer) := do
  match question with
  | lineNumber => return .ok (.number ((← get).point.line + 1))
  | atStart => return .ok (.flag (← get).atStart)
  | atLineStart => return .ok (.flag (← get).atLineStart)
  | atLineEnd => return .ok (.flag (← Walk.look Cursor.atLineEnd?))
  | inComment => return .ok (.flag (← Walk.look Cursor.inComment?))
  | indentation => return .ok (.number (← Walk.look Cursor.indentation?).toNat)
  | restOfLine => return .ok (.text (String.ofList (← Walk.look Cursor.rest?)))
  | token => return .ok (.ofOption (.text ∘ String.ofList) (← Walk.look Cursor.token?))
  | looksAt literal => return .ok (.flag (← Walk.look (·.looksAt? literal.toList)))
  | role => return .ok (.role (← Walk.role))
  | isStructural => return .ok (.flag (← Walk.isStructural))
  | tagOf number => onLine number fun i => return .text (← Walk.tag i)
  | previousStructural number =>
    onLine number fun i => return .ofOption (.number ∘ (· + 1)) (← Walk.previousStructural i)
  | parent number column =>
    onLine number fun i => return .ofOption (.number ∘ (· + 1)) (← Walk.parent column i)
  | ancestors number column =>
    onLine number fun i => return .numbers ((← Walk.ancestors column i).map (· + 1))
  | trail => return .ok (.ofOption .trail (← Walk.trail))
  | keys => return .ok (.ofOption .texts (← Walk.keys))
  | path => return .ok (.ofOption .text (← Walk.path settings))
  | subscript => return .ok (.ofOption .text (← Walk.subscript settings.mark))
  | locate wanted =>
    return .ok (.numbers ((← Walk.locate settings.separator wanted).map (· + 1)))
  | isLive => return .ok (.flag (settings.isLive (← get).document))

end Question

namespace Session

/-- A session on a document whose point is at a given place. -/
def opened (settings : Settings) (doc : Document) (point : Point) (arithmetic : Arithmetic) :
    Session where
  settings := settings
  cursor := { document := doc, point := point, arithmetic := arithmetic }

/-- The session with its cursor moved on, and the report on the step. -/
def answered (s : Session) (cursor : Cursor) (answer : Except Failure Answer) :
    Session × Report :=
  ({ s with cursor := cursor }, .single answer cursor.point [])

/-- Has a question answered. -/
def ask (s : Session) (question : Question) : Option (Session × Report) := do
  let (answer, cursor) ← question.walk s.settings s.cursor
  return s.answered cursor answer

/-- Tells the observers of the path at the point, if it is live. -/
def announce (s : Session) : Option (Session × Report) := do
  if s.settings.isLive s.cursor.document then
    let (path, cursor) ← Walk.path s.settings s.cursor
    let notices := (List.range s.observers).map fun observer => ⟨observer, cursor.point, path⟩
    return ({ s with cursor := cursor }, .single (.ok (.flag true)) cursor.point notices)
  else return s.answered s.cursor (.ok (.flag false))

mutual

/-- The session after a step, and the report on the step. -/
def step (s : Session) : Step → Option (Session × Report)
  | .goto number =>
    match s.cursor.goto? number with
    | .ok cursor => some (s.answered cursor (.ok .nothing))
    | .error failure => some (s.answered s.cursor (.error failure))
  | .goUp => some (s.answered s.cursor.goUp.2 (.ok (.flag s.cursor.goUp.1)))
  | .backToIndent => s.cursor.backToIndent?.map (s.answered · (.ok .nothing))
  | .moveToColumn column =>
    (s.cursor.moveToColumn? column).map fun (reached, cursor) =>
      s.answered cursor (.ok (.number reached.toNat))
  | .ask question => s.ask question
  | .register =>
    some ({ s with observers := s.observers + 1 },
      .single (.ok (.number s.observers)) s.cursor.point [])
  | .announce => s.announce
  | .excursion steps => do
    let (after, reports) ← run s steps
    -- only the point is put back; observers registered meanwhile stay
    let cursor := after.cursor.place s.cursor.point
    return ({ after with cursor := cursor },
      .excursion reports cursor.point (reports.flatMap Report.notices))

/-- The session after some steps, and the reports on them. -/
def run (s : Session) : List Step → Option (Session × List Report)
  | [] => some (s, [])
  | first :: steps => do
    let (s, report) ← step s first
    let (s, reports) ← run s steps
    return (s, report :: reports)

end

end Session

end Breadcrumb
