import Breadcrumb.Terminal
import Breadcrumb.Text.Blank

/-!
# Log records

A record has a level and a target, the `::`-separated name of the component that
speaks. How much is written is set for all targets, and for single components and
all below them in specifications such as `yaml.scan=debug`.

* `Specification.parse`: what a specification may look like.
* `Thresholds.limit`: the longest name that covers the target decides.
-/

namespace Breadcrumb

open Text

/-- How much a record matters. -/
inductive Level where
  | error
  | warn
  | info
  | debug
  | trace
  deriving DecidableEq, Repr

namespace Level

/-- The levels from the gravest on. -/
def rank : Level → Nat
  | error => 1
  | warn => 2
  | info => 3
  | debug => 4
  | trace => 5

def name : Level → String
  | error => "ERROR"
  | warn => "WARN"
  | info => "INFO"
  | debug => "DEBUG"
  | trace => "TRACE"

def style : Level → Style
  | error => .red
  | warn => .yellow
  | info => .green
  | debug => .blue
  | trace => .gray

end Level

/-- The least grave level still written; `none` writes nothing. -/
abbrev Limit := Option Level

/-- A level is written if it is at least as grave as the limit. -/
def Limit.admits (limit : Limit) (level : Level) : Bool :=
  limit.any fun last => level.rank ≤ last.rank

def Limit.named : List (List Char × Limit) :=
  [("off".toList, none), ("error".toList, some .error), ("warn".toList, some .warn),
    ("info".toList, some .info), ("debug".toList, some .debug), ("trace".toList, some .trace)]

/-- The limit with a name; case does not matter. -/
def Limit.ofName? (name : List Char) : Option Limit := Limit.named.lookup (name.map Char.toLower)

/-- The limit after asking `n` times to say more. -/
def Limit.ofVerbosity : Nat → Limit
  | 0 => some .warn
  | 1 => some .info
  | 2 => some .debug
  | _ => some .trace

structure Record where
  level : Level
  target : String
  message : String
  deriving DecidableEq, Repr

/-- A record as a line of a log, after a time stamp if one is given. -/
def Record.render (colors : Bool) (stamp : Option String) (record : Record) : String :=
  stamp.elim "" (fun time => Style.gray.applyIf colors time ++ " ") ++
    record.level.style.applyIf colors record.level.name ++ " [" ++ record.target ++ "] " ++
    record.message ++ "\n"

/-- Why a specification cannot be read. -/
inductive SpecificationError where
  | component (specification : List Char)
  | level (name specification : List Char)
  deriving DecidableEq, Repr

def SpecificationError.message : SpecificationError → String
  | component specification => "Invalid log component '" ++ String.ofList specification ++ "'"
  | level name specification =>
    "Invalid log level '" ++ String.ofList name ++ "' in '" ++ String.ofList specification ++ "'"

/-- A limit for a component and all below it. -/
structure Specification where
  component : List Char
  limit : Limit
  deriving DecidableEq, Repr

namespace Specification

def isNameStart (c : Char) : Bool := c.isAlpha || c = '_'

def isNameChar (c : Char) : Bool := c.isAlphanum || c = '_' || c = '.' || c = ':'

/-- The component that everything in the program belongs to. -/
def root : List Char := "yaml_path".toList

def separator : List Char := [':', ':']

/-- `name` is `outer`, or below it. -/
def isWithin (outer name : List Char) : Bool :=
  name = outer || (outer ++ separator).isPrefixOf name

/-- The full name of a component: dots separate too, and the root may be left out. -/
def qualify (name : List Char) : List Char :=
  let name := name.flatMap fun c => if c = '.' then separator else [c]
  if isWithin root name then name else root ++ separator ++ name

/-- Reads `component` or `component=level`. A component without a level says all. -/
def parse (specification : List Char) : Except SpecificationError Specification :=
  let name := specification.takeWhile isNameChar
  if !name.head?.any isNameStart then .error (.component specification)
  else match specification.dropWhile isNameChar with
    | [] => .ok ⟨qualify name, some .trace⟩
    | '=' :: level =>
      if level.isEmpty || !level.all Char.isAlpha then .error (.component specification)
      else match Limit.ofName? level with
        | some limit => .ok ⟨qualify name, limit⟩
        | none => .error (.level level specification)
    | _ => .error (.component specification)

/-- The specifications in a comma-separated list; empty ones are skipped. -/
def pieces (list : List Char) : List (List Char) :=
  ((list.splitOn ',').map trim).filter fun piece => !piece.isEmpty

end Specification

structure Thresholds where
  /-- The limit of targets that no specification covers. -/
  general : Limit
  specifications : List Specification

namespace Thresholds

/-- The thresholds for a verbosity and comma-separated lists of specifications. -/
def parse (verbosity : Nat) (lists : List String) : Except SpecificationError Thresholds := do
  let pieces := lists.flatMap fun list => Specification.pieces list.toList
  return ⟨.ofVerbosity verbosity, ← pieces.mapM Specification.parse⟩

/-- The limit for a target: that of the longest component it belongs to, the last
one given of those that are equal. -/
def limit (thresholds : Thresholds) (target : List Char) : Limit :=
  let covering := thresholds.specifications.filter fun s =>
    Specification.isWithin s.component target
  let best := covering.foldl (fun best s =>
    if best.any fun b => s.component.length < b.component.length then best else some s)
    (none : Option Specification)
  best.elim thresholds.general Specification.limit

/-- A record is written if the limit of its target admits its level. -/
def admits (thresholds : Thresholds) (record : Record) : Bool :=
  (thresholds.limit record.target.toList).admits record.level

end Thresholds

end Breadcrumb
