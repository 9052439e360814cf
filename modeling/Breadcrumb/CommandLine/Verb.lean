import Breadcrumb.CommandLine.Options
import Breadcrumb.CommandLine.Usage
import Breadcrumb.CommandLine.Word

/-!
# Verbs

The names of the actions, and how the words after a name are read. Options of the
whole command line are unknown there.
-/

namespace Breadcrumb.CommandLine

/-- The actions, without what they need. -/
inductive Verb where
  | path
  | subscript
  | trail
  | paths (ending : Ending)
  | locate
  deriving DecidableEq, Repr

namespace Verb

def names : List (String × Verb) :=
  [("get-path", path), ("index-expr", subscript), ("chain", trail), ("paths", paths .newline),
    ("paths-0", paths .nul), ("locate", locate)]

/-- The action that asks for help. -/
def helpName : String := "help"

def isName (word : String) : Bool := word = helpName || (names.lookup word).isSome

def takesOperand : Verb → Bool
  | paths _ => false
  | _ => true

/-- The action with its operand, if there is one and it is of the right kind. -/
def complete (verb : Verb) (operand : Option String) (force : Bool) : Except Usage Action :=
  match verb, operand with
  | paths ending, _ => .ok (.paths ending force)
  | locate, some word => .ok (.locate word)
  | path, some word => number word .path
  | subscript, some word => number word .subscript
  | trail, some word => number word .trail
  | _, none => .error .missingOperand
where
  /-- The action on the line whose number a word gives. -/
  number (word : String) (f : Nat → Action) : Except Usage Action :=
    match number? word with
    | some n => .ok (f n)
    | none => .error .invalidNumber

/-- Takes a word as the operand, if one is still needed. -/
def addOperand (verb : Verb) (operand : Option String) (word : String) :
    Except Usage (Option String) :=
  if verb.takesOperand && operand.isNone then .ok (some word) else .error .unknownArgument

/-- Help on an action; a bad operand in front of it is reported instead. -/
def help (verb : Verb) (operand : Option String) : Except Usage Action :=
  if operand.isNone then .error .help
  else match verb.complete operand false with
    | .ok _ => .error .help
    | .error usage => .error usage

/-- Reads the words after `--`, which are no options. -/
def readOperands (verb : Verb) (operand : Option String) (force : Bool) :
    List String → Except Usage Action
  | [] => verb.complete operand force
  | word :: words => do
    let operand ← verb.addOperand operand word
    verb.readOperands operand force words

/-- Reads the words after an action. -/
def read (verb : Verb) (operand : Option String) (force : Bool) : List String → Except Usage Action
  | [] => verb.complete operand force
  | word :: words =>
    match Word.ofString word with
    | .dashes => verb.readOperands operand force words
    | .long name value =>
      if name = "help" then
        if value.isSome then .error .unexpectedValue else verb.help operand
      else if name = "force" && !verb.takesOperand then
        if value.isSome then .error .unexpectedValue
        else if force then .error .repeatedOption
        else verb.read operand true words
      else .error .unknownArgument
    | .short letters =>
      if letters.head? = some 'h' then verb.help operand else .error .unknownArgument
    | .plain text => do
      let operand ← verb.addOperand operand text
      verb.read operand force words

end Verb

end Breadcrumb.CommandLine
