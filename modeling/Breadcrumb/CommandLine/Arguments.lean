import Breadcrumb.CommandLine.Switch
import Breadcrumb.CommandLine.Verb

/-!
# Arguments

How the words of a command line are read: options first, then an action and what
it needs. Of two mistakes an unknown word is reported before a bad value that waits
in front of it, and a mistake after the name of an action before one in front of it.
-/

namespace Breadcrumb.CommandLine

/-- Help on the actions named by words; actions have no actions of their own. -/
def readHelp : List String → Usage
  | [] => .help
  | [word] => if Verb.isName word then .help else .unknownAction
  | _ => .unknownAction

namespace Partial

/-- The options at the end of the words. -/
def finish (p : Partial) : Except Usage Options := do return (← p.settle).options

/-- Reads an action by name and what belongs to it. -/
def act (p : Partial) (name : String) (words : List String) : Except Usage Options :=
  match Verb.names.lookup name with
  | some verb => do
    let action ← verb.read none false words
    return { ← p.finish with action := some action }
  | none => .error (if name = Verb.helpName then readHelp words else .unknownAction)

/-- Reads the words after `--`, which name no action any more: a name is out of place,
and any other word is taken for an unknown name. -/
def finishAfterDashes (p : Partial) : List String → Except Usage Options
  | [] => p.finish
  | word :: _ => .error (if Verb.isName word then .unknownArgument else .unknownAction)

def read (p : Partial) : List String → Except Usage Options
  | [] => p.finish
  | word :: words =>
    match Word.ofString word with
    | .dashes => p.finishAfterDashes words
    | .long name value => do (← p.long name value).read words
    | .short letters => do (← p.short letters).read words
    | .plain text => if p.isAwaiting then (p.await text).read words else p.act text words

end Partial

/-- The options that the words of a command line give. -/
def Options.parse (words : List String) : Except Usage Options := ({} : Partial).read words

example : Options.parse ["-qs=/", "paths"] =
    .ok { quiet := true, separator := "/", action := some (.paths .newline false) } := rfl
example : Options.parse ["--tab-width", "x", "--bogus"] = .error .unknownArgument := rfl
example : Options.parse ["--tab-width", "x", "get-path"] = .error .missingOperand := rfl
example : Options.parse ["-s", "--", "paths"] = .error .unknownArgument := rfl
example : Options.parse ["-s", "--", "x"] = .error .unknownAction := rfl
example : Options.parse ["--tab-width=x", "--bogus"] = .error .invalidNumber := rfl

end Breadcrumb.CommandLine
