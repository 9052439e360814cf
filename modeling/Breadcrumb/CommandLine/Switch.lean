import Breadcrumb.CommandLine.Options
import Breadcrumb.CommandLine.Usage
import Breadcrumb.CommandLine.Word

/-!
# Switches

The options there are and how they are read. Long options take a value after `=`
or in the next word; short ones combine, and take the rest of their word or the
next word. A value in a word of its own waits until the next option that is known,
or the end, before it is looked at.
-/

namespace Breadcrumb.CommandLine

inductive Switch where
  | color
  | noColor
  | version
  | logTime
  | verbose
  | log
  | quiet
  | file
  | separator
  | escape
  | doubleQuotes
  | tabWidth
  | maxSize
  | help
  deriving DecidableEq, Repr

namespace Switch

def longNames : List (String × Switch) :=
  [("color", color), ("no-color", noColor), ("version", version), ("log-time", logTime),
    ("verbose", verbose), ("log", log), ("quiet", quiet), ("file", file),
    ("separator", separator), ("escape", escape), ("double-quotes", doubleQuotes),
    ("tab-width", tabWidth), ("max-size", maxSize), ("help", help)]

def letters : List (Char × Switch) :=
  [('V', version), ('v', verbose), ('l', log), ('q', quiet), ('f', file), ('s', separator),
    ('e', escape), ('h', help)]

/-- The options that take a value. -/
def takesValue : Switch → Bool
  | log | file | separator | tabWidth | maxSize => true
  | _ => false

/-- The options that may be given more than once. -/
def repeats : Switch → Bool
  | verbose | log => true
  | _ => false

/-- The options with a flag set. -/
def setFlag (options : Options) : Switch → Options
  | color => { options with color := true }
  | noColor => { options with noColor := true }
  | version => { options with version := true }
  | logTime => { options with logTime := true }
  | verbose => { options with verbosity := min 255 (options.verbosity + 1) }
  | quiet => { options with quiet := true }
  | escape => { options with escape := true }
  | doubleQuotes => { options with doubleQuotes := true }
  | _ => options

/-- The options with a value set, if the value is of the right kind. -/
def setValue (options : Options) (value : String) : Switch → Except Usage Options
  | log => .ok { options with log := options.log ++ [value] }
  | file => .ok { options with file := some value }
  | separator => .ok { options with separator := value }
  | tabWidth =>
    match number? value with
    | some n => .ok { options with tabWidth := n }
    | none => .error .invalidNumber
  | maxSize =>
    match number? value with
    | some n => .ok { options with maxSize := n }
    | none => .error .invalidNumber
  | _ => .ok options

end Switch

/-- The options read so far. -/
structure Partial where
  options : Options := {}
  /-- The options that have been given. -/
  given : List Switch := []
  /-- An option whose value is still to be read or to be looked at. -/
  pending : Option (Switch × Option String) := none

namespace Partial

/-- Records that an option is given; only some may be given again. -/
def give (p : Partial) (switch : Switch) : Except Usage Partial :=
  if !switch.repeats && p.given.contains switch then .error .repeatedOption
  else .ok { p with given := switch :: p.given }

def supply (p : Partial) (switch : Switch) (value : String) : Except Usage Partial := do
  let p ← p.give switch
  return { p with options := ← switch.setValue p.options value }

/-- Looks at the value that is pending. -/
def settle (p : Partial) : Except Usage Partial :=
  match p.pending with
  | none => .ok p
  | some (_, none) => .error .missingValue
  | some (switch, some value) => { p with pending := none }.supply switch value

/-- The next word is the value of an option, if it can be one. -/
def isAwaiting (p : Partial) : Bool := p.pending.any fun (_, value) => value.isNone

/-- Takes a word as the value awaited. -/
def await (p : Partial) (value : String) : Partial :=
  { p with pending := p.pending.map fun (switch, _) => (switch, some value) }

/-- Reads a flag, which has no value, or asks for help. -/
def flag (p : Partial) (switch : Switch) : Except Usage Partial := do
  let p ← p.settle
  -- help comes after the pending value and before the check for repetition
  if switch = .help then throw .help
  let p ← p.give switch
  return { p with options := switch.setFlag p.options }

/-- Reads an option that takes a value, which the word may hold. -/
def valued (p : Partial) (switch : Switch) (value : Option String) : Except Usage Partial := do
  let p ← p.settle
  match value with
  | some value => p.supply switch value
  | none => return { p with pending := some (switch, none) }

def long (p : Partial) (name : String) (value : Option String) : Except Usage Partial :=
  match Switch.longNames.lookup name with
  | none => .error .unknownArgument
  | some switch =>
    if switch.takesValue then p.valued switch value
    else if value.isSome then .error .unexpectedValue
    else p.flag switch

/-- Reads short options. One that takes a value takes the rest of the word, less an
equals sign in front of it. -/
def short (p : Partial) : List Char → Except Usage Partial
  | [] => .ok p
  | c :: letters =>
    match Switch.letters.lookup c with
    | none => .error .unknownArgument
    | some switch =>
      if switch.takesValue then
        p.valued switch (match letters with
          | [] => none
          | '=' :: value => some (String.ofList value)
          | value => some (String.ofList value))
      else do (← p.flag switch).short letters

end Partial

end Breadcrumb.CommandLine
