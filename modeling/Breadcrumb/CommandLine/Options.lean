import Breadcrumb.Listing
import Breadcrumb.Settings

/-!
# Options

What the command line asks for: options and one action.
-/

namespace Breadcrumb.CommandLine

/-- What to do with a document. -/
inductive Action where
  | path (number : Nat)
  | subscript (number : Nat)
  | trail (number : Nat)
  /-- Print all paths; `force` lets documents over the size limit pass. -/
  | paths (ending : Ending) (force : Bool)
  /-- Print the numbers of the lines with a path. -/
  | locate (path : String)
  deriving DecidableEq, Repr

/-- The options of a command line. -/
structure Options where
  color : Bool := false
  noColor : Bool := false
  version : Bool := false
  logTime : Bool := false
  /-- How often more detail was asked for. -/
  verbosity : Nat := 0
  /-- The lists of log specifications, in order. -/
  log : List String := []
  quiet : Bool := false
  file : Option String := none
  separator : String := ({} : Settings).separator
  escape : Bool := false
  doubleQuotes : Bool := false
  tabWidth : Nat := ({} : Settings).tabWidth.toNat
  maxSize : Nat := ({} : Settings).sizeLimit
  action : Option Action := none
  deriving DecidableEq, Repr

/-- The settings that the options make. -/
def Options.settings (options : Options) : Settings where
  separator := options.separator
  sizeLimit := options.maxSize
  mark := if options.doubleQuotes then .double else .single
  escapes := options.escape
  tabWidth := options.tabWidth.toUInt64

end Breadcrumb.CommandLine
