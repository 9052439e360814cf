import Breadcrumb.Terminal
import Breadcrumb.Trail

/-!
# Listings

How lists of paths, of line numbers and trails are printed.
-/

namespace Breadcrumb

/-- How the entries of a listing end. -/
inductive Ending where
  /-- Each entry is a line, with a colon after its number. -/
  | newline
  /-- The number and the path both end in a NUL character. -/
  | nul
  deriving DecidableEq, Repr

namespace Listing

/-- One entry of a listing: the number of a line and its path. -/
def entry (ending : Ending) (number : Nat) (path : String) : String :=
  match ending with
  | .newline => toString number ++ ":" ++ path ++ "\n"
  | .nul => toString number ++ "\x00" ++ path ++ "\x00"

def entries (ending : Ending) (paths : List (Nat × String)) : String :=
  String.join (paths.map fun (number, path) => entry ending number path)

/-- One line of a trail: the number of the line, its indentation and its tag. -/
def crumb (colors isLast : Bool) (crumb : Crumb) : String :=
  Style.gray.applyIf colors (toString crumb.number) ++ ":" ++ toString crumb.indentation ++ ":" ++
    Style.bold.applyIf (colors && isLast) crumb.tag ++ "\n"

/-- A trail, a line for each crumb, with the last tag in bold. -/
def trail (colors : Bool) : List Crumb → String
  | [] => ""
  | first :: crumbs => crumb colors crumbs.isEmpty first ++ trail colors crumbs

def numbers (lines : List Nat) : String :=
  String.join (lines.map fun number => toString number ++ "\n")

end Listing

end Breadcrumb
