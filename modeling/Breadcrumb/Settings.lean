import Breadcrumb.Document

/-!
# Settings

How paths are written, and how large a document may be for its paths to be kept
up to date at every move.
-/

namespace Breadcrumb

structure Settings where
  /-- What stands between the keys of a path. -/
  separator : String := "."
  /-- The size in bytes up to which paths follow the cursor. -/
  sizeLimit : Nat := 1048576
  /-- The marks around the keys of a subscript. -/
  mark : QuoteMark := .single
  /-- Separators and backslashes inside keys are escaped. -/
  escapes : Bool := false
  /-- The columns from one tab stop to the next. -/
  tabWidth : UInt64 := 8
  deriving DecidableEq, Repr

namespace Settings

/-- Settings are of use if keys are separated and tabs have a width. -/
def validate (settings : Settings) : Except Failure Unit :=
  if settings.separator = "" then .error .emptySeparator
  else if settings.tabWidth = 0 then .error .zeroTabWidth
  else .ok ()

/-- Paths follow the cursor in documents up to the size limit. -/
def isLive (settings : Settings) (doc : Document) : Bool := doc.size ≤ settings.sizeLimit

end Settings

end Breadcrumb
