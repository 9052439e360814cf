import Breadcrumb.Session

/-!
# Tours

A tour takes the cursor to one line after the other, and at each of them observers are told
of the path. An observer that comes along notes the lines that have one. Nobody is told
anything of a document over the size limit, so for a tour of such a document the limit has
to be lifted first. On a tour columns wrap.
-/

namespace Breadcrumb

/-- What an observer notes: the number of the line and its path, if it has one. -/
def Notice.entry? (notice : Notice) : Option (Nat × String) :=
  notice.path.map (notice.point.line + 1, ·)

/-- What the observers of a session are told while its cursor goes to the given lines. -/
def Session.tour (s : Session) : List Nat → Option (List Notice)
  | [] => some []
  | i :: lines => do
    let (s, report) ← { s with cursor := s.cursor.goto i }.announce
    return report.notices ++ (← s.tour lines)

/-- The settings with the size limit lifted as far as sizes go. -/
def Settings.lifted (settings : Settings) : Settings :=
  { settings with sizeLimit := UInt64.size - 1 }

/-- What an observer notes on a tour of all lines. -/
def Document.tour? (doc : Document) (settings : Settings) : Option (List (Nat × String)) := do
  let session := { Session.opened settings doc .start .wrapping with observers := 1 }
  let notices ← session.tour (List.range doc.lines.size)
  return notices.filterMap Notice.entry?

end Breadcrumb
