import Breadcrumb.KeyPath
import Breadcrumb.Settings
import Breadcrumb.Subscript
import Breadcrumb.Trail

/-!
# Queries

What a document answers about its lines: the keys, the path and the subscript of
a line, the lines with a given path, and all paths in order.

* `path?_eq_of_keys?`, `subscript?_eq_of_keys?`: what is written of a line depends on its
  keys only.
-/

namespace Breadcrumb.Document

variable (doc : Document)

/-- The tags along the trail to the line at `i`. -/
def keys? (i : Nat) : Option (List String) := (doc.trail? i).map fun trail => trail.map Crumb.tag

/-- The path of the line at `i`. -/
def path? (settings : Settings) (i : Nat) : Option String :=
  (doc.keys? i).map (KeyPath.join settings.separator settings.escapes)

/-- The subscript of the line at `i`. -/
def subscript? (mark : QuoteMark) (i : Nat) : Option String :=
  (doc.keys? i).map (Subscript.ofKeys mark)

/-- A line can only have the wanted keys if its tag is the last of them. -/
def mayHaveKeys (wanted : List String) (i : Nat) : Bool := wanted.getLast? = some (doc.tag i)

/-- The lines, from the top, whose keys are those of the path. -/
def locate (separator path : String) : List Nat :=
  let wanted := KeyPath.split separator path
  (List.range doc.lines.size).filter fun i =>
    doc.mayHaveKeys wanted i && doc.keys? i = some wanted

/-- The number and the path of every structural line, from the top. -/
def paths (settings : Settings) : List (Nat × String) :=
  (List.range doc.lines.size).filterMap fun i => (doc.path? settings i).map (i + 1, ·)

section Keys

variable {doc} {doc' : Document} {i i' : Nat} (h : doc'.keys? i' = doc.keys? i)

include h

theorem path?_eq_of_keys? (settings : Settings) :
    doc'.path? settings i' = doc.path? settings i := by
  rw [path?, path?, h]

theorem subscript?_eq_of_keys? (mark : QuoteMark) :
    doc'.subscript? mark i' = doc.subscript? mark i := by
  rw [subscript?, subscript?, h]

end Keys

end Breadcrumb.Document
