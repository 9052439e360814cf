import Breadcrumb.Log
import Breadcrumb.Query

/-!
# Narration

The records that tell in a log how answers about a document were found.
-/

namespace Breadcrumb.Narration

/-- The component that climbs from parent to parent. -/
def scan : String := "yaml_path::yaml::scan"

/-- The component that builds paths. -/
def resolver : String := "yaml_path::yaml::resolver"

/-- The component that runs the command line. -/
def program : String := "yaml_path::cli"

/-- A text for the number of the line at an index. -/
def line (i : Nat) : String := "line " ++ toString (i + 1)

def loaded (doc : Document) : Record :=
  ⟨.debug, program, "loaded " ++ toString doc.lines.size ++ " lines (" ++ toString doc.size ++
    " bytes)"⟩

/-- A document over the size limit is gone through nevertheless. -/
def oversized : Record := ⟨.info, program, "resolving oversized document on request"⟩

variable (doc : Document)

/-- The climb from the line at `i` over its ancestors. -/
def climb (i : Nat) : List Nat → List Record
  | [] => []
  | j :: ancestors =>
    ⟨.trace, scan, line i ++ ": parent is " ++ line j ++ " (indent " ++
      toString (doc.indentation j) ++ " < " ++ toString (doc.indentation i) ++ ")"⟩ ::
      climb j ancestors

/-- How the trail to the line at `i` was found. -/
def trail (i : Nat) : List Record :=
  if doc.isStructural i then
    let ancestors := doc.ancestors (doc.indentation i) i
    climb doc i ancestors ++
      [⟨.debug, scan, line i ++ ": " ++ toString ancestors.length ++ " ancestor(s)"⟩]
  else []

def path (settings : Settings) (i : Nat) : List Record :=
  trail doc i ++
    ((doc.path? settings i).map fun path =>
      ⟨.debug, resolver, line i ++ ": path " ++ path⟩).toList

def paths (settings : Settings) : List Record :=
  (List.range doc.lines.size).flatMap (path doc settings)

/-- How the lines with a path were found. -/
def locate (separator path : String) : List Record :=
  ((List.range doc.lines.size).filter
    (doc.mayHaveKeys (KeyPath.split separator path))).flatMap (trail doc)

end Breadcrumb.Narration
