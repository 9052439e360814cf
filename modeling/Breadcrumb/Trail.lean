import Breadcrumb.Document

/-!
# Trails

The parent of a line is the nearest structural line above it that is less
indented. Climbing from parent to parent gives the ancestors of a line, and the
trail of a line leads from its outermost ancestor down to the line itself.

* `previousStructural?_lt`, `parent?_lt`: climbing leads upwards, so it ends.
-/

namespace Breadcrumb

/-- A line on a trail. -/
structure Crumb where
  /-- The index of the line. -/
  line : Nat
  indentation : UInt64
  tag : String
  deriving DecidableEq, Repr

namespace Crumb

def number (crumb : Crumb) : Nat := crumb.line + 1

end Crumb

namespace Document

variable (doc : Document)

/-- The nearest structural line above `i`. -/
def previousStructural? : Nat → Option Nat
  | 0 => none
  | i + 1 => if doc.isStructural i then some i else previousStructural? i

theorem previousStructural?_lt {i j : Nat} (h : doc.previousStructural? i = some j) : j < i := by
  induction i with
  | zero => simp [previousStructural?] at h
  | succ i ih =>
    simp only [previousStructural?] at h
    split at h
    · cases h; omega
    · have := ih h; omega

/-- The nearest structural line above `i` that is indented less than `indentation`. -/
def parent? (indentation : UInt64) (i : Nat) : Option Nat :=
  match _h : doc.previousStructural? i with
  | none => none
  | some j => if doc.indentation j < indentation then some j else parent? indentation j
termination_by i
decreasing_by exact doc.previousStructural?_lt ‹_›

theorem parent?_lt {indentation : UInt64} {i j : Nat} (h : doc.parent? indentation i = some j) :
    j < i := by
  fun_induction doc.parent? indentation i with
  | case1 => simp at h
  | case2 i k hk hlt => cases h; exact doc.previousStructural?_lt hk
  | case3 i k hk hlt ih => have := doc.previousStructural?_lt hk; have := ih h; omega

/-- The ancestors, nearest first, of a line at `i` with that indentation. Nothing is
indented less than column 0. -/
def ancestors (indentation : UInt64) (i : Nat) : List Nat :=
  if indentation = 0 then []
  else match _h : doc.parent? indentation i with
    | none => []
    | some j => j :: ancestors (doc.indentation j) j
termination_by i
decreasing_by exact doc.parent?_lt ‹_›

def crumb (i : Nat) : Crumb := ⟨i, doc.indentation i, doc.tag i⟩

/-- The trail to the line at `i`; lines outside of the structure have none. -/
def trail? (i : Nat) : Option (List Crumb) :=
  if doc.isStructural i then
    some (((doc.ancestors (doc.indentation i) i).reverse ++ [i]).map doc.crumb)
  else none

end Document

end Breadcrumb
