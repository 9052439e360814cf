import Breadcrumb.Cursor
import Breadcrumb.KeyPath
import Breadcrumb.Subscript
import Breadcrumb.Trail

/-!
# Walks

How a cursor finds out about lines: it goes to them and reads what is at the point.
A walk comes back with what it found and the cursor where it then stands. On an
excursion the point is put back whatever the walk does to it. A walk that would read
off the text is `none`, and so is one whose count stops.

* `excursion_point`: so going up, with excursions on the way, comes to an end.
* `role`, `tag`: about one line.
* `previousStructural`, `parent`, `ancestors`: going up line by line, from parent to parent.
* `trail`, `keys`, `path`, `subscript`: about the line of the point.
* `locate`: through all lines.
-/

namespace Breadcrumb

open Text

abbrev Walk := StateT Cursor Option

namespace Walk

variable {α β : Type}

/-! ## What walks find -/

/-- A walk goes on from where its first part comes to. -/
theorem bind_eq_some {walk : Walk α} {next : α → Walk β} {found : β} {before after : Cursor} :
    (walk >>= next) before = some (found, after) ↔
      ∃ first there, walk before = some (first, there) ∧
        next first there = some (found, after) := by
  refine Option.bind_eq_some_iff.trans ⟨?_, ?_⟩
  · rintro ⟨⟨first, there⟩, hwalk, hnext⟩
    exact ⟨first, there, hwalk, hnext⟩
  · rintro ⟨first, there, hwalk, hnext⟩
    exact ⟨(first, there), hwalk, hnext⟩

/-- The walk can come back with `found`. -/
def Finds (walk : Walk α) (found : α) : Prop :=
  ∃ before after, walk before = some (found, after)

theorem Finds.of_bind {walk : Walk α} {next : α → Walk β} {found : β}
    (h : (walk >>= next).Finds found) : ∃ first, walk.Finds first ∧ (next first).Finds found := by
  obtain ⟨before, after, h⟩ := h
  obtain ⟨first, there, hwalk, hnext⟩ := bind_eq_some.1 h
  exact ⟨first, ⟨before, there, hwalk⟩, there, after, hnext⟩

theorem Finds.of_pure {a found : α} (h : (pure a : Walk α).Finds found) : a = found := by
  obtain ⟨_, _, h⟩ := h
  cases h
  rfl

/-- The same walk, whose find is known to be one of its finds. -/
def attach (walk : Walk α) : Walk { found // walk.Finds found } := fun before =>
  match h : walk before with
  | none => none
  | some (found, after) => some (⟨found, before, after, h⟩, after)

/-! ## Steps -/

/-- Reads at the point, which stays. -/
def look (read : Cursor → Option α) : Walk α := fun cursor => (read cursor).map (·, cursor)

def goto (i : Nat) : Walk Unit := modify (·.goto i)

def backToIndent : Walk Unit := fun cursor => cursor.backToIndent?.map ((), ·)

def moveToColumn (column : UInt64) : Walk UInt64 := fun cursor => cursor.moveToColumn? column

/-- Puts the point back where it was before the walk. -/
def excursion (walk : Walk α) : Walk α := do
  let point := (← get).point
  let found ← walk
  modify (·.place point)
  return found

theorem excursion_eq_some {walk : Walk α} {found : α} {before after : Cursor} :
    excursion walk before = some (found, after) ↔
      ∃ there, walk before = some (found, there) ∧ there.place before.point = after := by
  constructor
  · intro h
    obtain ⟨_, _, hget, h⟩ := bind_eq_some.1 h
    cases hget
    obtain ⟨_, there, hwalk, h⟩ := bind_eq_some.1 h
    cases h
    exact ⟨there, hwalk, rfl⟩
  · rintro ⟨there, hwalk, rfl⟩
    exact bind_eq_some.2 ⟨_, _, rfl, bind_eq_some.2 ⟨_, there, hwalk, rfl⟩⟩

/-- **An excursion puts the point back**, whatever the walk does to it. -/
theorem excursion_point {walk : Walk α} {found : α} {before after : Cursor}
    (h : excursion walk before = some (found, after)) : after.point = before.point := by
  obtain ⟨there, -, rfl⟩ := excursion_eq_some.1 h
  rfl

/-! ## One line -/

/-- The role of the line of the point. -/
def role : Walk LineRole := excursion do
  goto (← get).point.line
  if (← look Cursor.rest?).all isBlank then return .blank
  backToIndent
  if ← look Cursor.inComment? then return .comment
  return .structural

def isStructural : Walk Bool := return (← role) = .structural

theorem isStructural_point {found : Bool} {before after : Cursor}
    (h : isStructural before = some (found, after)) : after.point = before.point := by
  obtain ⟨_, _, hrole, hfound⟩ := bind_eq_some.1 h
  cases hfound
  exact excursion_point hrole

/-- The column that the indent of the line at `i` reaches. -/
def indentation (i : Nat) : Walk UInt64 :=
  look fun cursor => cursor.document.indentation? cursor.arithmetic i

/-- The tag of the line at `i`: the token at the column of its indentation. -/
def tag (i : Nat) : Walk String := excursion do
  goto i
  let _ ← moveToColumn (← look Cursor.indentation?)
  return String.ofList ((← look Cursor.token?).getD [])

/-! ## Going up -/

/-- Goes up, line by line, to the nearest structural line above the point. -/
def climbToStructural (cursor : Cursor) : Option (Option Nat × Cursor) :=
  if _h : cursor.atStart then some (none, cursor)
  else match _h : isStructural cursor.goUp.2 with
    | none => none
    | some (true, above) => some (some above.point.line, above)
    | some (false, above) => climbToStructural above
termination_by (cursor.point.line, cursor.point.offset)
decreasing_by
  -- the role was read on an excursion, so the point is still one line further up
  rw [isStructural_point ‹_›]
  exact Cursor.goUp_lt ‹_›

theorem climbToStructural_lt {j : Nat} {before after : Cursor} (hoffset : before.point.offset = 0)
    (h : climbToStructural before = some (some j, after)) : j < before.point.line := by
  fun_induction climbToStructural before with
  | case1 => cases h
  | case2 => cases h
  | case3 before hstart above hstructural =>
    cases h
    rw [isStructural_point hstructural]
    exact Cursor.goUp_line_lt hstart hoffset
  | case4 before hstart above hstructural ih =>
    have hpoint := isStructural_point hstructural
    rw [hpoint] at ih
    exact Nat.lt_trans (ih before.goUp_offset h) (Cursor.goUp_line_lt hstart hoffset)

/-- The nearest structural line above `i`. -/
def previousStructural (i : Nat) : Walk (Option Nat) := excursion do
  goto i
  climbToStructural

theorem previousStructural_lt {i j : Nat} (h : (previousStructural i).Finds (some j)) : j < i := by
  obtain ⟨before, _, h⟩ := h
  obtain ⟨_, hclimb, -⟩ := excursion_eq_some.1 h
  exact climbToStructural_lt rfl hclimb

/-- The nearest structural line above `i` that is indented less than `column`. What is
indented as far is passed over, and the search goes on from there. -/
def parent (column : UInt64) (i : Nat) : Walk (Option Nat) := do
  match ← attach (previousStructural i) with
  | ⟨none, _⟩ => return none
  | ⟨some j, _⟩ => if (← indentation j) < column then return some j else parent column j
termination_by i
decreasing_by exact previousStructural_lt ‹_›

theorem parent_lt {column : UInt64} {i j : Nat} (h : (parent column i).Finds (some j)) : j < i := by
  fun_induction parent column i with
  | case1 i ih =>
    obtain ⟨⟨found, hfound⟩, -, h⟩ := h.of_bind
    cases found with
    | none => cases h.of_pure
    | some k =>
      have hk := previousStructural_lt hfound
      obtain ⟨reached, -, h⟩ := h.of_bind
      split at h
      · cases h.of_pure
        exact hk
      · exact Nat.lt_trans (ih k hfound h) hk

/-- The ancestors, nearest first, of a line at `i` with that indentation. -/
def ancestors (column : UInt64) (i : Nat) : Walk (List Nat) := do
  if column = 0 then return []
  match ← attach (parent column i) with
  | ⟨none, _⟩ => return []
  | ⟨some j, _⟩ => return j :: (← ancestors (← indentation j) j)
termination_by i
decreasing_by exact parent_lt ‹_›

/-! ## The line of the point -/

def crumb (i : Nat) : Walk Crumb := return ⟨i, ← indentation i, ← tag i⟩

/-- The trail to the line of the point; lines outside of the structure have none. -/
def trail : Walk (Option (List Crumb)) := do
  if ← isStructural then
    let i := (← get).point.line
    let column ← look Cursor.indentation?
    let above ← (← ancestors column i).reverse.mapM crumb
    return some (above ++ [⟨i, column, ← tag i⟩])
  else return none

/-- The tags along the trail. -/
def keys : Walk (Option (List String)) := return (← trail).map fun trail => trail.map Crumb.tag

def path (settings : Settings) : Walk (Option String) :=
  return (← keys).map (KeyPath.join settings.separator settings.escapes)

def subscript (mark : QuoteMark) : Walk (Option String) :=
  return (← keys).map (Subscript.ofKeys mark)

/-! ## All lines -/

/-- Goes to the line at `i` to see if its keys are the wanted ones, unless its tag tells
that they are not. -/
def hasKeys (wanted : List String) (i : Nat) : Walk Bool := do
  if wanted.getLast? = some (← tag i) then
    goto i
    return (← keys) = some wanted
  else return false

/-- The lines, from the top, whose keys are those of the path. -/
def locate (separator path : String) : Walk (List Nat) := excursion do
  let lines := List.range (← get).document.lines.size
  lines.filterM (hasKeys (KeyPath.split separator path))

end Walk

end Breadcrumb
