import Breadcrumb.Proofs.Counting

/-!
# Places in a document

A cursor stands at a place if its point is on a line of the document and splits that
line in two, between characters. At a place everything can be read, and every move
from a place leads to a place, as long as no count stops.

* `StandsIn.isValid`: a place is a valid position of its line.
* `StandsIn.rest?_eq`, `StandsIn.token?_eq`, `StandsIn.columnAt?_eq`: what is read at a place.
* `standsIn_goto`, `standsIn_indent`, `exists_moveToColumn?_eq`, `exists_standsIn_goUp`: where
  moves lead.
-/

namespace Breadcrumb.Cursor

open Text

/-- The cursor stands in a line, with `before` behind it and `rest` ahead. -/
structure StandsIn (cursor : Cursor) (line : Line) (before rest : List Char) : Prop where
  line?_eq : cursor.line? = some line
  chars_eq : line.chars = before ++ rest
  byteSize_eq : byteSize before = cursor.point.offset

/-- The cursor stands at a place: on a line of the document, at a place of the line. -/
def IsPlaced (cursor : Cursor) : Prop :=
  ∃ line before rest, cursor.StandsIn line before rest

variable {cursor : Cursor} {line : Line} {before rest : List Char}

theorem IsPlaced.line_lt (h : cursor.IsPlaced) : cursor.point.line < cursor.document.lines.size := by
  obtain ⟨line, before, rest, h⟩ := h
  exact cursor.document.exists_line?_iff.1 ⟨line, h.line?_eq⟩

/-! ## What is read at a place -/

theorem inComment?_eq (h : cursor.line? = some line) :
    cursor.inComment? =
      some (decide (classAt line.opening line.chars cursor.point.offset = .comment)) := by
  rw [inComment?, h, Option.map_some]

namespace StandsIn

variable (h : cursor.StandsIn line before rest)

include h

theorem isPlaced : cursor.IsPlaced := ⟨line, before, rest, h⟩

/-- **A place is a valid position of its line.** -/
theorem isValid : String.Pos.Raw.IsValid line.text ⟨cursor.point.offset⟩ :=
  isValid_iff.2 ⟨before, rest, h.chars_eq, h.byteSize_eq⟩

theorem offset_le : cursor.point.offset ≤ byteSize line.chars := by
  rw [h.chars_eq, byteSize_append, ← h.byteSize_eq]
  exact Nat.le_add_right _ _

theorem rest?_eq : cursor.rest? = some rest := by
  rw [rest?, h.line?_eq, Option.bind_eq_bind, Option.bind_some, h.chars_eq, ← h.byteSize_eq]
  exact dropBytes?_byteSize_append before rest

theorem atLineEnd?_eq : cursor.atLineEnd? = some (decide (rest = [])) := by
  rw [atLineEnd?, h.line?_eq, Option.map_some, h.chars_eq, byteSize_append, ← h.byteSize_eq,
    Option.some.injEq, decide_eq_decide, ← byteSize_eq_zero]
  omega

theorem token?_eq_read? : cursor.token? = Token.read? cursor.arithmetic rest := by
  rw [token?, h.atLineEnd?_eq, h.rest?_eq]
  cases rest with
  | nil => rfl
  | cons c rest => rfl

/-- **The token is the one that the rest of the line starts with**, unless counting its brackets
holds the cursor up. -/
theorem token?_eq : cursor.token? = some (Token.leading? rest) ∨
    cursor.token? = none ∧ cursor.Overflows := by
  rw [h.token?_eq_read?]
  exact (Token.read?_eq cursor.arithmetic rest).imp_right fun hnone =>
    ⟨hnone.1, overflows_of_brackets h.line?_eq h.chars_eq hnone.2⟩

theorem looksAt?_eq (literal : List Char) :
    cursor.looksAt? literal = some (literal.isPrefixOf rest) := by
  rw [looksAt?, h.rest?_eq, Option.map_some]

theorem columnAt?_eq (arithmetic : Arithmetic) (tabWidth : UInt64) :
    line.columnAt? arithmetic tabWidth cursor.point.offset =
      columnAfter? arithmetic tabWidth before := by
  rw [← h.byteSize_eq, Line.columnAt?_byteSize h.chars_eq.symm]

end StandsIn

/-! ## Where moves lead -/

theorem standsIn_goto {i : Nat} (h : cursor.document.line? i = some line) :
    (cursor.goto i).StandsIn line [] line.chars :=
  ⟨h, rfl, rfl⟩

theorem standsIn_moveTo (hline : cursor.line? = some line) (hchars : line.chars = before ++ rest) :
    (cursor.moveTo (byteSize before)).StandsIn line before rest :=
  ⟨hline, hchars, rfl⟩

theorem backToIndent?_eq (h : cursor.line? = some line) :
    cursor.backToIndent? = some (cursor.moveTo line.indentSize) := by
  rw [backToIndent?, h, Option.map_some]

/-- The indent ends at a place. -/
theorem standsIn_indent (h : cursor.line? = some line) :
    (cursor.moveTo line.indentSize).StandsIn line (indent line.chars) (unindent line.chars) :=
  standsIn_moveTo h (indent_append_unindent line.chars).symm

/-- Seeking a column arrives at a place, and tells its column, if there is a word for that. -/
theorem exists_moveToColumn?_eq (h : cursor.line? = some line) (column : UInt64) :
    ∃ walked, line.chars = walked ++ (seek cursor.document.tabWidth column 0 line.chars).2 ∧
      cursor.moveToColumn? column =
        if cursor.arithmetic.Stops UInt64.size (exactColumn cursor.document.tabWidth.toNat 0 walked)
        then none
        else some ((seek cursor.document.tabWidth column 0 line.chars).1,
          cursor.moveTo (byteSize walked)) := by
  obtain ⟨walked, hchars, hseek⟩ :=
    @exists_seek?_eq cursor.arithmetic _ cursor.document.tabWidth_pos column 0 line.chars
  have hsize := congrArg byteSize hchars
  rw [byteSize_append] at hsize
  refine ⟨walked, hchars, ?_⟩
  rw [moveToColumn?, h, Option.bind_eq_bind, Option.bind_some, hseek, UInt64.toNat_zero,
    ← Nat.sub_eq_of_eq_add hsize]
  split
  · rfl
  · rfl

/-- Up to the line above, or to the start of the first line. -/
theorem exists_standsIn_goUp (h : cursor.line? = some line) :
    ∃ line, cursor.goUp.2.StandsIn line [] line.chars := by
  have hlt := (cursor.document.exists_line?_iff).1 ⟨line, h⟩
  unfold goUp
  cases hi : cursor.point.line with
  | zero => exact ⟨line, h, rfl, rfl⟩
  | succ i =>
    obtain ⟨above, habove⟩ := (cursor.document.exists_line?_iff (i := i)).2 (by omega)
    exact ⟨above, standsIn_goto habove⟩

end Breadcrumb.Cursor
