import Breadcrumb.Cursor
import Breadcrumb.Proofs.Columns

/-!
# Where counts stop

Counted in checked words, a column is the exact one, and the count stops just where there is no
word for that. Counted in words that wrap it never stops. So a cursor can be held up only by a
line that is too wide for words, or that opens more brackets than there are words to count them.

* `advance?_eq`, `columnAfter?_eq`: what a count comes to, and when it stops.
* `exists_seek?_eq`: seeking counts the columns of the part walked over.
* `Document.ColumnsFit.of_lines`: where whole lines fit, their indents do.
* `Cursor.overflows_of_indent`, `Cursor.overflows_of_brackets`: what holds a cursor up.
-/

namespace Breadcrumb

open Text

namespace Text

variable {arithmetic : Arithmetic} {tabWidth : UInt64}

/-- **One character is counted**, unless there is no word for the column after it. -/
theorem advance?_eq (arithmetic : Arithmetic) (tabWidth column : UInt64) (c : Char)
    (htab : 0 < tabWidth) :
    advance? arithmetic tabWidth column c =
      if arithmetic.Stops UInt64.size (exactAdvance tabWidth.toNat column.toNat c) then none
      else some (advance tabWidth column c) := by
  unfold advance? exactAdvance advance
  by_cases hc : c = '\t'
  · rw [if_pos hc, if_pos hc, if_pos hc, Arithmetic.add?_eq, UInt64.toNat_div, UInt64.toNat_one]
    have htab' : 0 < tabWidth.toNat := UInt64.lt_iff_toNat_lt.1 htab
    have hle : column.toNat / tabWidth.toNat + 1 ≤
        (column.toNat / tabWidth.toNat + 1) * tabWidth.toNat := Nat.le_mul_of_pos_right _ htab'
    by_cases hstop : arithmetic.Stops UInt64.size (column.toNat / tabWidth.toNat + 1)
    · rw [if_pos hstop, if_pos (hstop.mono hle)]
      rfl
    · rw [if_neg hstop]
      show arithmetic.mul? (column / tabWidth + 1) tabWidth = _
      cases arithmetic with
      | wrapping =>
        rw [Arithmetic.mul?_eq, if_neg Arithmetic.not_stops_wrapping,
          if_neg Arithmetic.not_stops_wrapping]
      | checked =>
        rw [Arithmetic.stops_checked_iff, Nat.not_le] at hstop
        have hnext : (column / tabWidth + 1).toNat = column.toNat / tabWidth.toNat + 1 := by
          rw [UInt64.toNat_add, UInt64.toNat_div, UInt64.toNat_one, Nat.mod_eq_of_lt hstop]
        rw [Arithmetic.mul?_eq, hnext]
  · rw [if_neg hc, if_neg hc, if_neg hc, Arithmetic.add?_eq, UInt64.toNat_one]

/-- A count that has not stopped yet goes on from the exact column. -/
theorem stops_advance_iff {column : UInt64} {c : Char}
    (h : ¬ arithmetic.Stops UInt64.size (exactAdvance tabWidth.toNat column.toNat c))
    (text : List Char) :
    arithmetic.Stops UInt64.size
        (exactColumn tabWidth.toNat (advance tabWidth column c).toNat text) ↔
      arithmetic.Stops UInt64.size (exactColumn tabWidth.toNat column.toNat (c :: text)) := by
  cases arithmetic with
  | wrapping => exact iff_of_false Arithmetic.not_stops_wrapping Arithmetic.not_stops_wrapping
  | checked =>
    rw [Arithmetic.stops_checked_iff, Nat.not_le] at h
    have hnext : (advance tabWidth column c).toNat =
        exactAdvance tabWidth.toNat column.toNat c :=
      (toNat_advance_eq_mod ..).trans (Nat.mod_eq_of_lt h)
    rw [hnext]
    exact Iff.rfl

section Counts

variable (htab : 0 < tabWidth)

include htab

/-- A count that stops at a character does not come to the end of the text. -/
theorem stops_of_stops_advance {column : UInt64} {c : Char}
    (h : arithmetic.Stops UInt64.size (exactAdvance tabWidth.toNat column.toNat c))
    (text : List Char) :
    arithmetic.Stops UInt64.size (exactColumn tabWidth.toNat column.toNat (c :: text)) :=
  h.mono (le_exactColumn (UInt64.lt_iff_toNat_lt.1 htab) _ text)

theorem foldlM_advance?_eq (column : UInt64) (text : List Char) :
    text.foldlM (advance? arithmetic tabWidth) column =
      if arithmetic.Stops UInt64.size (exactColumn tabWidth.toNat column.toNat text) then none
      else some (text.foldl (advance tabWidth) column) := by
  induction text generalizing column with
  | nil => exact (if_neg (Arithmetic.not_stops_of_lt column.toNat_lt)).symm
  | cons c text ih =>
    rw [List.foldlM_cons, advance?_eq _ _ _ _ htab]
    by_cases hstop : arithmetic.Stops UInt64.size (exactAdvance tabWidth.toNat column.toNat c)
    · rw [if_pos hstop, if_pos (stops_of_stops_advance htab hstop text)]
      rfl
    · rw [if_neg hstop]
      refine (ih (advance tabWidth column c)).trans ?_
      simp only [stops_advance_iff hstop]
      rfl

/-- **The column after a text is counted**, unless there is no word for it. -/
theorem columnAfter?_eq (text : List Char) :
    columnAfter? arithmetic tabWidth text =
      if arithmetic.Stops UInt64.size (exactColumn tabWidth.toNat 0 text) then none
      else some (columnAfter tabWidth text) :=
  foldlM_advance?_eq htab 0 text

theorem columnAfter?_eq_of_fits {text : List Char}
    (hfits : exactColumn tabWidth.toNat 0 text < 2 ^ 64) :
    columnAfter? arithmetic tabWidth text = some (columnAfter tabWidth text) :=
  (columnAfter?_eq htab text).trans (if_neg (Arithmetic.not_stops_of_lt hfits))

/-- **Seeking counts the part walked over**, and stops if there is no word for its column. -/
theorem exists_seek?_eq (target column : UInt64) (text : List Char) :
    ∃ walked, text = walked ++ (seek tabWidth target column text).2 ∧
      seek? arithmetic tabWidth target column text =
        if arithmetic.Stops UInt64.size (exactColumn tabWidth.toNat column.toNat walked) then none
        else some (seek tabWidth target column text) := by
  fun_induction seek tabWidth target column text with
  | case1 column =>
    exact ⟨[], rfl, (if_neg (Arithmetic.not_stops_of_lt column.toNat_lt)).symm⟩
  | case2 column c text hreached =>
    refine ⟨[], rfl, ?_⟩
    rw [seek?, if_pos hreached]
    exact (if_neg (Arithmetic.not_stops_of_lt column.toNat_lt)).symm
  | case3 column c text hreached ih =>
    obtain ⟨walked, htext, hseek⟩ := ih
    refine ⟨c :: walked, by rw [List.cons_append, ← htext], ?_⟩
    rw [seek?, if_neg hreached, advance?_eq _ _ _ _ htab]
    by_cases hstop : arithmetic.Stops UInt64.size (exactAdvance tabWidth.toNat column.toNat c)
    · rw [if_pos hstop, if_pos (stops_of_stops_advance htab hstop walked)]
      rfl
    · rw [if_neg hstop]
      refine hseek.trans ?_
      simp only [stops_advance_iff hstop]

end Counts

end Text

/-! ## Documents that fit -/

namespace Document

/-- The columns of all lines are words, to the end of each line. -/
def LinesFit (doc : Document) : Prop :=
  ∀ chars ∈ doc.texts, exactColumn doc.tabWidth.toNat 0 chars < 2 ^ 64

/-- No line opens more brackets than there are words to count them. -/
def BracketsFit (doc : Document) : Prop :=
  ∀ chars ∈ doc.texts, chars.countP opensFlow < 2 ^ 32

instance (doc : Document) : Decidable doc.LinesFit :=
  inferInstanceAs (Decidable (∀ chars ∈ doc.texts,
    exactColumn doc.tabWidth.toNat 0 chars < 2 ^ 64))

instance (doc : Document) : Decidable doc.BracketsFit :=
  inferInstanceAs (Decidable (∀ chars ∈ doc.texts, chars.countP opensFlow < 2 ^ 32))

/-- **Where whole lines fit, their indents do.** -/
theorem ColumnsFit.of_lines {doc : Document} (h : doc.LinesFit) : doc.ColumnsFit := by
  intro chars hchars
  have hfits := h chars hchars
  rw [← indent_append_unindent chars] at hfits
  exact exactColumn_lt_of_append doc.tabWidth_pos hfits

end Document

/-! ## Cursors that may be held up -/

namespace Cursor

/-- The cursor counts in checked words, and there are none for the column of some indent, or for
the brackets that some line opens. -/
def Overflows (cursor : Cursor) : Prop :=
  cursor.arithmetic = .checked ∧ ¬ (cursor.document.ColumnsFit ∧ cursor.document.BracketsFit)

instance (cursor : Cursor) : Decidable cursor.Overflows :=
  inferInstanceAs (Decidable (_ ∧ ¬ (_ ∧ _)))

variable {cursor : Cursor} {line : Line} {i : Nat} (hline : cursor.document.line? i = some line)

include hline

theorem mem_texts_of_line? : line.chars ∈ cursor.document.texts := by
  rw [Document.line?_eq] at hline
  obtain ⟨chars, hchars, rfl⟩ := Option.map_eq_some_iff.1 hline
  exact List.mem_of_getElem? hchars

theorem overflows_of_indent (h : cursor.arithmetic.Stops UInt64.size
    (exactIndentation cursor.document.tabWidth.toNat line.chars)) : cursor.Overflows :=
  ⟨h.1, fun hfits => absurd h.2 (Nat.not_le.2 (hfits.1 _ (mem_texts_of_line? hline)))⟩

theorem overflows_of_brackets {before rest : List Char} (hchars : line.chars = before ++ rest)
    (h : cursor.arithmetic.Stops UInt32.size (rest.countP opensFlow)) : cursor.Overflows := by
  refine ⟨h.1, fun hfits => absurd h.2 (Nat.not_le.2 ?_)⟩
  have hbound := hfits.2 _ (mem_texts_of_line? hline)
  rw [hchars, List.countP_append] at hbound
  exact Nat.lt_of_le_of_lt (Nat.le_add_left _ _) hbound

end Cursor

end Breadcrumb
