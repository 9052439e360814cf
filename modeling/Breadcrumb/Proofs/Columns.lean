import Breadcrumb.Proofs.Reading
import Mathlib.Tactic.Ring

/-!
# Columns that do not wrap

Columns are 64-bit words. Counted without bound they grow at every character, and the words
tell the same columns as long as the last of them is a word. Then a column is reached at one
place of the line only, so seeking the column of the indent ends right after the indent, and
the tag is the token found there.

* `toNat_foldl_advance`, `toNat_indentation`: words that do not wrap tell the exact column.
* `exactColumn_add`: tab stops recur, so a whole number of them may stand in front.
* `seek_indentation`: seeking the column of an indent comes to its end, or it is reached early.
* `not_reachedEarly_of_fits`: a column that does not wrap is not reached early.
* `Line.tag_eq_of_fits`, `Document.ColumnsFit.tag_eq`: the tag is the token after the indent.
-/

namespace Breadcrumb

open Text

namespace Text

/-! ## Exact columns -/

/-- The column after `c`, written at `column`, counted without bound. -/
def exactAdvance (tabWidth column : Nat) (c : Char) : Nat :=
  if c = '\t' then (column / tabWidth + 1) * tabWidth else column + 1

/-- The column after a text written from `column` on, counted without bound. -/
def exactColumn (tabWidth column : Nat) (text : List Char) : Nat :=
  text.foldl (exactAdvance tabWidth) column

/-- The column a line's indent reaches, counted without bound. -/
def exactIndentation (tabWidth : Nat) (line : List Char) : Nat :=
  exactColumn tabWidth 0 (indent line)

section Exact

variable {tabWidth : Nat} (htab : 0 < tabWidth)

theorem exactColumn_append (column : Nat) (u v : List Char) :
    exactColumn tabWidth column (u ++ v) = exactColumn tabWidth (exactColumn tabWidth column u) v :=
  List.foldl_append

theorem exactColumn_spaces (column n : Nat) :
    exactColumn tabWidth column (List.replicate n ' ') = column + n := by
  induction n generalizing column with
  | zero => rfl
  | succ n ih =>
    have hspace : exactAdvance tabWidth column ' ' = column + 1 := if_neg (by decide)
    have hrest := ih (column + 1)
    rw [List.replicate_succ, exactColumn, List.foldl_cons, hspace]
    rw [exactColumn] at hrest
    omega

theorem indents_of_mem_spaces {n : Nat} {c : Char} (h : c ∈ List.replicate n ' ') :
    indents c = true := by
  rw [List.eq_of_mem_replicate h]
  rfl

/-- Spaces in front of a line are columns in front of its indent. -/
theorem exactIndentation_spaces_append (n : Nat) (line : List Char) :
    exactIndentation tabWidth (List.replicate n ' ' ++ line) =
      exactColumn tabWidth n (indent line) := by
  unfold exactIndentation
  rw [indent_append (fun c hc => indents_of_mem_spaces hc), exactColumn_append, exactColumn_spaces,
    Nat.zero_add]

include htab

/-- **Columns grow** at every character. -/
theorem lt_exactAdvance (column : Nat) (c : Char) : column < exactAdvance tabWidth column c := by
  unfold exactAdvance
  split
  · rw [Nat.mul_comm]
    exact Nat.lt_mul_div_succ column htab
  · exact Nat.lt_succ_self column

theorem le_exactColumn (column : Nat) (text : List Char) :
    column ≤ exactColumn tabWidth column text := by
  induction text generalizing column with
  | nil => exact Nat.le_refl column
  | cons c text ih =>
    have hc := lt_exactAdvance htab column c
    exact Nat.le_trans (Nat.le_of_lt hc) (ih (exactAdvance tabWidth column c))

theorem exactColumn_lt_append (column : Nat) (u : List Char) {v : List Char} (hv : v ≠ []) :
    exactColumn tabWidth column u < exactColumn tabWidth column (u ++ v) := by
  obtain ⟨c, v, rfl⟩ := List.exists_cons_of_ne_nil hv
  rw [exactColumn_append]
  exact Nat.lt_of_lt_of_le (lt_exactAdvance htab _ c) (le_exactColumn htab _ v)

/-- Tab stops recur: a whole number of tab widths in front moves every column by as much. -/
theorem exactAdvance_add (m column : Nat) (c : Char) :
    exactAdvance tabWidth (m * tabWidth + column) c = m * tabWidth + exactAdvance tabWidth column c := by
  unfold exactAdvance
  split
  · have hdiv : (m * tabWidth + column) / tabWidth = m + column / tabWidth := by
      rw [Nat.add_comm, Nat.add_mul_div_right column m htab, Nat.add_comm]
    rw [hdiv]
    ring
  · exact Nat.add_assoc _ _ _

theorem exactColumn_add (m column : Nat) (text : List Char) :
    exactColumn tabWidth (m * tabWidth + column) text =
      m * tabWidth + exactColumn tabWidth column text := by
  induction text generalizing column with
  | nil => rfl
  | cons c text ih =>
    rw [exactColumn, List.foldl_cons, exactAdvance_add htab]
    exact ih (exactAdvance tabWidth column c)

end Exact

/-! ## Words that tell the column -/

/-- One character moves a word as it moves the exact column, and wraps. -/
theorem toNat_advance_eq_mod (tabWidth column : UInt64) (c : Char) :
    (advance tabWidth column c).toNat =
      exactAdvance tabWidth.toNat column.toNat c % 2 ^ 64 := by
  unfold advance exactAdvance
  by_cases hc : c = '\t'
  · rw [if_pos hc, if_pos hc, UInt64.toNat_mul, UInt64.toNat_add, UInt64.toNat_div,
      UInt64.toNat_one, Nat.mod_mul_mod]
  · rw [if_neg hc, if_neg hc, UInt64.toNat_add, UInt64.toNat_one]

section Words

variable {tabWidth : UInt64} (htab : 0 < tabWidth)

include htab

/-- The first column of a text does not wrap, if the last one does not. -/
theorem toNat_advance_of_cons (column : UInt64) (c : Char) (text : List Char)
    (hfits : exactColumn tabWidth.toNat column.toNat (c :: text) < 2 ^ 64) :
    (advance tabWidth column c).toNat = exactAdvance tabWidth.toNat column.toNat c := by
  have hle : exactAdvance tabWidth.toNat column.toNat c ≤
      exactColumn tabWidth.toNat column.toNat (c :: text) :=
    le_exactColumn (UInt64.lt_iff_toNat_lt.1 htab) _ text
  rw [toNat_advance_eq_mod, Nat.mod_eq_of_lt (Nat.lt_of_le_of_lt hle hfits)]

/-- **Words that do not wrap tell the exact column.** -/
theorem toNat_foldl_advance (column : UInt64) (text : List Char)
    (hfits : exactColumn tabWidth.toNat column.toNat text < 2 ^ 64) :
    (text.foldl (advance tabWidth) column).toNat = exactColumn tabWidth.toNat column.toNat text := by
  induction text generalizing column with
  | nil => rfl
  | cons c text ih =>
    have hc := toNat_advance_of_cons htab column c text hfits
    rw [exactColumn, List.foldl_cons, ← hc] at hfits
    rw [List.foldl_cons, exactColumn, List.foldl_cons, ← hc]
    exact ih (advance tabWidth column c) hfits

theorem toNat_columnAfter {line : List Char} (hfits : exactColumn tabWidth.toNat 0 line < 2 ^ 64) :
    (columnAfter tabWidth line).toNat = exactColumn tabWidth.toNat 0 line :=
  toNat_foldl_advance htab 0 line hfits

theorem toNat_indentation {line : List Char}
    (hfits : exactIndentation tabWidth.toNat line < 2 ^ 64) :
    (Text.indentation tabWidth line).toNat = exactIndentation tabWidth.toNat line :=
  toNat_columnAfter htab hfits

/-- No column before the end of a line is beyond the one at its end. -/
theorem exactColumn_lt_of_append {u v : List Char} {bound : Nat}
    (hfits : exactColumn tabWidth.toNat 0 (u ++ v) < bound) :
    exactColumn tabWidth.toNat 0 u < bound := by
  rw [exactColumn_append] at hfits
  exact Nat.lt_of_le_of_lt (le_exactColumn (UInt64.lt_iff_toNat_lt.1 htab) _ v) hfits

/-- **Columns that do not wrap grow along the line.** -/
theorem columnAfter_lt_of_fits {u v : List Char} (hv : v ≠ [])
    (hfits : exactColumn tabWidth.toNat 0 (u ++ v) < 2 ^ 64) :
    columnAfter tabWidth u < columnAfter tabWidth (u ++ v) := by
  rw [UInt64.lt_iff_toNat_lt, toNat_columnAfter htab hfits,
    toNat_columnAfter htab (exactColumn_lt_of_append htab hfits)]
  exact exactColumn_lt_append (UInt64.lt_iff_toNat_lt.1 htab) 0 u hv

end Words

/-! ## Seeking the column of an indent -/

/-- **Seeking stops at the first place** whose column is no less than the one sought, or at the
end of the text. -/
theorem seek_first (tabWidth target column : UInt64) (text : List Char) :
    ∃ walked rest, walked ++ rest = text ∧ (seek tabWidth target column text).2 = rest ∧
      (rest = [] ∨ target ≤ walked.foldl (advance tabWidth) column) ∧
      ∀ u v, u ++ v = walked → v ≠ [] → u.foldl (advance tabWidth) column < target := by
  fun_induction seek tabWidth target column text with
  | case1 column =>
    exact ⟨[], [], rfl, rfl, .inl rfl, fun u v h hv => absurd (List.append_eq_nil_iff.1 h).2 hv⟩
  | case2 column c text hstop =>
    exact ⟨[], c :: text, rfl, rfl, .inr hstop,
      fun u v h hv => absurd (List.append_eq_nil_iff.1 h).2 hv⟩
  | case3 column c text hstop ih =>
    obtain ⟨walked, rest, rfl, hseek, hreached, hbefore⟩ := ih
    refine ⟨c :: walked, rest, rfl, hseek, hreached, fun u v h hv => ?_⟩
    cases u with
    | nil => exact UInt64.not_le.1 hstop
    | cons d u =>
      rw [List.cons_append, List.cons.injEq] at h
      obtain ⟨rfl, h⟩ := h
      exact hbefore u v h hv

/-- The column of an indent, or a later one, is reached before the indent ends. -/
def ReachedEarly (tabWidth : UInt64) (chars : List Char) : Prop :=
  ∃ u v, u ++ v = indent chars ∧ v ≠ [] ∧
    Text.indentation tabWidth chars ≤ columnAfter tabWidth u

/-- The column of an indent is sought inside of the indent, or at its end. -/
theorem seek_indentation (tabWidth : UInt64) (chars : List Char) :
    ∃ walked more, walked ++ more = indent chars ∧
      (seek tabWidth (Text.indentation tabWidth chars) 0 chars).2 = more ++ unindent chars ∧
      (more = [] ↔ ¬ ReachedEarly tabWidth chars) := by
  obtain ⟨walked, rest, happ, hseek, hreached, hbefore⟩ :=
    seek_first tabWidth (Text.indentation tabWidth chars) 0 chars
  rcases List.append_eq_append_iff.1 (happ.trans (indent_append_unindent chars).symm) with
    ⟨more, hindent, rfl⟩ | ⟨beyond, rfl, hrest⟩
  · refine ⟨walked, more, hindent.symm, hseek, fun hmore => ?_, fun hearly => ?_⟩
    · rintro ⟨u, v, huv, hv, hle⟩
      rw [hindent, hmore, List.append_nil] at huv
      exact UInt64.not_lt.2 hle (hbefore u v huv hv)
    · by_contra hmore
      refine hearly ⟨walked, more, hindent.symm, hmore, hreached.resolve_left fun hnil => ?_⟩
      exact hmore (List.append_eq_nil_iff.1 hnil).1
  · -- the column of the indent is the one sought, so nothing is walked beyond it
    have hbeyond : beyond = [] := by
      by_contra hne
      exact UInt64.lt_irrefl _ (hbefore (indent chars) beyond rfl hne)
    subst hbeyond
    rw [List.append_nil] at hbefore
    refine ⟨indent chars, [], List.append_nil _, ?_, fun _ => ?_, fun _ => rfl⟩
    · rw [hseek, List.nil_append, hrest, List.nil_append]
    · rintro ⟨u, v, huv, hv, hle⟩
      exact UInt64.not_lt.2 hle (hbefore u v huv hv)

/-- Columns that do not wrap are not reached early. -/
theorem not_reachedEarly_of_fits {tabWidth : UInt64} (htab : 0 < tabWidth) {chars : List Char}
    (hfits : exactIndentation tabWidth.toNat chars < 2 ^ 64) : ¬ ReachedEarly tabWidth chars := by
  rintro ⟨u, v, hindent, hv, hle⟩
  rw [exactIndentation, ← hindent] at hfits
  have hlt := columnAfter_lt_of_fits htab hv hfits
  rw [hindent] at hlt
  exact UInt64.not_lt.2 hle hlt

end Text

/-! ## Tags and indents -/

/-- **The tag is the token after the indent**, if the column of the indent does not wrap. -/
theorem Line.tag_eq_of_fits {tabWidth : UInt64} (htab : 0 < tabWidth) {line : Line}
    (hfits : exactIndentation tabWidth.toNat line.chars < 2 ^ 64) :
    line.tag tabWidth = String.ofList ((Token.leading? (unindent line.chars)).getD []) := by
  obtain ⟨walked, more, -, hseek, hmore⟩ := seek_indentation tabWidth line.chars
  obtain rfl : more = [] := hmore.2 (not_reachedEarly_of_fits htab hfits)
  unfold tag
  rw [indentation, hseek, List.nil_append]

namespace Document

/-- The columns of all indents are words, so that no column of an indent wraps. -/
def ColumnsFit (doc : Document) : Prop :=
  ∀ chars ∈ doc.texts, exactIndentation doc.tabWidth.toNat chars < 2 ^ 64

instance (doc : Document) : Decidable doc.ColumnsFit :=
  inferInstanceAs (Decidable (∀ chars ∈ doc.texts,
    exactIndentation doc.tabWidth.toNat chars < 2 ^ 64))

namespace ColumnsFit

variable {doc : Document} (h : doc.ColumnsFit)

include h

theorem toNat_indentation {i : Nat} {chars : List Char} (hi : doc.texts[i]? = some chars) :
    (doc.indentation i).toNat = exactIndentation doc.tabWidth.toNat chars := by
  unfold indentation
  rw [line?_eq, hi, Option.map_some, Option.elim_some]
  exact Text.toNat_indentation doc.tabWidth_pos (h chars (List.mem_of_getElem? hi))

/-- Tags are read off the lines without their indents. -/
theorem tag_eq (i : Nat) :
    doc.tag i = (doc.texts[i]?.map unindent).elim "" fun rest =>
      String.ofList ((Token.leading? rest).getD []) := by
  unfold tag
  rw [line?_eq]
  cases hi : doc.texts[i]? with
  | none => rfl
  | some chars => exact Line.tag_eq_of_fits doc.tabWidth_pos (h chars (List.mem_of_getElem? hi))

end ColumnsFit

end Document

end Breadcrumb
