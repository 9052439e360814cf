import Breadcrumb.Proofs.Reading
import Breadcrumb.Proofs.Renumbering
import Mathlib.Data.List.InsertIdx

/-!
# Lines that can be put in unnoticed

A line of blanks may be put in anywhere, inside a quoted scalar too, and a comment
wherever no quote is open. The lines of the document are read as before, and all
that it answers about them stays the same but for the numbers of the lines.

* `Invisible.quotingAfter`: such a line hands on the quoting it starts in.
* `line?_insertLine`: the other lines are found one place on, as they were.
* `renumbers_insertLine`: the structure is carried along.
* `insertLine_invisible`: so is every answer.
-/

namespace Breadcrumb

open Text

/-- A line that goes unnoticed where the quoting is `opening`: all blank, or, outside of
quotes, a comment after some indent. -/
def Invisible (opening : Option QuoteMark) (chars : List Char) : Prop :=
  (∀ c ∈ chars, isBlank c = true) ∨
    opening = none ∧ ∃ before text, (∀ c ∈ before, indents c = true) ∧ chars = before ++ '#' :: text

namespace Invisible

variable {opening : Option QuoteMark} {chars : List Char}

theorem quotingAfter (h : Invisible opening chars) :
    Breadcrumb.quotingAfter opening chars = opening := by
  rcases h with hblank | ⟨rfl, before, text, hbefore, rfl⟩
  · exact quotingAfter_of_blank opening hblank
  · exact quotingAfter_comment (fun c hc => isBlank_of_indents (hbefore c hc)) text

theorem role_ne_structural (h : Invisible opening chars) :
    (Line.mk chars opening).role ≠ .structural := by
  rcases h with hblank | ⟨rfl, before, text, hbefore, rfl⟩
  · rw [Line.role_eq_blank_iff.2 hblank]
    decide
  · -- the indent of the line is all of what stands before the mark
    have hhead : (unindent (before ++ '#' :: text)).head? = some '#' := by
      unfold unindent
      rw [List.dropWhile_append_of_pos hbefore, List.dropWhile_cons_of_neg (by decide)]
      rfl
    rw [Line.role_eq_comment_iff.2 ⟨rfl, hhead⟩]
    decide

end Invisible

/-- The new index of the line at `i` once a line is put in at `place`. -/
def shift (place i : Nat) : Nat := if i < place then i else i + 1

theorem shift_lt_iff {place i j : Nat} : shift place i < shift place j ↔ i < j := by
  unfold shift
  split <;> split <;> omega

theorem exists_shift_eq {place k : Nat} (h : k ≠ place) : ∃ i, shift place i = k := by
  by_cases hk : k < place
  · exact ⟨k, if_pos hk⟩
  · refine ⟨k - 1, ?_⟩
    rw [shift, if_neg (by omega)]
    omega

namespace Document

/-- The document with one more line, put in so that its index is `place`. -/
def insertLine (doc : Document) (place : Nat) (chars : List Char) : Document :=
  ofLines (doc.texts.insertIdx place chars) doc.tabWidth (doc.size + byteSize chars + 1)

variable {doc : Document} {place : Nat} {chars : List Char}

theorem texts_insertLine (hplace : place ≤ doc.lines.size) :
    (doc.insertLine place chars).texts = doc.texts.insertIdx place chars := by
  refine texts_ofLines (fun h => ?_) doc.tabWidth _
  have := congrArg List.length h
  rw [List.length_insertIdx_of_le_length (by rwa [length_texts])] at this
  cases this

theorem tabWidth_insertLine : (doc.insertLine place chars).tabWidth = doc.tabWidth :=
  tabWidth_ofLines doc.tabWidth_pos _ _

theorem texts_insertLine_succ (hplace : place ≤ doc.lines.size) {i : Nat} (hi : place ≤ i) :
    (doc.insertLine place chars).texts[i + 1]? = doc.texts[i]? := by
  rw [texts_insertLine hplace, List.getElem?_insertIdx_of_gt (by omega), Nat.add_sub_cancel]

theorem texts_insertLine_shift (hplace : place ≤ doc.lines.size) (i : Nat) :
    (doc.insertLine place chars).texts[shift place i]? = doc.texts[i]? := by
  by_cases hi : i < place
  · rw [shift, if_pos hi, texts_insertLine hplace, List.getElem?_insertIdx_of_lt hi]
  · rw [shift, if_neg hi, texts_insertLine_succ hplace (Nat.le_of_not_lt hi)]

theorem texts_insertLine_self (hplace : place ≤ doc.lines.size) :
    (doc.insertLine place chars).texts[place]? = some chars := by
  rw [texts_insertLine hplace, List.getElem?_insertIdx_self, if_pos (by rwa [length_texts])]

theorem openingAt_insertLine_of_le (hplace : place ≤ doc.lines.size) {i : Nat} (hi : i ≤ place) :
    (doc.insertLine place chars).openingAt i = doc.openingAt i := by
  unfold openingAt
  rw [texts_insertLine hplace, List.take_insertIdx_eq_take_of_le _ _ _ _ hi]

/-- **Quoting runs on past the new line**, if that line hands it on. -/
theorem openingAt_insertLine (hplace : place ≤ doc.lines.size)
    (hquoting : quotingAfter (doc.openingAt place) chars = doc.openingAt place) (i : Nat) :
    (doc.insertLine place chars).openingAt (shift place i) = doc.openingAt i := by
  by_cases hi : i < place
  · rw [shift, if_pos hi, openingAt_insertLine_of_le hplace (Nat.le_of_lt hi)]
  · -- from the new line on, both documents read the same texts
    have key : ∀ n, (doc.insertLine place chars).openingAt (place + n + 1) =
        doc.openingAt (place + n) := by
      intro n
      induction n with
      | zero =>
        rw [Nat.add_zero, openingAt_succ, texts_insertLine_self hplace, Option.elim_some,
          openingAt_insertLine_of_le hplace (Nat.le_refl place)]
        exact hquoting
      | succ n ih =>
        rw [← Nat.add_assoc, openingAt_succ, ih,
          texts_insertLine_succ hplace (Nat.le_add_right place n), ← openingAt_succ]
    obtain ⟨n, rfl⟩ : ∃ n, i = place + n := ⟨i - place, by omega⟩
    rw [shift, if_neg hi, key]

/-- **The other lines are as they were**, one place on. -/
theorem line?_insertLine (hplace : place ≤ doc.lines.size)
    (hquoting : quotingAfter (doc.openingAt place) chars = doc.openingAt place) (i : Nat) :
    (doc.insertLine place chars).line? (shift place i) = doc.line? i := by
  rw [line?_eq, line?_eq, texts_insertLine_shift hplace, openingAt_insertLine hplace hquoting]

theorem line?_insertLine_self (hplace : place ≤ doc.lines.size) :
    (doc.insertLine place chars).line? place = some ⟨chars, doc.openingAt place⟩ := by
  rw [line?_eq, texts_insertLine_self hplace, Option.map_some,
    openingAt_insertLine_of_le hplace (Nat.le_refl place)]

section Invisible

variable (hplace : place ≤ doc.lines.size) (h : Invisible (doc.openingAt place) chars)

include hplace h

theorem isStructural_insertLine_self : (doc.insertLine place chars).isStructural place = false := by
  unfold isStructural
  rw [line?_insertLine_self hplace, Option.any_some]
  exact decide_eq_false h.role_ne_structural

theorem isStructural_insertLine (i : Nat) :
    (doc.insertLine place chars).isStructural (shift place i) = doc.isStructural i := by
  unfold isStructural
  rw [line?_insertLine hplace h.quotingAfter]

theorem indentation_insertLine (i : Nat) :
    (doc.insertLine place chars).indentation (shift place i) = doc.indentation i := by
  unfold indentation
  rw [line?_insertLine hplace h.quotingAfter, tabWidth_insertLine]

theorem tag_insertLine (i : Nat) :
    (doc.insertLine place chars).tag (shift place i) = doc.tag i := by
  unfold tag
  rw [line?_insertLine hplace h.quotingAfter, tabWidth_insertLine]

/-- **The structure is carried along.** -/
theorem renumbers_insertLine : doc.Renumbers (doc.insertLine place chars) (shift place) where
  lt_iff := shift_lt_iff
  isStructural := isStructural_insertLine hplace h
  exists_eq := by
    intro k hk
    refine exists_shift_eq fun heq => ?_
    rw [heq, isStructural_insertLine_self hplace h] at hk
    cases hk
  indentation_lt_iff := by
    intro i j _ _
    rw [indentation_insertLine hplace h, indentation_insertLine hplace h]

theorem keys?_insertLine (i : Nat) :
    (doc.insertLine place chars).keys? (shift place i) = doc.keys? i :=
  (renumbers_insertLine hplace h).keys?_eq fun j _ => tag_insertLine hplace h j

end Invisible

/-- **Blank lines and comments go unnoticed.** Put in at any place where they are
invisible, they take no part in the structure; every other line keeps its text, the
quoting it starts in, its role, indentation, tag, trail, keys, path and subscript, but
for the numbers of the lines. -/
theorem insertLine_invisible (doc : Document) {place : Nat} {chars : List Char}
    (hplace : place ≤ doc.lines.size) (h : Invisible (doc.openingAt place) chars) :
    let after := doc.insertLine place chars
    after.line? place = some ⟨chars, doc.openingAt place⟩ ∧
    after.isStructural place = false ∧
    ∀ i, after.line? (shift place i) = doc.line? i ∧
      (after.line? (shift place i)).map Line.opening = (doc.line? i).map Line.opening ∧
      (after.line? (shift place i)).map Line.role = (doc.line? i).map Line.role ∧
      after.indentation (shift place i) = doc.indentation i ∧
      after.tag (shift place i) = doc.tag i ∧
      after.trail? (shift place i) = (doc.trail? i).map
        (fun trail => trail.map fun crumb => { crumb with line := shift place crumb.line }) ∧
      after.keys? (shift place i) = doc.keys? i ∧
      (∀ settings, after.path? settings (shift place i) = doc.path? settings i) ∧
      ∀ mark, after.subscript? mark (shift place i) = doc.subscript? mark i := by
  intro after
  refine ⟨line?_insertLine_self hplace, isStructural_insertLine_self hplace h, fun i => ?_⟩
  have hline := line?_insertLine hplace h.quotingAfter i
  have hkeys := keys?_insertLine hplace h i
  refine ⟨hline, by rw [hline], by rw [hline], indentation_insertLine hplace h i,
    tag_insertLine hplace h i, ?_, hkeys, fun settings => ?_, fun mark => ?_⟩
  · refine (renumbers_insertLine hplace h).trail?_eq fun j _ => ?_
    unfold crumb
    rw [indentation_insertLine hplace h, tag_insertLine hplace h]
  · unfold path?
    rw [hkeys]
  · unfold subscript?
    rw [hkeys]

/-- No-break spaces inside of a quoted scalar, and a comment with a quotation mark after it. -/
theorem insertLine_invisible_quoted :
    let doc := ofText "a: 'x\n\n  y'\n  b: \"z\"\n".toList 4
    let blanks := "\u00a0\t\u2003".toList
    let comment := " \t# it's \"open".toList
    (1 ≤ doc.lines.size ∧ Invisible (doc.openingAt 1) blanks ∧
      (doc.insertLine 1 blanks).trail? (shift 1 3) = (doc.trail? 3).map
        fun trail => trail.map fun crumb => { crumb with line := shift 1 crumb.line }) ∧
    3 ≤ doc.lines.size ∧ Invisible (doc.openingAt 3) comment ∧
      (doc.insertLine 3 comment).trail? (shift 3 3) = (doc.trail? 3).map
        fun trail => trail.map fun crumb => { crumb with line := shift 3 crumb.line } := by
  intro doc blanks comment
  have hblanks : Invisible (doc.openingAt 1) blanks := Or.inl (List.all_eq_true.1 (by decide))
  have hindents : ∀ c ∈ " \t".toList, indents c = true := List.all_eq_true.1 (by decide)
  have hcomment : Invisible (doc.openingAt 3) comment :=
    Or.inr ⟨by decide, " \t".toList, " it's \"open".toList, hindents, by decide⟩
  have h1 : 1 ≤ doc.lines.size := by decide
  have h3 : 3 ≤ doc.lines.size := by decide
  obtain ⟨-, -, hafter1⟩ := insertLine_invisible doc h1 hblanks
  obtain ⟨-, -, hafter3⟩ := insertLine_invisible doc h3 hcomment
  obtain ⟨-, -, -, -, -, htrail1, -⟩ := hafter1 3
  obtain ⟨-, -, -, -, -, htrail3, -⟩ := hafter3 3
  exact ⟨⟨h1, hblanks, htrail1⟩, h3, hcomment, htrail3⟩

end Document

end Breadcrumb
