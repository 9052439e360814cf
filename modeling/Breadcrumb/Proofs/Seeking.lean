import Breadcrumb.Proofs.Columns
import Breadcrumb.Proofs.Leading
import Breadcrumb.Proofs.Walk

/-!
# Moving to a column

A cursor that is sent to a column goes over the line from its start and adds up columns until
the one it was sent to is reached. If no column on its way wraps, it stops at the first place of
the line at that column or past it, or else at the end, and comes back with the column there.
As columns grow at every character, a later column is never reached earlier, and the column of a
place is reached at that place. So the column of an indent leads to the end of the indent, where
a count of its characters leads too.

* `seek_eq_of_cutsFirst`: seeking with words stops at the first place in exact columns.
* `cutsFirst_reaches_self`, `seek_columnAfter`: the column of a place is sought at that place.
* `Cursor.moveToColumn?_indentation`: two ways to the end of an indent, and the tag found there.
* `Cursor.moveToColumn?_first`: where a cursor comes to that is sent to a column.
-/

namespace Breadcrumb

open Text

namespace Text

/-- What stands before the place takes up `column` columns at least. -/
def Reaches (tabWidth column : Nat) (before _rest : List Char) : Prop :=
  column ≤ exactColumn tabWidth 0 before

/-! ## Exact columns -/

section Exact

variable {tabWidth : Nat} (htab : 0 < tabWidth) {before rest : List Char}

include htab

/-- The column of a place is no greater than that of a later place. -/
theorem exactColumn_le_of_length_le {u v : List Char} (heq : u ++ v = before ++ rest)
    (hle : u.length ≤ before.length) :
    exactColumn tabWidth 0 u ≤ exactColumn tabWidth 0 before := by
  have hprefix : u <+: before :=
    List.prefix_of_prefix_length_le ⟨v, heq⟩ (List.prefix_append before rest) hle
  obtain ⟨w, rfl⟩ := hprefix
  rw [exactColumn_append]
  exact le_exactColumn htab _ w

/-- **The column of a place is first reached there.** -/
theorem cutsFirst_reaches_self (before rest : List Char) :
    Token.CutsFirst (Reaches tabWidth (exactColumn tabWidth 0 before)) before rest := by
  refine ⟨.inl (Nat.le_refl _), fun u v heq hreaches => ?_⟩
  by_contra hshort
  -- a shorter beginning of the line ends at a lesser column
  obtain ⟨w, rfl⟩ : u <+: before :=
    List.prefix_of_prefix_length_le ⟨v, heq⟩ (List.prefix_append before rest) (by omega)
  have hw : w ≠ [] := by
    rintro rfl
    simp at hshort
  have hlt := exactColumn_lt_append htab 0 u hw
  unfold Reaches at hreaches
  omega

end Exact

/-- A lesser column is reached at the same place or before it. -/
theorem length_le_of_reaches {tabWidth lower column : Nat} (hle : lower ≤ column)
    {before rest other more : List Char}
    (h : Token.CutsFirst (Reaches tabWidth column) before rest)
    (h' : Token.CutsFirst (Reaches tabWidth lower) other more)
    (heq : other ++ more = before ++ rest) : other.length ≤ before.length :=
  h.length_le h' (Nat.le_trans hle) heq

/-! ## Seeking with words -/

section Words

variable {tabWidth : UInt64} (htab : 0 < tabWidth) {before rest : List Char}

include htab

/-- **Seeking stops at the first place**, told in exact columns, if the column there is a word. -/
theorem seek_eq_of_cutsFirst {column : UInt64}
    (hcuts : Token.CutsFirst (Reaches tabWidth.toNat column.toNat) before rest)
    (hfits : exactColumn tabWidth.toNat 0 before < 2 ^ 64) :
    seek tabWidth column 0 (before ++ rest) = (columnAfter tabWidth before, rest) := by
  have htab' : 0 < tabWidth.toNat := UInt64.lt_iff_toNat_lt.1 htab
  obtain ⟨walked, left, happ, hleft, hreached, hbefore⟩ :=
    seek_first tabWidth column 0 (before ++ rest)
  have hge : before.length ≤ walked.length := by
    by_contra hshort
    have hle := exactColumn_le_of_length_le htab' happ (by omega)
    have hword := toNat_columnAfter htab (Nat.lt_of_le_of_lt hle hfits)
    rcases hreached with rfl | hreached
    · have hlength := congrArg List.length happ
      simp at hlength
      omega
    · have hreaches : Reaches tabWidth.toNat column.toNat walked left := by
        unfold Reaches
        rw [← hword]
        exact UInt64.le_iff_toNat_le.1 hreached
      exact hshort (hcuts.first walked left happ hreaches)
  have hle : walked.length ≤ before.length := by
    by_contra hlong
    -- the walk would have stopped at `before`
    obtain ⟨w, rfl⟩ : before <+: walked :=
      List.prefix_of_prefix_length_le ⟨rest, rfl⟩ ⟨left, happ⟩ (by omega)
    have hw : w ≠ [] := by
      rintro rfl
      simp at hlong
    have hlt := UInt64.lt_iff_toNat_lt.1 (hbefore before w rfl hw)
    have hword := toNat_columnAfter htab hfits
    rcases hcuts.ends with hreaches | rfl
    · unfold Reaches at hreaches
      unfold columnAfter at hword
      omega
    · have hlength := congrArg List.length happ
      simp at hlength
      exact hw hlength.1
  obtain ⟨rfl, rfl⟩ := List.append_inj happ (Nat.le_antisymm hle hge)
  obtain ⟨walked', happ', hcolumn⟩ := seek_append tabWidth column 0 (walked ++ left)
  rw [hleft] at happ'
  obtain rfl := List.append_cancel_right happ'
  exact Prod.ext hcolumn hleft

/-- **The column of a place is sought at that place**, if it does not wrap. -/
theorem seek_columnAfter (hfits : exactColumn tabWidth.toNat 0 before < 2 ^ 64) :
    seek tabWidth (columnAfter tabWidth before) 0 (before ++ rest) =
      (columnAfter tabWidth before, rest) := by
  have hself := cutsFirst_reaches_self (UInt64.lt_iff_toNat_lt.1 htab) before rest
  rw [← toNat_columnAfter htab hfits] at hself
  exact seek_eq_of_cutsFirst htab hself hfits

end Words

end Text

namespace Cursor

variable {cursor : Cursor} {line : Line} {before rest : List Char}

/-- A cursor is sent to where seeking the column stops, if the column there is a word. -/
theorem moveToColumn?_of_seek (hline : cursor.line? = some line)
    (hchars : before ++ rest = line.chars) {column reached : UInt64}
    (hseek : seek cursor.document.tabWidth column 0 (before ++ rest) = (reached, rest))
    (hfits : exactColumn cursor.document.tabWidth.toNat 0 before < 2 ^ 64) :
    cursor.moveToColumn? column = some (reached, cursor.moveTo (byteSize before)) := by
  obtain ⟨walked, hwalked, hmove⟩ := exists_moveToColumn?_eq hline column
  rw [← hchars, hseek] at hwalked hmove
  obtain rfl := List.append_cancel_right hwalked
  exact hmove.trans (if_neg (Arithmetic.not_stops_of_lt hfits))

/-! ## The end of an indent -/

section Indent

variable {cursor : Cursor} {line : Line} (hline : cursor.line? = some line)
  (hfits : exactIndentation cursor.document.tabWidth.toNat line.chars < 2 ^ 64)

include hline hfits

theorem indentation?_of_fits :
    cursor.indentation? = some (line.indentation cursor.document.tabWidth) := by
  have hline : cursor.document.line? cursor.point.line = some line := hline
  rw [Cursor.indentation?, Document.indentation?_eq, hline, Option.bind_some]
  exact columnAfter?_eq_of_fits cursor.document.tabWidth_pos hfits

/-- **The column of an indent leads to its end.** -/
theorem moveToColumn?_of_fits :
    cursor.moveToColumn? (line.indentation cursor.document.tabWidth) =
      some (line.indentation cursor.document.tabWidth, cursor.moveTo line.indentSize) :=
  moveToColumn?_of_seek hline (indent_append_unindent line.chars)
    (seek_columnAfter cursor.document.tabWidth_pos hfits) hfits

end Indent

/-- **The tag is read behind the indent**, from anywhere, if the count of its brackets does not
stop. -/
theorem tag_of_fits {i : Nat} (hline : cursor.document.line? i = some line)
    (hfits : exactIndentation cursor.document.tabWidth.toNat line.chars < 2 ^ 64)
    (hbrackets : ¬ cursor.arithmetic.Stops UInt32.size (line.chars.countP opensFlow)) :
    Walk.tag i cursor =
      some (String.ofList ((Token.leading? (unindent line.chars)).getD []), cursor) := by
  have hstart : (cursor.goto i).line? = some line := hline
  have hmove := moveToColumn?_of_fits hstart hfits
  have htoken : ((cursor.goto i).moveTo line.indentSize).token? =
      some (Token.leading? (unindent line.chars)) := by
    rw [(standsIn_indent hstart).token?_eq_read?]
    refine (Token.read?_eq _ _).resolve_right fun hnone => hbrackets (hnone.2.mono ?_)
    exact (List.dropWhile_sublist _).countP_le
  apply Walk.excursion_eq
  rw [Walk.bind_eq (Walk.goto_eq i), Walk.bind_eq (Walk.look_eq (indentation?_of_fits hstart hfits)),
    Walk.bind_eq hmove, Walk.bind_eq (Walk.look_eq htoken)]
  rfl

/-- **Two ways to the end of an indent.** On any line whose indent does not wrap, and from any
point on it, a cursor that is sent to the column of the indent comes to the place behind the
characters that indent, and back with the column. So the tag of a line is the token that the line
starts with once its indent is taken off, or empty if there is none, wherever the cursor is; its
brackets have to be so few that their count does not hold the cursor up. -/
theorem moveToColumn?_indentation {i : Nat} (hline : cursor.document.line? i = some line)
    (hfits : exactIndentation cursor.document.tabWidth.toNat line.chars < 2 ^ 64) :
    (cursor.point.line = i → ∃ column there, cursor.indentation? = some column ∧
      column.toNat = exactIndentation cursor.document.tabWidth.toNat line.chars ∧
      cursor.backToIndent? = some there ∧
      cursor.moveToColumn? column = some (column, there)) ∧
    (∃ tag, (¬ cursor.arithmetic.Stops UInt32.size (line.chars.countP opensFlow) →
        Walk.tag i cursor = some (tag, cursor)) ∧ tag = cursor.document.tag i ∧
      tag = String.ofList ((Token.leading? (unindent line.chars)).getD [])) := by
  have htab := cursor.document.tabWidth_pos
  constructor
  · rintro rfl
    exact ⟨_, _, indentation?_of_fits hline hfits, Text.toNat_indentation htab hfits,
      backToIndent?_eq hline, moveToColumn?_of_fits hline hfits⟩
  · refine ⟨_, tag_of_fits hline hfits, ?_, rfl⟩
    rw [Document.tag, hline, Option.elim_some, Line.tag_eq_of_fits htab hfits]

/-- Spaces around a tab, from a point inside of a character, and a comment further down. -/
theorem moveToColumn?_indentation_mixed :
    let doc := Document.ofText "a:\n \t é: 1\n\t # c\n".toList 3
    let cursor : Cursor := ⟨doc, ⟨1, 4⟩, .checked⟩
    let line : Line := ⟨" \t é: 1".toList, none⟩
    let comment : Line := ⟨"\t # c".toList, none⟩
    doc.line? 1 = some line ∧ exactIndentation doc.tabWidth.toNat line.chars < 2 ^ 64 ∧
      (∃ there, cursor.backToIndent? = some there ∧ cursor.moveToColumn? 4 = some (4, there)) ∧
      doc.line? 2 = some comment ∧
      exactIndentation doc.tabWidth.toNat comment.chars < 2 ^ 64 ∧
      Walk.tag 2 cursor = some ("#", cursor) := by
  intro doc cursor line comment
  have hline : doc.line? 1 = some line := by decide
  have hcomment : doc.line? 2 = some comment := by decide
  have hfits : exactIndentation doc.tabWidth.toNat line.chars < 2 ^ 64 := by decide
  have hfits' : exactIndentation doc.tabWidth.toNat comment.chars < 2 ^ 64 := by decide
  obtain ⟨hmoves, -⟩ := @moveToColumn?_indentation cursor line 1 hline hfits
  obtain ⟨-, tag, hwalk, -, htag⟩ := @moveToColumn?_indentation cursor comment 2 hcomment hfits'
  obtain ⟨column, there, -, hcolumn, hback, hmove⟩ := hmoves rfl
  have hexact : exactIndentation doc.tabWidth.toNat line.chars = (4 : UInt64).toNat := by decide
  obtain rfl : column = 4 := UInt64.toNat_inj.1 (hcolumn.trans hexact)
  have hhash : String.ofList ((Token.leading? (unindent comment.chars)).getD []) = "#" := by decide
  rw [htag, hhash] at hwalk
  exact ⟨hline, hfits, ⟨there, hback, hmove⟩, hcomment, hfits', hwalk (by decide)⟩

/-! ## Any column -/

/-- **A cursor sent to a column** stops at the first place of its line at that column or past it,
or at the end of the line if there is none, unless a column on its way wraps; it comes back with
the column of the place. A lesser column leads no further, and the column it comes back with leads
to the same place again. -/
theorem moveToColumn?_first (hline : cursor.line? = some line) (column : UInt64) :
    ∃ before rest, before ++ rest = line.chars ∧
      Token.CutsFirst (Reaches cursor.document.tabWidth.toNat column.toNat) before rest ∧
      (exactColumn cursor.document.tabWidth.toNat 0 line.chars < 2 ^ 64 →
        exactColumn cursor.document.tabWidth.toNat 0 before < 2 ^ 64) ∧
      (exactColumn cursor.document.tabWidth.toNat 0 before < 2 ^ 64 → ∃ reached,
        cursor.moveToColumn? column = some (reached, cursor.moveTo (byteSize before)) ∧
        reached.toNat = exactColumn cursor.document.tabWidth.toNat 0 before ∧
        line.columnAt? cursor.arithmetic cursor.document.tabWidth (byteSize before) =
          some reached ∧
        (∀ lower ≤ column, ∃ reached' offset,
          cursor.moveToColumn? lower = some (reached', cursor.moveTo offset) ∧
            reached' ≤ reached ∧ offset ≤ byteSize before) ∧
        (cursor.moveTo (byteSize before)).moveToColumn? reached =
          some (reached, cursor.moveTo (byteSize before))) := by
  have htab := cursor.document.tabWidth_pos
  have htab' : 0 < cursor.document.tabWidth.toNat := UInt64.lt_iff_toNat_lt.1 htab
  obtain ⟨before, rest, hchars, hcuts⟩ := Token.exists_cutsFirst
    (Reaches cursor.document.tabWidth.toNat column.toNat) line.chars
  refine ⟨before, rest, hchars, hcuts, fun hfits => ?_, fun hfits => ?_⟩
  · rw [← hchars] at hfits
    exact exactColumn_lt_of_append htab hfits
  have hreached := toNat_columnAfter htab hfits
  refine ⟨_, moveToColumn?_of_seek hline hchars (seek_eq_of_cutsFirst htab hcuts hfits) hfits,
    hreached, ?_, fun lower hlower => ?_, ?_⟩
  · rw [Line.columnAt?_byteSize hchars]
    exact columnAfter?_eq_of_fits htab hfits
  · -- the first place for the lesser column is not behind the one for `column`
    obtain ⟨other, more, hchars', hcuts'⟩ := Token.exists_cutsFirst
      (Reaches cursor.document.tabWidth.toNat lower.toNat) line.chars
    have heq : other ++ more = before ++ rest := hchars'.trans hchars.symm
    have hlength := length_le_of_reaches (UInt64.le_iff_toNat_le.1 hlower) hcuts hcuts' heq
    obtain ⟨w, rfl⟩ : other <+: before :=
      List.prefix_of_prefix_length_le ⟨more, heq⟩ ⟨rest, rfl⟩ hlength
    have hfits' := exactColumn_lt_of_append htab hfits
    refine ⟨_, _,
      moveToColumn?_of_seek hline hchars' (seek_eq_of_cutsFirst htab hcuts' hfits') hfits', ?_, ?_⟩
    · rw [UInt64.le_iff_toNat_le, hreached, toNat_columnAfter htab hfits']
      exact exactColumn_le_of_length_le htab' heq hlength
    · rw [byteSize_append]
      omega
  · have hagain : (cursor.moveTo (byteSize before)).line? = some line := hline
    exact moveToColumn?_of_seek hagain hchars (seek_columnAfter htab hfits) hfits

/-- A column inside of a tab that follows a character of two bytes. -/
theorem moveToColumn?_first_inside_tab :
    let cursor : Cursor := ⟨Document.ofText "é\tb".toList 4, ⟨0, 4⟩, .checked⟩
    let line : Line := ⟨"é\tb".toList, none⟩
    cursor.line? = some line ∧
      exactColumn cursor.document.tabWidth.toNat 0 line.chars < 2 ^ 64 ∧
      cursor.moveToColumn? 2 = some (4, cursor.moveTo 3) ∧
      (cursor.moveTo 3).moveToColumn? 4 = some (4, cursor.moveTo 3) := by
  intro cursor line
  have hline : cursor.line? = some line := by decide
  have hfits : exactColumn cursor.document.tabWidth.toNat 0 line.chars < 2 ^ 64 := by decide
  obtain ⟨before, rest, -, -, hfirst, hmoves⟩ := moveToColumn?_first hline 2
  obtain ⟨reached, hmove, -, -, -, hagain⟩ := hmoves (hfirst hfits)
  have hplace : (cursor.moveToColumn? 2).map (fun found => (found.1, found.2.point.offset)) =
      some (4, 3) := by decide
  rw [hmove] at hplace
  obtain ⟨rfl, hoffset⟩ : reached = 4 ∧ byteSize before = 3 := by
    simpa [moveTo, place] using hplace
  rw [hoffset] at hmove hagain
  exact ⟨hline, hfits, hmove, hagain⟩

end Cursor

end Breadcrumb
