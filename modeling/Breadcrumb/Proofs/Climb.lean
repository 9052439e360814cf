import Breadcrumb.Proofs.Walk
import Mathlib.Order.Bounds.Basic

/-!
# One climb instead of many

The search for a parent climbs to the nearest structural line. If that line is indented too
far, it is passed over, and a new climb starts from it. A single climb that looks at the columns
on its way would never have to start again. Both end, and both find the last of the lines above
that would do, since a line that is passed over would not, and neither would any line below it.
Only counting those columns can hold a search up.

* `Document.isParent_iff_isGreatest`: nearest is last.
* `Document.parent?_succ`: what one line does to the search.
* `Walk.climb_comesTo`, `Walk.parentInOneClimb_comesBack`: the single climb finds what the search
  finds.
* `Walk.parent_exact`: what both searches find, from any point.
-/

namespace Breadcrumb

namespace Document

variable {doc : Document} {column : UInt64} {i j : Nat}

/-- The structural lines above `i`. -/
def structuralAbove (doc : Document) (i : Nat) : Set Nat :=
  {k | k < i ∧ doc.isStructural k = true}

/-- The structural lines above `i` that are indented less than `column`. -/
def outerAbove (doc : Document) (column : UInt64) (i : Nat) : Set Nat :=
  {k | k < i ∧ doc.isStructural k = true ∧ doc.indentation k < column}

/-- **The nearest structural line above is the last of them.** -/
theorem previousStructural?_eq_some_iff_isGreatest :
    doc.previousStructural? i = some j ↔ IsGreatest (doc.structuralAbove i) j := by
  rw [previousStructural?_eq_some_iff]
  constructor
  · rintro ⟨hlt, hj, hbetween⟩
    refine ⟨⟨hlt, hj⟩, ?_⟩
    rintro k ⟨hk, hk'⟩
    by_contra hjk
    have hnot := hbetween k (by omega) hk
    rw [hk'] at hnot
    cases hnot
  · rintro ⟨⟨hlt, hj⟩, hlast⟩
    refine ⟨hlt, hj, fun k hjk hk => ?_⟩
    by_contra hk'
    have hkj : k ≤ j := hlast ⟨hk, Bool.not_eq_false _ ▸ hk'⟩
    omega

/-- **A parent is the last of the outer lines above.** -/
theorem isParent_iff_isGreatest :
    doc.IsParent column i j ↔ IsGreatest (doc.outerAbove column i) j := by
  constructor
  · rintro ⟨hlt, hj, hcolumn, hbetween⟩
    refine ⟨⟨hlt, hj, hcolumn⟩, ?_⟩
    rintro k ⟨hk, hk', hless⟩
    by_contra hjk
    have hle := hbetween k (by omega) hk hk'
    exact absurd hless (UInt64.not_lt.2 hle)
  · rintro ⟨⟨hlt, hj, hcolumn⟩, hlast⟩
    refine ⟨hlt, hj, hcolumn, fun k hjk hk hk' => ?_⟩
    by_contra hless
    have hkj : k ≤ j := hlast ⟨hk, hk', UInt64.not_le.1 hless⟩
    omega

/-- A line that is indented too far, or not structural, is not among the outer lines. -/
theorem outerAbove_succ (h : ¬ (doc.isStructural i = true ∧ doc.indentation i < column)) :
    doc.outerAbove column (i + 1) = doc.outerAbove column i := by
  ext k
  constructor
  · rintro ⟨hk, hk'⟩
    rcases Nat.lt_succ_iff_lt_or_eq.1 hk with hlt | rfl
    · exact ⟨hlt, hk'⟩
    · exact absurd hk' h
  · rintro ⟨hk, hk'⟩
    exact ⟨Nat.lt_succ_of_lt hk, hk'⟩

/-- **One line more above**: it is the parent, or else it is as if it were not there. -/
theorem parent?_succ (doc : Document) (column : UInt64) (i : Nat) :
    doc.parent? column (i + 1) =
      if doc.isStructural i = true ∧ doc.indentation i < column then some i
      else doc.parent? column i := by
  by_cases h : doc.isStructural i = true ∧ doc.indentation i < column
  · rw [if_pos h, parent?_eq_some_iff]
    exact ⟨Nat.lt_succ_self i, h.1, h.2, fun k hik hki => by omega⟩
  · rw [if_neg h]
    apply Option.ext
    intro j
    rw [parent?_eq_some_iff, parent?_eq_some_iff, isParent_iff_isGreatest, isParent_iff_isGreatest,
      outerAbove_succ h]

end Document

namespace Walk

/-! ## The single climb -/

/-- Goes up from `i`, line by line, to the first structural line indented less than `column`. -/
def climb (column : UInt64) : Nat → Walk (Option Nat)
  | 0 => return none
  | i + 1 => do
    goto i
    if (← isStructural) && (← indentation i) < column then return some i
    else climb column i

/-- The search for a parent that never starts again. -/
def parentInOneClimb (column : UInt64) (i : Nat) : Walk (Option Nat) := excursion (climb column i)

variable {cursor : Cursor}

/-- **The single climb ends, and where the search for a parent does.** -/
theorem climb_comesTo (column : UInt64) {i : Nat} (hi : i ≤ cursor.document.lines.size) :
    (climb column i).ComesTo cursor (cursor.document.parent? column i) := by
  induction i with
  | zero =>
    have hnone : cursor.document.parent? column 0 = none :=
      Document.parent?_eq_none_iff.2 fun k hk => absurd hk (Nat.not_lt_zero k)
    rw [hnone]
    exact .inl fun point => ⟨point, rfl⟩
  | succ i ih =>
    have hstructural : isStructural (cursor.goto i) =
        some (cursor.document.isStructural i, cursor.goto i) := @isStructural_eq (cursor.goto i) hi
    rw [climb, Document.parent?_succ]
    refine .of_goto ?_
    rw [bind_eq hstructural]
    rcases (@indentation_comesBack (cursor.goto i) i hi fun _ => True).yields trivial with
      hcolumn | ⟨hnone, hover⟩
    · have hcolumn : indentation i (cursor.goto i) =
          some (cursor.document.indentation i, cursor.goto i) := hcolumn
      rw [bind_eq hcolumn]
      by_cases h : cursor.document.isStructural i = true ∧ cursor.document.indentation i < column
      · rw [if_pos h, if_pos (by simpa using h)]
        exact .inl ⟨⟨i, 0⟩, rfl⟩
      · rw [if_neg h, if_neg (by simpa using h)]
        exact (ih (Nat.le_of_succ_le hi)).imp (fun hall => hall ⟨i, 0⟩) fun hnone =>
          ⟨hnone.1 ⟨i, 0⟩, hnone.2⟩
    · exact .inr ⟨bind_eq_none hnone, hover⟩

theorem parentInOneClimb_comesBack (column : UInt64) {i : Nat}
    (hi : i < cursor.document.lines.size) (kind : Point → Prop) :
    (parentInOneClimb column i).ComesBack cursor kind (cursor.document.parent? column i) :=
  (climb_comesTo column (Nat.le_of_lt hi)).excursion kind

/-! ## What the searches find -/

/-- **Both searches end and find the last line that will do.** For a line of the document, and a
cursor at any point, the search for a structural line above comes back with the last one there
is, and with none only if there is none. The search for a parent comes back, for any column,
with the last structural line above that is indented less, and with none only if there is none;
so it makes no difference that it starts again from each line that it passes over. Both put
the point back. The search for a structural line counts nothing. The search for a parent, and the
single climb, count columns: they can be held up in checked words, and only in a document that has
too few of them. -/
theorem parent_exact (cursor : Cursor) {i : Nat} (hi : i < cursor.document.lines.size) :
    let doc := cursor.document
    (∃ found, previousStructural i cursor = some (found, cursor) ∧
      (∀ j, found = some j ↔ IsGreatest {k | k < i ∧ doc.isStructural k = true} j) ∧
      (found = none ↔ ∀ k < i, doc.isStructural k = false)) ∧
    ∀ column, ∃ found, (parent column i).Yields cursor found ∧
      (parentInOneClimb column i).Yields cursor found ∧
      (∀ j, found = some j ↔
        IsGreatest {k | k < i ∧ doc.isStructural k = true ∧ doc.indentation k < column} j) ∧
      (found = none ↔ ¬ ∃ k < i, doc.isStructural k = true ∧ doc.indentation k < column) := by
  intro doc
  constructor
  · refine ⟨doc.previousStructural? i, previousStructural_eq hi, fun j => ?_, ?_⟩
    · exact Document.previousStructural?_eq_some_iff_isGreatest
    · exact Document.previousStructural?_eq_none_iff
  · intro column
    refine ⟨doc.parent? column i, (parent_comesBack column hi fun _ => True).yields trivial,
      (parentInOneClimb_comesBack column hi fun _ => True).yields trivial, fun j => ?_, ?_⟩
    · exact Document.parent?_eq_some_iff.trans Document.isParent_iff_isGreatest
    · rw [Document.parent?_eq_none_iff]
      constructor
      · rintro hall ⟨k, hk, hk', hless⟩
        exact absurd hless (UInt64.not_lt.2 (hall k hk hk'))
      · intro hnot k hk hk'
        by_contra hless
        exact hnot ⟨k, hk, hk', UInt64.not_le.1 hless⟩

open Document in
/-- Two lines that are passed over, a comment and a blank line between them, from a point inside
of one of them; and the first line, above which there is nothing. -/
theorem parent_exact_passed_over :
    let doc := ofText "a:\n  b:\n\n    c: 1\n  # d\n  e: 2\n".toList 8
    let cursor : Cursor := ⟨doc, ⟨3, 5⟩, .checked⟩
    (5 < doc.lines.size ∧ previousStructural 5 cursor = some (some 3, cursor) ∧
        parent 2 5 cursor = some (some 0, cursor) ∧
        parentInOneClimb 2 5 cursor = some (some 0, cursor)) ∧
      0 < doc.lines.size ∧ parent 9 0 cursor = some (none, cursor) := by
  intro doc cursor
  have hlast : 5 < doc.lines.size := by decide
  have hfirst : 0 < doc.lines.size := by decide
  have hfits : ¬ cursor.Overflows := by decide
  obtain ⟨⟨above, habove, hsome, -⟩, hparent⟩ := parent_exact cursor hlast
  obtain ⟨outer, houter, honce, hleast, -⟩ := hparent 2
  obtain ⟨none', hnone', -, -, hnone⟩ := (parent_exact cursor hfirst).2 9
  have hthree : above = some 3 := by
    have hmem : 3 < 5 ∧ doc.isStructural 3 = true := by decide
    have hbound : ∀ k < 5, doc.isStructural k = true → k ≤ 3 := by decide
    exact (hsome 3).2 ⟨hmem, fun k hk => hbound k hk.1 hk.2⟩
  have hzero : outer = some 0 := by
    have hmem : 0 < 5 ∧ doc.isStructural 0 = true ∧ doc.indentation 0 < 2 := by decide
    have hbound : ∀ k < 5, doc.isStructural k = true → doc.indentation k < 2 → k ≤ 0 := by decide
    exact (hleast 0).2 ⟨hmem, fun k hk => hbound k hk.1 hk.2.1 hk.2.2⟩
  have hempty : none' = none := hnone.2 fun ⟨k, hk, _⟩ => absurd hk (Nat.not_lt_zero k)
  subst hthree hzero hempty
  exact ⟨⟨hlast, habove, houter.eq hfits, honce.eq hfits⟩, hfirst, hnone'.eq hfits⟩

end Walk

end Breadcrumb
