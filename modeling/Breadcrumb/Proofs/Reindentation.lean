import Breadcrumb.Proofs.Columns
import Breadcrumb.Proofs.Renumbering
import Mathlib.Order.Monotone.Defs

/-!
# Lines with other indents

A reader is at the start of a line until the indent is over, so what a line is does not
depend on its indent, and neither does the quoting it hands on. All that an indent tells is
its column, and all that matters about columns is their order. So the indents of a document
may be replaced by others in any way that keeps the order of the columns.

* `quotingAfter_unindent`, `Line.role_unindent`: the indent is not looked at.
* `Reindents.isStructural_eq`, `Reindents.tag_eq`: lines with other indents are the same
  to the structure but for their columns.
* `reindent_same`: documents with the order of columns kept give the same answers.
-/

namespace Breadcrumb

open Text

/-! ## Lines -/

/-- **A line hands on the same quoting without its indent**, inside of quotes too. -/
theorem quotingAfter_unindent (opening : Option QuoteMark) (chars : List Char) :
    quotingAfter opening (unindent chars) = quotingAfter opening chars := by
  have hindent : ∀ c ∈ indent chars, isBlank c = true := fun c hc => isBlank_of_mem_indent hc
  have hrun := (Reader.settled_start opening).run_blank_append hindent (unindent chars)
  rw [indent_append_unindent] at hrun
  unfold quotingAfter
  rw [hrun]

/-- A line that is not there hands on the quoting as a line without its indent does. -/
theorem elim_quotingAfter_unindent (opening : Option QuoteMark) (chars : Option (List Char)) :
    (chars.map unindent).elim opening (quotingAfter opening) =
      chars.elim opening (quotingAfter opening) := by
  cases chars with
  | none => rfl
  | some chars => exact quotingAfter_unindent opening chars

theorem all_isBlank_unindent (chars : List Char) :
    (unindent chars).all isBlank = chars.all isBlank := by
  have hindent : (indent chars).all isBlank = true :=
    List.all_eq_true.2 fun c hc => isBlank_of_mem_indent hc
  have hsplit : (indent chars ++ unindent chars).all isBlank =
      ((indent chars).all isBlank && (unindent chars).all isBlank) := List.all_append
  rw [indent_append_unindent, hindent, Bool.true_and] at hsplit
  exact hsplit.symm

/-- **A line is the same without its indent**: blank, a comment or structural. -/
theorem Line.role_unindent (chars : List Char) (opening : Option QuoteMark) :
    (Line.mk (unindent chars) opening).role = (Line.mk chars opening).role := by
  unfold role
  rw [classAt_indentSize, classAt_indentSize]
  simp only [all_isBlank_unindent, unindent_unindent]

namespace Document

variable {doc doc' : Document}

/-- The document with other lines, each of them ended by a line feed. -/
def withTexts (doc : Document) (texts : List (List Char)) : Document :=
  ofLines texts doc.tabWidth (texts.map fun chars => byteSize chars + 1).sum

theorem tabWidth_withTexts (texts : List (List Char)) :
    (doc.withTexts texts).tabWidth = doc.tabWidth :=
  tabWidth_ofLines doc.tabWidth_pos _ _

theorem texts_withTexts {texts : List (List Char)} (h : texts ≠ []) :
    (doc.withTexts texts).texts = texts :=
  texts_ofLines h _ _

/-! ## Documents -/

/-- From the line at `n` on, `doc'` has the lines of `doc` but for their indents, read from
the same quoting. The columns of the indents wrap in neither. -/
structure Reindents (doc doc' : Document) (n : Nat) : Prop where
  opening : doc'.openingAt n = doc.openingAt 0
  unindent_eq : ∀ i, doc'.texts[i + n]?.map unindent = doc.texts[i]?.map unindent
  fits : doc.ColumnsFit
  fits' : doc'.ColumnsFit

namespace Reindents

variable {n : Nat} (h : doc.Reindents doc' n)

include h

/-- Every line starts in the quoting that it started in. -/
theorem openingAt_eq (i : Nat) : doc'.openingAt (i + n) = doc.openingAt i := by
  induction i with
  | zero =>
    rw [Nat.zero_add]
    exact h.opening
  | succ i ih =>
    rw [Nat.add_right_comm, openingAt_succ, openingAt_succ, ih, ← elim_quotingAfter_unindent,
      h.unindent_eq, elim_quotingAfter_unindent]

/-- What can be told of a line without its indent is the same. -/
theorem map_eq {α : Type} {g : Line → α}
    (hg : ∀ chars opening, g ⟨unindent chars, opening⟩ = g ⟨chars, opening⟩) (i : Nat) :
    (doc'.line? (i + n)).map g = (doc.line? i).map g := by
  have hmap : ∀ (chars : Option (List Char)) (opening : Option QuoteMark),
      (chars.map fun c => Line.mk c opening).map g =
        (chars.map unindent).map fun rest => g ⟨rest, opening⟩ := by
    intro chars opening
    cases chars with
    | none => rfl
    | some chars => exact congrArg some (hg chars opening).symm
  rw [line?_eq, line?_eq, hmap, hmap, h.openingAt_eq, h.unindent_eq]

/-- **Every line is what it was**: blank, a comment or structural. -/
theorem map_role_eq (i : Nat) :
    (doc'.line? (i + n)).map Line.role = (doc.line? i).map Line.role :=
  h.map_eq Line.role_unindent i

theorem isStructural_eq (i : Nat) : doc'.isStructural (i + n) = doc.isStructural i := by
  have hany : ∀ line : Option Line, (line.any fun line => line.role = .structural) =
      (line.map Line.role).any fun role => role = .structural := by
    intro line
    rw [Option.any_map]
  unfold isStructural
  rw [hany, hany, h.map_role_eq]

/-- **Every line keeps its tag.** -/
theorem tag_eq (i : Nat) : doc'.tag (i + n) = doc.tag i := by
  rw [h.fits.tag_eq, h.fits'.tag_eq, h.unindent_eq]

end Reindents

/-! ## Other columns in the same order -/

/-- A line with its indent replaced by spaces up to `f` of its column. -/
def reindentChars (tabWidth : UInt64) (f : Nat → Nat) (chars : List Char) : List Char :=
  List.replicate (f (Text.indentation tabWidth chars).toNat) ' ' ++ unindent chars

/-- The document with the indents of all its lines replaced. -/
def reindent (doc : Document) (f : Nat → Nat) : Document :=
  doc.withTexts (doc.texts.map (reindentChars doc.tabWidth f))

variable {f : Nat → Nat}

theorem unindent_reindentChars (tabWidth : UInt64) (chars : List Char) :
    unindent (reindentChars tabWidth f chars) = unindent chars := by
  unfold reindentChars
  rw [unindent_append (fun c hc => indents_of_mem_spaces hc), unindent_unindent]

theorem exactIndentation_reindentChars (tabWidth : UInt64) (chars : List Char) (width : Nat) :
    exactIndentation width (reindentChars tabWidth f chars) =
      f (Text.indentation tabWidth chars).toNat := by
  unfold reindentChars
  rw [exactIndentation_spaces_append, indent_unindent]
  rfl

theorem texts_reindent (i : Nat) :
    (doc.reindent f).texts[i]? = doc.texts[i]?.map (reindentChars doc.tabWidth f) := by
  have hne : doc.texts.map (reindentChars doc.tabWidth f) ≠ [] := by
    simp [doc.texts_ne_nil]
  unfold reindent
  rw [texts_withTexts hne, List.getElem?_map]

section Reindent

variable (hfits : doc.ColumnsFit) (hfits' : (doc.reindent f).ColumnsFit)

include hfits hfits'

theorem reindents_reindent : doc.Reindents (doc.reindent f) 0 where
  opening := rfl
  unindent_eq := fun i => by
    rw [Nat.add_zero, texts_reindent, Option.map_map]
    congr 1
    funext chars
    exact unindent_reindentChars doc.tabWidth chars
  fits := hfits
  fits' := hfits'

theorem toNat_indentation_reindent {i : Nat} (hi : doc.isStructural i = true) :
    ((doc.reindent f).indentation i).toNat = f (doc.indentation i).toNat := by
  obtain ⟨chars, hchars⟩ := exists_text_of_isStructural hi
  have hchars' : (doc.reindent f).texts[i]? = some (reindentChars doc.tabWidth f chars) := by
    rw [texts_reindent, hchars, Option.map_some]
  rw [hfits'.toNat_indentation hchars', exactIndentation_reindentChars, hfits.toNat_indentation hchars,
    Text.toNat_indentation doc.tabWidth_pos (hfits chars (List.mem_of_getElem? hchars))]

/-- **The structure is carried along**, if the columns keep their order. -/
theorem renumbers_reindent (hf : StrictMono f) : doc.Renumbers (doc.reindent f) id where
  lt_iff := Iff.rfl
  isStructural := (reindents_reindent hfits hfits').isStructural_eq
  exists_eq := fun {k} _ => ⟨k, rfl⟩
  indentation_lt_iff := fun {i j} hi hj => by
    rw [UInt64.lt_iff_toNat_lt, UInt64.lt_iff_toNat_lt, id, id,
      toNat_indentation_reindent hfits hfits' hi, toNat_indentation_reindent hfits hfits' hj,
      hf.lt_iff_lt]

theorem crumb_reindent {i : Nat} (hi : doc.isStructural i = true) :
    (doc.reindent f).crumb i =
      { doc.crumb i with indentation := UInt64.ofNat (f (doc.crumb i).indentation.toNat) } := by
  have htag : (doc.reindent f).tag i = doc.tag i := (reindents_reindent hfits hfits').tag_eq i
  have hcolumn := congrArg UInt64.ofNat (toNat_indentation_reindent hfits hfits' hi)
  rw [UInt64.ofNat_toNat] at hcolumn
  rw [crumb, htag, hcolumn]
  rfl

end Reindent

/-- **Only the order of columns matters.** Replace the indent of every line by as many spaces
as a strictly increasing function gives for its column. If no column wraps before or after,
every line keeps the quoting it starts in, its role and its tag, and the trail of every line
leads through the same lines, with the new columns. So keys, paths and subscripts stay. -/
theorem reindent_same (doc : Document) {f : Nat → Nat} (hf : StrictMono f)
    (hfits : doc.ColumnsFit) (hfits' : (doc.reindent f).ColumnsFit) :
    let after := doc.reindent f
    ∀ i, (after.line? i).map Line.opening = (doc.line? i).map Line.opening ∧
      (after.line? i).map Line.role = (doc.line? i).map Line.role ∧
      after.tag i = doc.tag i ∧
      after.trail? i = (doc.trail? i).map (fun trail => trail.map fun crumb =>
        { crumb with indentation := UInt64.ofNat (f crumb.indentation.toNat) }) ∧
      after.keys? i = doc.keys? i ∧
      (∀ settings, after.path? settings i = doc.path? settings i) ∧
      ∀ mark, after.subscript? mark i = doc.subscript? mark i := by
  intro after i
  have hsame := reindents_reindent hfits hfits'
  have hrenumbers := renumbers_reindent hfits hfits' hf
  have hkeys : after.keys? i = doc.keys? i := hrenumbers.keys?_eq fun j _ => hsame.tag_eq j
  refine ⟨hsame.map_eq (fun _ _ => rfl) i, hsame.map_role_eq i, hsame.tag_eq i, ?_, hkeys,
    path?_eq_of_keys? hkeys, subscript?_eq_of_keys? hkeys⟩
  exact hrenumbers.trail?_eq fun j hj => crumb_reindent hfits hfits' hj

/-- Tabs and a scalar over two lines, with a line of blanks and a comment below it; column 0
is moved too. -/
theorem reindent_same_tabs :
    let doc := ofText "a:\n\tb: 'x\n  # y'\n \t \n # c\n\t  d: 1\n".toList 4
    let f := fun column => 2 * column + 3
    (StrictMono f ∧ doc.ColumnsFit ∧ (doc.reindent f).ColumnsFit) ∧
      (doc.reindent f).trail? 5 = (doc.trail? 5).map (fun trail => trail.map fun crumb =>
        { crumb with indentation := UInt64.ofNat (f crumb.indentation.toNat) }) ∧
      (doc.reindent f).keys? 5 = some ["a", "#", "d"] := by
  intro doc f
  have hf : StrictMono f := fun i j hij => by
    show 2 * i + 3 < 2 * j + 3
    omega
  have hfits : doc.ColumnsFit := by decide
  have hfits' : (doc.reindent f).ColumnsFit := by decide
  obtain ⟨-, -, -, htrail, hkeys, -⟩ := reindent_same doc hf hfits hfits' 5
  refine ⟨⟨hf, hfits, hfits'⟩, htrail, ?_⟩
  rw [hkeys]
  decide +kernel

end Document

end Breadcrumb
