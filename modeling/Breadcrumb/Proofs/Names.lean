import Breadcrumb.Proofs.Columns
import Breadcrumb.Proofs.Leading
import Breadcrumb.Proofs.Locate
import Breadcrumb.Proofs.Role

/-!
# Lines without a name

The tag of a line is the token at the column of its indent. Only spaces and tabs indent, but no
token starts with a blank, and there are more blanks than these two. So a line of the structure
has an empty tag if another blank stands behind its indent. It also has one if its columns wrap
so that the column of its indent is reached inside of the indent.

* `startsWithHash_append_iff`: which comments are told by the first character after the indent.
* `Line.tag_eq_empty_iff`: which lines have an empty tag.
* `isStructural_iff_of_hash`: comments that another blank indents take part in the structure.
* `Document.tag_exact`: which lines of the structure, and which keys, are empty.
-/

namespace Breadcrumb

open Text

/-! ## Other blanks -/

/-- Spaces and tabs with another blank after them, and any text. -/
def StartsWithBlank (chars : List Char) : Prop :=
  ∃ blanks c rest, chars = blanks ++ c :: rest ∧ (∀ b ∈ blanks, b = ' ' ∨ b = '\t') ∧
    isBlank c = true ∧ c ≠ ' ' ∧ c ≠ '\t'

/-- A text with another blank behind its indent has no token there. -/
theorem startsWithBlank_iff {chars : List Char} :
    StartsWithBlank chars ↔ ∃ c rest, unindent chars = c :: rest ∧ isBlank c = true := by
  constructor
  · rintro ⟨blanks, c, rest, rfl, hblanks, hc, hother⟩
    have hindents : ∀ b ∈ blanks, indents b = true := fun b hb => indents_iff.2 (hblanks b hb)
    have hstop : ¬ indents c = true := by rwa [indents_iff, not_or]
    refine ⟨c, rest, ?_, hc⟩
    rw [unindent_append hindents, unindent, List.dropWhile_cons_of_neg hstop]
  · rintro ⟨c, rest, hrest, hc⟩
    have hstop : ¬ indents c = true := by
      have hhead := List.head?_dropWhile_not indents chars
      unfold unindent at hrest
      rw [hrest] at hhead
      exact Bool.eq_false_iff.1 hhead
    rw [indents_iff, not_or] at hstop
    exact ⟨indent chars, c, rest, by rw [← hrest, indent_append_unindent],
      fun b hb => indents_iff.1 (indents_of_mem_indent hb), hc, hstop⟩

theorem unindent_ne_nil {chars : List Char} (h : ¬ ∀ c ∈ chars, isBlank c = true) :
    unindent chars ≠ [] := by
  intro hnil
  exact h fun c hc => isBlank_of_indents (List.dropWhile_eq_nil_iff.1 hnil c hc)

/-- Blanks in front of `#` are all an indent if `#` is the first character after the indent. -/
theorem startsWithHash_append_iff {blanks : List Char} (h : ∀ c ∈ blanks, isBlank c = true)
    (rest : List Char) :
    StartsWithHash (blanks ++ '#' :: rest) ↔ ∀ c ∈ blanks, c = ' ' ∨ c = '\t' := by
  refine ⟨fun hhash => ?_, fun hblanks => ⟨blanks, rest, rfl, hblanks⟩⟩
  have hnil : unindent blanks = [] := by
    rw [startsWithHash_iff, unindent, List.dropWhile_append] at hhash
    cases hother : blanks.dropWhile indents with
    | nil => exact hother
    | cons c more =>
      -- the first character after the indent is one of the blanks, and `#` is none
      rw [hother] at hhash
      obtain rfl : c = '#' := Option.some.inj hhash
      have hmem : '#' ∈ blanks :=
        (List.dropWhile_sublist indents).subset (hother ▸ List.mem_cons_self)
      exact absurd (h '#' hmem) (by decide)
  exact fun c hc => indents_iff.1 (List.dropWhile_eq_nil_iff.1 hnil c hc)

/-! ## Empty tags -/

theorem Token.ne_nil_of_leading? {text token : List Char} (h : leading? text = some token) :
    token ≠ [] := by
  cases text with
  | nil => cases h
  | cons c text =>
    rw [leading?] at h
    split_ifs at h
    have hlength := congrArg List.length (Option.some.inj h)
    rw [List.length_take, List.length_cons] at hlength
    exact List.ne_nil_of_length_pos (by omega)

/-- No token is empty, so an empty text is taken just where there is no token. -/
theorem Token.leading?_getD_eq_nil_iff {text : List Char} :
    (leading? text).getD [] = [] ↔ text = [] ∨ ∃ c rest, text = c :: rest ∧ isBlank c = true := by
  rw [← leading?_eq_none_iff]
  cases h : leading? text with
  | none => simp
  | some token => simpa using ne_nil_of_leading? h

/-- **A line has an empty tag** if and only if it is all indent, another blank stands behind its
indent, or the column of its indent is reached early. -/
theorem Line.tag_eq_empty_iff {tabWidth : UInt64} {line : Line} :
    line.tag tabWidth = "" ↔ unindent line.chars = [] ∨ StartsWithBlank line.chars ∨
      ReachedEarly tabWidth line.chars := by
  obtain ⟨walked, more, hindent, hseek, hmore⟩ := seek_indentation tabWidth line.chars
  have htag : line.tag tabWidth =
      String.ofList ((Token.leading? (more ++ unindent line.chars)).getD []) := by
    rw [← hseek]
    rfl
  rw [htag, String.ofList_eq_empty_iff, Token.leading?_getD_eq_nil_iff]
  cases more with
  | nil => rw [List.nil_append, ← startsWithBlank_iff, ← or_assoc, or_iff_left (hmore.1 rfl)]
  | cons c more =>
    have hearly : ReachedEarly tabWidth line.chars := by
      by_contra hearly
      cases hmore.2 hearly
    have hmem : c ∈ indent line.chars := by
      rw [← hindent]
      exact List.mem_append_right walked List.mem_cons_self
    have hc : isBlank c = true := isBlank_of_mem_indent hmem
    exact ⟨fun _ => .inr (.inr hearly), fun _ => .inr ⟨c, _, rfl, hc⟩⟩

namespace Document

variable {doc : Document} {i : Nat}

theorem isStructural_iff {chars : List Char} (h : doc.texts[i]? = some chars) :
    doc.isStructural i = true ↔ (¬ ∀ c ∈ chars, isBlank c = true) ∧
      ¬ (doc.openingAt i = none ∧ StartsWithHash chars) := by
  unfold isStructural
  rw [line?_eq, h, Option.map_some, Option.any_some, decide_eq_true_eq, Line.role_eq_structural_iff,
    Ne, Ne, Line.role_eq_blank_iff, Line.role_eq_comment_iff, startsWithHash_iff]

/-- **Comments that are no comments.** Blanks and a `#` after them, outside of quotes, take part
in the structure if and only if one of the blanks is neither a space nor a tab. -/
theorem isStructural_iff_of_hash {blanks rest : List Char}
    (h : doc.texts[i]? = some (blanks ++ '#' :: rest)) (hblank : ∀ c ∈ blanks, isBlank c = true)
    (hopening : doc.openingAt i = none) :
    doc.isStructural i = true ↔ ∃ c ∈ blanks, c ≠ ' ' ∧ c ≠ '\t' := by
  have hhash : ¬ ∀ c ∈ blanks ++ '#' :: rest, isBlank c = true := fun hall =>
    absurd (hall '#' (by simp)) (by decide)
  rw [isStructural_iff h, startsWithHash_append_iff hblank]
  simp only [hhash, hopening, not_false_eq_true, true_and, not_forall, not_or, exists_prop]

theorem tag_eq_empty_iff {chars : List Char} (hi : doc.isStructural i = true)
    (h : doc.texts[i]? = some chars) :
    doc.tag i = "" ↔ StartsWithBlank chars ∨ ReachedEarly doc.tabWidth chars := by
  have hne : unindent chars ≠ [] := unindent_ne_nil ((isStructural_iff h).1 hi).1
  unfold tag
  rw [line?_eq, h, Option.map_some, Option.elim_some, Line.tag_eq_empty_iff, or_iff_right hne]

/-- **Which names are empty.** A line of the structure has an empty tag if and only if another
blank than a space or a tab stands behind its indent, or the column of its indent is reached
early, which needs columns that wrap. So a key of a line is empty if and only if that is so of a
line on its trail. Of the lines outside of quotes that are blanks and a `#` after them, those
with another blank among these take part in the structure, and no others. -/
theorem tag_exact (doc : Document) :
    (∀ i chars, doc.isStructural i = true → doc.texts[i]? = some chars →
      (doc.tag i = "" ↔ StartsWithBlank chars ∨ ReachedEarly doc.tabWidth chars)) ∧
    (∀ chars, exactIndentation doc.tabWidth.toNat chars < 2 ^ 64 →
      ¬ ReachedEarly doc.tabWidth chars) ∧
    (∀ i keys, doc.keys? i = some keys →
      ("" ∈ keys ↔ ∃ j ∈ doc.trailLines i, ∃ chars, doc.texts[j]? = some chars ∧
        (StartsWithBlank chars ∨ ReachedEarly doc.tabWidth chars))) ∧
    ∀ i blanks rest, doc.texts[i]? = some (blanks ++ '#' :: rest) →
      (∀ c ∈ blanks, isBlank c = true) → doc.openingAt i = none →
      (doc.isStructural i = true ↔ ∃ c ∈ blanks, c ≠ ' ' ∧ c ≠ '\t') := by
  refine ⟨fun i chars hi h => tag_eq_empty_iff hi h,
    fun chars hfits => not_reachedEarly_of_fits doc.tabWidth_pos hfits, fun i keys hkeys => ?_,
    fun i blanks rest h hblank hopening => isStructural_iff_of_hash h hblank hopening⟩
  have hi := isStructural_of_keys? hkeys
  rw [keys?_eq_some hi, Option.some.injEq] at hkeys
  rw [← hkeys, List.mem_map]
  refine exists_congr fun j => and_congr_right fun hj => ?_
  have hs := isStructural_of_mem_trailLines hi hj
  obtain ⟨chars, hchars⟩ := exists_text_of_isStructural hs
  rw [tag_eq_empty_iff hs hchars]
  simp [hchars]

/-- A no-break space behind the indent of a key, and one in front of a comment. -/
theorem tag_exact_no_break_space :
    let doc := ofText "a:\n \u00a0b: 1\n\u00a0# c\n".toList 8
    (doc.isStructural 1 = true ∧ doc.texts[1]? = some " \u00a0b: 1".toList ∧ doc.tag 1 = "") ∧
      (exactIndentation doc.tabWidth.toNat " \u00a0b: 1".toList < 2 ^ 64 ∧
        ¬ ReachedEarly doc.tabWidth " \u00a0b: 1".toList) ∧
      (∃ keys, doc.keys? 1 = some keys ∧ "" ∈ keys) ∧
      (doc.texts[2]? = some "\u00a0# c".toList ∧ doc.openingAt 2 = none ∧
        doc.isStructural 2 = true) := by
  intro doc
  have hi : doc.isStructural 1 = true := by decide
  have htext : doc.texts[1]? = some " \u00a0b: 1".toList := by decide
  have hblank : StartsWithBlank " \u00a0b: 1".toList :=
    ⟨[' '], '\u00a0', "b: 1".toList, by decide, List.forall_mem_singleton.2 (.inl rfl),
      by decide, by decide, by decide⟩
  have hfits : exactIndentation doc.tabWidth.toNat " \u00a0b: 1".toList < 2 ^ 64 := by decide
  have hlast : 1 ∈ doc.trailLines 1 := List.mem_append_right _ (List.mem_singleton_self 1)
  have hhash : doc.texts[2]? = some (['\u00a0'] ++ '#' :: " c".toList) := by decide
  have hblanks : ∀ c ∈ ['\u00a0'], isBlank c = true := List.forall_mem_singleton.2 (by decide)
  obtain ⟨htag, hearly, hkey, hrole⟩ := tag_exact doc
  exact ⟨⟨hi, htext, (htag 1 _ hi htext).2 (.inl hblank)⟩, ⟨hfits, hearly _ hfits⟩,
    ⟨_, keys?_eq_some hi,
      (hkey 1 _ (keys?_eq_some hi)).2 ⟨1, hlast, _, htext, .inl hblank⟩⟩, hhash, by decide,
    (hrole 2 ['\u00a0'] _ hhash hblanks (by decide)).2 ⟨'\u00a0', by decide⟩⟩

/-- **Lines of the structure may have no name**, and a comment be one of them. -/
theorem not_forall_tag_ne_empty :
    (¬ ∀ (doc : Document) (i : Nat), doc.isStructural i = true → doc.tag i ≠ "") ∧
    ¬ ∀ (doc : Document) (i : Nat) (blanks rest : List Char),
      doc.texts[i]? = some (blanks ++ '#' :: rest) → (∀ c ∈ blanks, isBlank c = true) →
        doc.openingAt i = none → doc.isStructural i = false := by
  constructor
  · intro h
    exact h (ofText "\u00a0# c".toList 8) 0 (by decide) (by decide)
  · intro h
    have hblanks : ∀ c ∈ ['\u00a0'], isBlank c = true := List.forall_mem_singleton.2 (by decide)
    have hstructural := h (ofText "\u00a0# c".toList 8) 0 ['\u00a0'] " c".toList (by decide)
      hblanks (by decide)
    exact absurd hstructural (by decide)

end Document

end Breadcrumb
