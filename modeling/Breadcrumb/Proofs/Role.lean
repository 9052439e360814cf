import Breadcrumb.Proofs.Reading
import Breadcrumb.Proofs.Walk

/-!
# What lines are

A line is blank, a comment, or takes part in the structure of the document. What it is shows
in its text and in the quoting that the lines above it end in.

* `startsWithHash_iff`: lines whose first character after the indent is `#`.
* `Line.role_eq_structural_iff`: structural is what is neither blank nor a comment.
* `Document.openingAt_eq_none`: lines that leave no scalar open keep the document outside of
  quotes.
* `Document.role_exact`: what a cursor anywhere on a line finds out about it.
-/

namespace Breadcrumb

open Text

/-- Spaces and tabs with a `#` after them, and any text. -/
def StartsWithHash (chars : List Char) : Prop :=
  ∃ blanks rest, chars = blanks ++ '#' :: rest ∧ ∀ c ∈ blanks, c = ' ' ∨ c = '\t'

theorem startsWithHash_iff {chars : List Char} :
    StartsWithHash chars ↔ (unindent chars).head? = some '#' := by
  constructor
  · rintro ⟨blanks, rest, rfl, hblanks⟩
    have hindents : ∀ c ∈ blanks, indents c = true := fun c hc => indents_iff.2 (hblanks c hc)
    rw [unindent_append hindents]
    rfl
  · intro hhead
    obtain ⟨rest, hrest⟩ := List.head?_eq_some_iff.1 hhead
    exact ⟨indent chars, rest, by rw [← hrest, indent_append_unindent],
      fun c hc => indents_iff.1 (indents_of_mem_indent hc)⟩

theorem not_blank_of_startsWithHash {chars : List Char} (h : StartsWithHash chars) :
    ¬ ∀ c ∈ chars, isBlank c = true := by
  obtain ⟨blanks, rest, rfl, -⟩ := h
  intro hblank
  have hhash : isBlank '#' = true := hblank '#' (by simp)
  exact absurd hhash (by decide)

theorem Line.role_eq_structural_iff {line : Line} :
    line.role = .structural ↔ line.role ≠ .blank ∧ line.role ≠ .comment := by
  cases line.role <;> simp

namespace Document

variable {doc : Document} {i : Nat}

/-- The role of a line, read by a cursor at any offset of it. -/
theorem walk_role_eq {chars : List Char} (h : doc.texts[i]? = some chars) (offset : Nat)
    (arithmetic : Arithmetic) :
    Walk.role ⟨doc, ⟨i, offset⟩, arithmetic⟩ =
      some ((Line.mk chars (doc.openingAt i)).role, ⟨doc, ⟨i, offset⟩, arithmetic⟩) := by
  apply Walk.role_eq
  rw [Cursor.line?, line?_eq, h, Option.map_some]

/-- A line of a document is a comment if the lines above it end outside of quotes and it starts
with `#` after its indent. -/
theorem role_eq_comment_iff {chars : List Char} :
    (Line.mk chars (doc.openingAt i)).role = .comment ↔ (¬ ∀ c ∈ chars, isBlank c = true) ∧
      (doc.texts.take i).foldl quotingAfter none = none ∧ StartsWithHash chars := by
  rw [Line.role_eq_comment_iff, ← startsWithHash_iff, openingAt]
  exact ⟨fun h => ⟨not_blank_of_startsWithHash h.2, h⟩, fun h => h.2⟩

/-- A scalar that lasts from the line at `a`, where it opens, to the line at `b`, past which
the document is outside of quotes. -/
structure Spans (doc : Document) (a b : Nat) : Prop where
  inside : ∀ i, a < i → i ≤ b → doc.openingAt i ≠ none
  closed : doc.openingAt (b + 1) = none

/-- Lines that leave no scalar open keep the document outside of quotes. -/
theorem openingAt_eq_none {b : Nat} (hb : doc.openingAt b = none)
    (h : ∀ k, b ≤ k → k < i → ∀ chars, doc.texts[k]? = some chars → quotingAfter none chars = none)
    (hbi : b ≤ i) : doc.openingAt i = none := by
  induction i with
  | zero =>
    obtain rfl : b = 0 := by omega
    exact hb
  | succ i ih =>
    rcases Nat.eq_or_lt_of_le hbi with rfl | hlt
    · exact hb
    · have hi : doc.openingAt i = none := ih (fun k hk hki => h k hk (by omega)) (by omega)
      rw [openingAt_succ, hi]
      cases htext : doc.texts[i]? with
      | none => rfl
      | some chars => exact h i (by omega) (by omega) chars htext

/-- **What a line is.** From any point on it, a line is found to be blank if and only if all
of its characters are. Else it is a comment if and only if the lines above it, each read from
the quoting the one before it ends in, end outside of quotes, and its first character after
spaces and tabs is `#`. Else it is structural. So a line that starts with `#` is structural
inside of a scalar that runs on over any number of lines, and a comment past the scalar, so
long as the lines from there leave no other scalar open. Nothing is counted to find that out, so
no count can hold it up. -/
theorem role_exact (doc : Document) (arithmetic : Arithmetic) :
    (∀ i chars, doc.texts[i]? = some chars → ∀ offset, ∃ role,
      Walk.role ⟨doc, ⟨i, offset⟩, arithmetic⟩ = some (role, ⟨doc, ⟨i, offset⟩, arithmetic⟩) ∧
      (role = .blank ↔ ∀ c ∈ chars, isBlank c = true) ∧
      (role = .comment ↔ (¬ ∀ c ∈ chars, isBlank c = true) ∧
        (doc.texts.take i).foldl quotingAfter none = none ∧ StartsWithHash chars) ∧
      (role = .structural ↔ (¬ ∀ c ∈ chars, isBlank c = true) ∧
        ¬ ((doc.texts.take i).foldl quotingAfter none = none ∧ StartsWithHash chars))) ∧
    ∀ a b, doc.Spans a b → ∀ i chars, doc.texts[i]? = some chars → StartsWithHash chars →
      ∀ offset,
        (a < i → i ≤ b →
          Walk.role ⟨doc, ⟨i, offset⟩, arithmetic⟩ =
            some (.structural, ⟨doc, ⟨i, offset⟩, arithmetic⟩)) ∧
        (b < i → (∀ k, b < k → k < i → ∀ between, doc.texts[k]? = some between →
            quotingAfter none between = none) →
          Walk.role ⟨doc, ⟨i, offset⟩, arithmetic⟩ =
            some (.comment, ⟨doc, ⟨i, offset⟩, arithmetic⟩)) := by
  refine ⟨fun i chars htext offset => ?_, fun a b hspans i chars htext hhash offset => ?_⟩
  · refine ⟨_, walk_role_eq htext offset arithmetic, Line.role_eq_blank_iff, role_eq_comment_iff, ?_⟩
    rw [Line.role_eq_structural_iff, Ne, Ne, Line.role_eq_blank_iff, role_eq_comment_iff]
    tauto
  · have hblank := not_blank_of_startsWithHash hhash
    refine ⟨fun hai hib => ?_, fun hbi hbetween => ?_⟩
    · have hrole : (Line.mk chars (doc.openingAt i)).role = .structural := by
        rw [Line.role_eq_structural_iff, Ne, Ne, Line.role_eq_blank_iff, role_eq_comment_iff]
        exact ⟨hblank, fun h => hspans.inside i hai hib h.2.1⟩
      rw [walk_role_eq htext, hrole]
    · have hopening : doc.openingAt i = none :=
        openingAt_eq_none hspans.closed (fun k hk hki => hbetween k hk hki) hbi
      have hrole : (Line.mk chars (doc.openingAt i)).role = .comment :=
        role_eq_comment_iff.2 ⟨hblank, hopening, hhash⟩
      rw [walk_role_eq htext, hrole]

/-- Two lines that start with `#` inside of a scalar over four lines, and one past it. -/
theorem role_exact_hash_lines :
    let doc := ofText "a: \"b\n # c\n\t# d\n e\"\nf: 1\n # g\n".toList 8
    doc.Spans 0 3 ∧
      Walk.role ⟨doc, ⟨1, 0⟩, .checked⟩ = some (.structural, ⟨doc, ⟨1, 0⟩, .checked⟩) ∧
      Walk.role ⟨doc, ⟨2, 1⟩, .checked⟩ = some (.structural, ⟨doc, ⟨2, 1⟩, .checked⟩) ∧
      Walk.role ⟨doc, ⟨5, 4⟩, .checked⟩ = some (.comment, ⟨doc, ⟨5, 4⟩, .checked⟩) := by
  intro doc
  have hinside : ∀ i, 0 < i → i ≤ 3 → doc.openingAt i ≠ none := by
    intro i hi hi3
    obtain rfl | rfl | rfl : i = 1 ∨ i = 2 ∨ i = 3 := by omega
    all_goals decide
  have hspans : doc.Spans 0 3 := ⟨hinside, by decide⟩
  have hone : StartsWithHash " # c".toList := startsWithHash_iff.2 (by decide)
  have htwo : StartsWithHash "\t# d".toList := startsWithHash_iff.2 (by decide)
  have hpast : StartsWithHash " # g".toList := startsWithHash_iff.2 (by decide)
  have hbetween : ∀ k, 3 < k → k < 5 → ∀ between, doc.texts[k]? = some between →
      quotingAfter none between = none := by
    intro k hk hk5 between htext
    obtain rfl : k = 4 := by omega
    obtain rfl : "f: 1".toList = between := Option.some.inj htext
    decide
  obtain ⟨-, hrole⟩ := role_exact doc .checked
  exact ⟨hspans, (hrole 0 3 hspans 1 _ (by decide) hone 0).1 (by decide) (by decide),
    (hrole 0 3 hspans 2 _ (by decide) htwo 1).1 (by decide) (by decide),
    (hrole 0 3 hspans 5 _ (by decide) hpast 4).2 (by decide) hbetween⟩

end Document

end Breadcrumb
