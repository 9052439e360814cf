import Breadcrumb.KeyPath
import Mathlib.Tactic.Common

/-!
# Separators that can be told apart

A separator may overlap itself: `::` starts inside `:::` at two places. What it
overlaps itself with are its borders, and a separator without borders and
without backslashes is unambiguous.

* `separates_iff`: a text is cut where it starts with the separator.
* `Unambiguous.eq_nil_of_overlap`: an unambiguous separator never starts inside
  another occurrence of itself.
* `unambiguous_singleton`: one character is unambiguous unless it is a backslash.
-/

namespace Breadcrumb.KeyPath

/-- A border of a text is a part of it, neither empty nor the whole, that the text
both starts and ends with. -/
def IsBorder (border text : List Char) : Prop :=
  border ≠ [] ∧ border ≠ text ∧ border <+: text ∧ border <:+ text

/-- A separator is unambiguous if it holds no backslash and has no border. -/
structure Unambiguous (separator : List Char) : Prop where
  backslash_not_mem : '\\' ∉ separator
  not_border : ∀ border, ¬ IsBorder border separator

/-- Borders are found by comparing beginnings and ends of one length. -/
theorem exists_border_iff {text : List Char} :
    (∃ border, IsBorder border text) ↔
      ∃ n, n < text.length ∧ 0 < n ∧ text.take n = text.drop (text.length - n) := by
  constructor
  · rintro ⟨border, hne, hproper, hstart, hend⟩
    refine ⟨border.length, ?_, List.length_pos_iff.2 hne, ?_⟩
    · have hle := hstart.length_le
      have : border.length ≠ text.length := fun h => hproper (hstart.eq_of_length h)
      omega
    · rw [← List.prefix_iff_eq_take.1 hstart, ← List.suffix_iff_eq_drop.1 hend]
  · rintro ⟨n, hlt, hpos, heq⟩
    refine ⟨text.take n, ?_, ?_, List.take_prefix n text, ?_⟩
    · intro h
      have := congrArg List.length h
      simp only [List.length_take, List.length_nil] at this
      omega
    · intro h
      have := congrArg List.length h
      simp only [List.length_take] at this
      omega
    · rw [heq]
      exact List.drop_suffix _ text

theorem unambiguous_iff {separator : List Char} :
    Unambiguous separator ↔ '\\' ∉ separator ∧
      ∀ n, n < separator.length → 0 < n →
        separator.take n ≠ separator.drop (separator.length - n) := by
  constructor
  · intro h
    refine ⟨h.backslash_not_mem, fun n hlt hpos heq => ?_⟩
    obtain ⟨border, hborder⟩ := exists_border_iff.2 ⟨n, hlt, hpos, heq⟩
    exact h.not_border border hborder
  · rintro ⟨hmem, htake⟩
    refine ⟨hmem, fun border hborder => ?_⟩
    obtain ⟨n, hlt, hpos, heq⟩ := exists_border_iff.1 ⟨border, hborder⟩
    exact htake n hlt hpos heq

instance (separator : List Char) : Decidable (Unambiguous separator) :=
  decidable_of_iff _ unambiguous_iff.symm

theorem unambiguous_singleton (c : Char) : Unambiguous [c] ↔ c ≠ '\\' := by
  rw [unambiguous_iff]
  constructor
  · rintro ⟨hmem, -⟩ rfl
    exact hmem List.mem_cons_self
  · intro hc
    refine ⟨fun h => hc (List.mem_singleton.1 h).symm, fun n hlt hpos => ?_⟩
    rw [List.length_singleton] at hlt
    omega

example : Unambiguous "->".toList := by decide
example : ¬ Unambiguous "::".toList := by decide
example : ¬ Unambiguous "ab-ab".toList := by decide

/-- A text is cut where it starts with the separator. -/
theorem separates_iff {separator text : List Char} (h : separator ≠ []) :
    separates separator text = true ↔ separator <+: text := by
  unfold separates
  rw [Bool.and_eq_true, List.isPrefixOf_iff_prefix]
  simp [h]

namespace Unambiguous

variable {separator : List Char}

/-- **No overlaps.** If an end of the separator, cut off after its first characters,
is continued to the separator again, nothing of it is left. -/
theorem eq_nil_of_overlap (h : Unambiguous separator) {first last rest : List Char}
    (hsplit : separator = first ++ last) (hfirst : first ≠ []) (hlast : last <+: separator ++ rest) :
    last = [] := by
  have hlen : last.length ≤ separator.length := by rw [hsplit]; simp
  have hstart : last <+: separator :=
    List.prefix_of_prefix_length_le hlast (List.prefix_append separator rest) hlen
  have hend : last <:+ separator := ⟨first, hsplit.symm⟩
  have hproper : last ≠ separator := by
    intro heq
    rw [heq] at hsplit
    exact hfirst (List.self_eq_append_left.1 hsplit)
  by_contra hne
  exact h.not_border last ⟨hne, hproper, hstart, hend⟩

end Unambiguous

end Breadcrumb.KeyPath
