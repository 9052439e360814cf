import Breadcrumb.Trail
import Mathlib.Tactic.Common

/-!
# Ancestors by indentation

Climbing from parent to parent finds the lines that enclose a place: structural
lines above it that are indented less than its column and less than every
structural line between.

* `previousStructural?_eq_some_iff`, `parent?_eq_some_iff`: what each search finds.
* `IsParent.encloses_iff`: one step of the climb.
* `mem_ancestors_iff`, `ancestors_pairwise`: the climb finds all that encloses, from
  the bottom to the top.
* `ancestors_trail_exact`: ancestors and trails in terms of the lines alone.
-/

namespace Breadcrumb.Document

/-- The line at `j` is the parent of the place `i` at a column: the nearest structural
line above that is indented less. -/
structure IsParent (doc : Document) (column : UInt64) (i j : Nat) : Prop where
  lt : j < i
  structural : doc.isStructural j = true
  lt_column : doc.indentation j < column
  le_between : ∀ k, j < k → k < i → doc.isStructural k = true → column ≤ doc.indentation k

/-- The line at `j` encloses the place `i` at a column: it is a structural line above,
indented less than the column and less than every structural line between. -/
structure Encloses (doc : Document) (column : UInt64) (i j : Nat) : Prop where
  lt : j < i
  structural : doc.isStructural j = true
  lt_column : doc.indentation j < column
  lt_between : ∀ k, j < k → k < i → doc.isStructural k = true →
    doc.indentation j < doc.indentation k

variable {doc : Document}

/-! ## The searches -/

theorem previousStructural?_eq_none_iff {i : Nat} :
    doc.previousStructural? i = none ↔ ∀ k < i, doc.isStructural k = false := by
  induction i with
  | zero => simp [previousStructural?]
  | succ i ih =>
    unfold previousStructural?
    by_cases h : doc.isStructural i = true
    · rw [if_pos h]
      refine ⟨fun hnone => absurd hnone (Option.some_ne_none _), fun hall => ?_⟩
      exact absurd h (Bool.eq_false_iff.1 (hall i (Nat.lt_succ_self i)))
    · rw [if_neg h, ih]
      constructor
      · intro hall k hk
        rcases Nat.lt_succ_iff_lt_or_eq.1 hk with hk | rfl
        · exact hall k hk
        · exact Bool.eq_false_iff.2 h
      · intro hall k hk
        exact hall k (Nat.lt_succ_of_lt hk)

/-- **The nearest structural line above.** -/
theorem previousStructural?_eq_some_iff {i j : Nat} :
    doc.previousStructural? i = some j ↔
      j < i ∧ doc.isStructural j = true ∧ ∀ k, j < k → k < i → doc.isStructural k = false := by
  induction i with
  | zero => simp [previousStructural?]
  | succ i ih =>
    unfold previousStructural?
    by_cases h : doc.isStructural i = true
    · rw [if_pos h, Option.some.injEq]
      constructor
      · rintro rfl
        exact ⟨Nat.lt_succ_self i, h, fun k h1 h2 => absurd h1 (by omega)⟩
      · rintro ⟨hlt, -, hbetween⟩
        rcases Nat.lt_succ_iff_lt_or_eq.1 hlt with hlt | rfl
        · exact absurd h (Bool.eq_false_iff.1 (hbetween i hlt (Nat.lt_succ_self i)))
        · rfl
    · rw [if_neg h, ih]
      constructor
      · rintro ⟨hlt, hj, hbetween⟩
        refine ⟨Nat.lt_succ_of_lt hlt, hj, fun k h1 h2 => ?_⟩
        rcases Nat.lt_succ_iff_lt_or_eq.1 h2 with h2 | rfl
        · exact hbetween k h1 h2
        · exact Bool.eq_false_iff.2 h
      · rintro ⟨hlt, hj, hbetween⟩
        have hne : j ≠ i := fun heq => h (heq ▸ hj)
        exact ⟨by omega, hj, fun k h1 h2 => hbetween k h1 (Nat.lt_succ_of_lt h2)⟩

theorem parent?_eq_none_iff {column : UInt64} {i : Nat} :
    doc.parent? column i = none ↔
      ∀ k < i, doc.isStructural k = true → column ≤ doc.indentation k := by
  fun_induction doc.parent? column i with
  | case1 i hp =>
    refine ⟨fun _ k hk hk' => ?_, fun _ => rfl⟩
    exact absurd hk' (Bool.eq_false_iff.1 (previousStructural?_eq_none_iff.1 hp k hk))
  | case2 i p hp hlt =>
    obtain ⟨hpi, hps, -⟩ := previousStructural?_eq_some_iff.1 hp
    refine ⟨fun hnone => absurd hnone (Option.some_ne_none _), fun hall => ?_⟩
    exact absurd hlt (UInt64.not_lt.2 (hall p hpi hps))
  | case3 i p hp hle ih =>
    obtain ⟨hpi, -, hbetween⟩ := previousStructural?_eq_some_iff.1 hp
    rw [ih]
    constructor
    · intro hall k hk hk'
      -- the candidate is skipped, and nothing after it is structural
      rcases Nat.lt_trichotomy k p with hkp | rfl | hkp
      · exact hall k hkp hk'
      · exact UInt64.not_lt.1 hle
      · exact absurd hk' (Bool.eq_false_iff.1 (hbetween k hkp hk))
    · intro hall k hk hk'
      exact hall k (Nat.lt_trans hk hpi) hk'

theorem isParent_of_parent? {column : UInt64} {i j : Nat} (h : doc.parent? column i = some j) :
    doc.IsParent column i j := by
  fun_induction doc.parent? column i with
  | case1 => cases h
  | case2 i p hp hlt =>
    obtain ⟨hpi, hps, hbetween⟩ := previousStructural?_eq_some_iff.1 hp
    obtain rfl := Option.some.inj h
    refine ⟨hpi, hps, hlt, fun k h1 h2 h3 => ?_⟩
    exact absurd h3 (Bool.eq_false_iff.1 (hbetween k h1 h2))
  | case3 i p hp hle ih =>
    -- as far as `p` by induction, at `p` by the test, and after `p` nothing is structural
    obtain ⟨hpi, -, hbetween⟩ := previousStructural?_eq_some_iff.1 hp
    obtain ⟨hlt, hj, hcolumn, hrest⟩ := ih h
    refine ⟨Nat.lt_trans hlt hpi, hj, hcolumn, fun k h1 h2 h3 => ?_⟩
    rcases Nat.lt_trichotomy k p with hk | rfl | hk
    · exact hrest k h1 hk h3
    · exact UInt64.not_lt.1 hle
    · exact absurd h3 (Bool.eq_false_iff.1 (hbetween k hk h2))

theorem IsParent.unique {column : UInt64} {i j k : Nat} (hj : doc.IsParent column i j)
    (hk : doc.IsParent column i k) : j = k := by
  rcases Nat.lt_trichotomy j k with h | h | h
  · exact absurd hk.lt_column (UInt64.not_lt.2 (hj.le_between k h hk.lt hk.structural))
  · exact h
  · exact absurd hj.lt_column (UInt64.not_lt.2 (hk.le_between j h hj.lt hj.structural))

/-- **The nearest structural line above that is indented less.** -/
theorem parent?_eq_some_iff {column : UInt64} {i j : Nat} :
    doc.parent? column i = some j ↔ doc.IsParent column i j := by
  refine ⟨isParent_of_parent?, fun h => ?_⟩
  cases hp : doc.parent? column i with
  | none =>
    have := parent?_eq_none_iff.1 hp j h.lt h.structural
    exact absurd h.lt_column (UInt64.not_lt.2 this)
  | some k => rw [(isParent_of_parent? hp).unique h]

/-! ## The climb -/

/-- **One step up.** What encloses a place is its parent and what encloses the parent. -/
theorem IsParent.encloses_iff {column : UInt64} {i p : Nat} (hp : doc.IsParent column i p) {j : Nat} :
    doc.Encloses column i j ↔ j = p ∨ doc.Encloses (doc.indentation p) p j := by
  constructor
  · intro h
    rcases Nat.lt_trichotomy j p with hj | hj | hj
    · refine Or.inr ⟨hj, h.structural, h.lt_between p hj hp.lt hp.structural, fun k h1 h2 h3 => ?_⟩
      exact h.lt_between k h1 (Nat.lt_trans h2 hp.lt) h3
    · exact Or.inl hj
    · -- between the parent and the place all is indented as far as the column
      exact absurd h.lt_column (UInt64.not_lt.2 (hp.le_between j hj h.lt h.structural))
  · rintro (rfl | h)
    · refine ⟨hp.lt, hp.structural, hp.lt_column, fun k h1 h2 h3 => ?_⟩
      exact UInt64.lt_of_lt_of_le hp.lt_column (hp.le_between k h1 h2 h3)
    · -- what is indented less than the parent is so up to the place
      have hcolumn := UInt64.lt_trans h.lt_column hp.lt_column
      refine ⟨Nat.lt_trans h.lt hp.lt, h.structural, hcolumn, fun k h1 h2 h3 => ?_⟩
      rcases Nat.lt_trichotomy k p with hk | rfl | hk
      · exact h.lt_between k h1 hk h3
      · exact h.lt_column
      · exact UInt64.lt_of_lt_of_le hcolumn (hp.le_between k hk h2 h3)

/-- **The climb misses nothing** and finds nothing else. -/
theorem mem_ancestors_iff {column : UInt64} {i j : Nat} :
    j ∈ doc.ancestors column i ↔ doc.Encloses column i j := by
  fun_induction doc.ancestors column i with
  | case1 i =>
    refine ⟨fun h => absurd h List.not_mem_nil, fun h => ?_⟩
    exact absurd h.lt_column UInt64.not_lt_zero
  | case2 column i _ hp =>
    refine ⟨fun h => absurd h List.not_mem_nil, fun h => ?_⟩
    have := parent?_eq_none_iff.1 hp j h.lt h.structural
    exact absurd h.lt_column (UInt64.not_lt.2 this)
  | case3 column i _ p hp ih =>
    rw [List.mem_cons, ih, (parent?_eq_some_iff.1 hp).encloses_iff]

/-- The climb goes up. -/
theorem ancestors_pairwise (column : UInt64) (i : Nat) :
    (doc.ancestors column i).Pairwise (· > ·) := by
  fun_induction doc.ancestors column i with
  | case1 => exact List.Pairwise.nil
  | case2 => exact List.Pairwise.nil
  | case3 column i _ p hp ih =>
    refine List.pairwise_cons.2 ⟨fun j hj => ?_, ih⟩
    exact (mem_ancestors_iff.1 hj).lt

/-- Lists that go up and have the same members are the same. -/
theorem eq_of_pairwise_gt {l l' : List Nat} (h : l.Pairwise (· > ·)) (h' : l'.Pairwise (· > ·))
    (hmem : ∀ j, j ∈ l ↔ j ∈ l') : l = l' := by
  have hperm : l.Perm l' := by
    refine (List.perm_ext_iff_of_nodup ?_ ?_).2 hmem
    · exact h.imp fun hgt => Nat.ne_of_gt hgt
    · exact h'.imp fun hgt => Nat.ne_of_gt hgt
  exact hperm.eq_of_pairwise (fun a b _ _ h1 h2 => absurd h1 (Nat.lt_asymm h2)) h h'

/-! ## Trails -/

theorem trail?_eq_none {i : Nat} (h : doc.isStructural i = false) : doc.trail? i = none := by
  unfold trail?
  rw [if_neg (Bool.eq_false_iff.1 h)]

/-- The lines of a trail: the ancestors from the top, and the line itself. -/
def trailLines (doc : Document) (i : Nat) : List Nat :=
  (doc.ancestors (doc.indentation i) i).reverse ++ [i]

theorem trail?_eq_some {i : Nat} (h : doc.isStructural i = true) :
    doc.trail? i = some ((doc.trailLines i).map doc.crumb) := by
  unfold trail?
  rw [if_pos h]
  rfl

theorem trail?_eq_none_iff {i : Nat} : doc.trail? i = none ↔ doc.isStructural i = false := by
  cases h : doc.isStructural i with
  | false => simp [trail?_eq_none h]
  | true => simp [trail?_eq_some h]

/-- The ancestors of a structural line at its own column are the structural lines above
that are indented less than all structural ones from there to the line. -/
theorem mem_trail_ancestors_iff {i j : Nat} (h : doc.isStructural i = true) :
    j ∈ doc.ancestors (doc.indentation i) i ↔
      j < i ∧ doc.isStructural j = true ∧
        ∀ k, j < k → k ≤ i → doc.isStructural k = true → doc.indentation j < doc.indentation k := by
  rw [mem_ancestors_iff]
  constructor
  · rintro ⟨hlt, hj, hcolumn, hbetween⟩
    refine ⟨hlt, hj, fun k h1 h2 h3 => ?_⟩
    rcases Nat.lt_or_eq_of_le h2 with h2 | rfl
    · exact hbetween k h1 h2 h3
    · exact hcolumn
  · rintro ⟨hlt, hj, hall⟩
    exact ⟨hlt, hj, hall i hlt (Nat.le_refl i) h, fun k h1 h2 h3 => hall k h1 (Nat.le_of_lt h2) h3⟩

theorem trailLines_pairwise_lt (i : Nat) : (doc.trailLines i).Pairwise (· < ·) := by
  unfold trailLines
  rw [List.pairwise_append, List.pairwise_reverse]
  refine ⟨ancestors_pairwise _ i, List.pairwise_singleton _ i, fun j hj k hk => ?_⟩
  rw [List.mem_reverse] at hj
  rw [List.mem_singleton.1 hk]
  exact (mem_ancestors_iff.1 hj).lt

theorem le_of_mem_trailLines {i j : Nat} (hj : j ∈ doc.trailLines i) : j ≤ i := by
  rcases List.mem_append.1 hj with hj | hj
  · exact Nat.le_of_lt (mem_ancestors_iff.1 (List.mem_reverse.1 hj)).lt
  · exact Nat.le_of_eq (List.mem_singleton.1 hj)

theorem isStructural_of_mem_trailLines {i j : Nat} (h : doc.isStructural i = true)
    (hj : j ∈ doc.trailLines i) : doc.isStructural j = true := by
  rcases List.mem_append.1 hj with hj | hj
  · exact (mem_ancestors_iff.1 (List.mem_reverse.1 hj)).structural
  · rw [List.mem_singleton.1 hj, h]

/-- **Indentation grows along a trail.** -/
theorem trailLines_pairwise_indentation {i : Nat} (h : doc.isStructural i = true) :
    (doc.trailLines i).Pairwise (fun j k => doc.indentation j < doc.indentation k) := by
  refine (trailLines_pairwise_lt i).imp_of_mem fun {j k} hj hk hjk => ?_
  have hki := le_of_mem_trailLines hk
  have hks := isStructural_of_mem_trailLines h hk
  rcases List.mem_append.1 hj with hj | hj
  · exact ((mem_trail_ancestors_iff h).1 (List.mem_reverse.1 hj)).2.2 k hjk hki hks
  · -- the last line has none after it
    rw [List.mem_singleton.1 hj] at hjk
    omega

/-- **Ancestors and trails are exact.** The ancestors of a place are the lines that
enclose it, from the bottom to the top. The trail of a structural line goes down
through the structural lines indented less than all structural ones from there to the
line, always further in, and ends with the line; other lines have none. -/
theorem ancestors_trail_exact (doc : Document) :
    (∀ column i, (doc.ancestors column i).Pairwise (· > ·) ∧
      ∀ j, j ∈ doc.ancestors column i ↔ doc.Encloses column i j) ∧
    ∀ i, (doc.isStructural i = false → doc.trail? i = none) ∧
      (doc.isStructural i = true → ∃ above : List Nat,
        doc.trail? i = some ((above ++ [i]).map doc.crumb) ∧
        (above ++ [i]).Pairwise (· < ·) ∧
        (above ++ [i]).Pairwise (fun j k => doc.indentation j < doc.indentation k) ∧
        ∀ j, j ∈ above ↔ j < i ∧ doc.isStructural j = true ∧
          ∀ k, j < k → k ≤ i → doc.isStructural k = true →
            doc.indentation j < doc.indentation k) := by
  refine ⟨fun column i => ⟨ancestors_pairwise column i, fun _ => mem_ancestors_iff⟩, fun i => ?_⟩
  refine ⟨trail?_eq_none, fun h => ⟨(doc.ancestors (doc.indentation i) i).reverse, ?_⟩⟩
  refine ⟨trail?_eq_some h, trailLines_pairwise_lt i, trailLines_pairwise_indentation h, fun j => ?_⟩
  rw [List.mem_reverse, mem_trail_ancestors_iff h]

end Breadcrumb.Document
