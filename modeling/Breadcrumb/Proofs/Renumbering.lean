import Breadcrumb.Proofs.Ancestry
import Breadcrumb.Query

/-!
# Documents with the same structure

What a trail leads through depends on nothing but which lines are structural, their
order, and which of them is indented less than which. A document is embedded in another
if all this is kept and, past the first line, structural lines come from structural
lines. A renumbering is an embedding that leaves out no structural line above either.
Lines that are not structural need not come from anywhere.

* `Embeds.encloses_iff`: what encloses a line is carried along.
* `Embeds.ancestors_eq`, `Embeds.trailLines_eq`: so are ancestors and trails, below those
  lines that come from nowhere.
* `trail?_eq_of_trailLines`: a trail tells of its lines, and of nothing else.
* `Renumbers.trail?_eq`, `Renumbers.keys?_eq`: without such lines trails stay, and with the
  tags kept so do the keys.
-/

namespace Breadcrumb.Document

/-- `f` carries the structural lines of `doc` into structural lines of `doc'`, in their order
and with the order of their columns; `doc'` has no other ones below any of them. -/
structure Embeds (doc doc' : Document) (f : Nat → Nat) : Prop where
  lt_iff : ∀ {i j}, f i < f j ↔ i < j
  isStructural : ∀ i, doc'.isStructural (f i) = doc.isStructural i
  exists_eq_of_lt : ∀ {i k}, f i < k → doc'.isStructural k = true → ∃ j, f j = k
  indentation_lt_iff : ∀ {i j}, doc.isStructural i = true → doc.isStructural j = true →
    (doc'.indentation (f i) < doc'.indentation (f j) ↔ doc.indentation i < doc.indentation j)

/-- `f` carries the structural lines of `doc` into those of `doc'`, in their order and
with the order of their columns. -/
structure Renumbers (doc doc' : Document) (f : Nat → Nat) : Prop extends doc.Embeds doc' f where
  exists_eq : ∀ {k}, doc'.isStructural k = true → ∃ i, f i = k
  exists_eq_of_lt := fun _ hk => exists_eq hk

variable {doc doc' : Document} {f : Nat → Nat}

/-- **What encloses a line is carried along.** -/
theorem Embeds.encloses_iff (h : doc.Embeds doc' f) {i j : Nat} (hi : doc.isStructural i = true) :
    doc'.Encloses (doc'.indentation (f i)) (f i) (f j) ↔ doc.Encloses (doc.indentation i) i j := by
  constructor
  · rintro ⟨hlt, hj, hcolumn, hbetween⟩
    rw [h.isStructural] at hj
    refine ⟨h.lt_iff.1 hlt, hj, (h.indentation_lt_iff hj hi).1 hcolumn, fun k h1 h2 h3 => ?_⟩
    have hk : doc'.isStructural (f k) = true := by rw [h.isStructural, h3]
    exact (h.indentation_lt_iff hj h3).1 (hbetween (f k) (h.lt_iff.2 h1) (h.lt_iff.2 h2) hk)
  · rintro ⟨hlt, hj, hcolumn, hbetween⟩
    have hj' : doc'.isStructural (f j) = true := by rw [h.isStructural, hj]
    refine ⟨h.lt_iff.2 hlt, hj', (h.indentation_lt_iff hj hi).2 hcolumn, fun k' h1 h2 h3 => ?_⟩
    -- a structural line between comes from one between
    obtain ⟨k, rfl⟩ := h.exists_eq_of_lt h1 h3
    rw [h.isStructural] at h3
    exact (h.indentation_lt_iff hj h3).2 (hbetween k (h.lt_iff.1 h1) (h.lt_iff.1 h2) h3)

section Above

variable (h : doc.Embeds doc' f) {i : Nat} (hi : doc.isStructural i = true) {above : List Nat}
  (habove : above.Pairwise (· > ·)) (hlt : ∀ k ∈ above, ∀ j, k < f j)
  (hmem : ∀ k, (∀ j, f j ≠ k) →
    (doc'.Encloses (doc'.indentation (f i)) (f i) k ↔ k ∈ above))

include h hi habove hlt hmem

/-- **Ancestors are carried along**, and the climb goes on to what comes from nowhere. -/
theorem Embeds.ancestors_eq :
    doc'.ancestors (doc'.indentation (f i)) (f i) =
      (doc.ancestors (doc.indentation i) i).map f ++ above := by
  refine eq_of_pairwise_gt (ancestors_pairwise _ _) ?_ fun k => ?_
  · rw [List.pairwise_append, List.pairwise_map]
    refine ⟨(ancestors_pairwise _ i).imp fun hgt => h.lt_iff.2 hgt, habove, ?_⟩
    intro j hj k hk
    obtain ⟨j, -, rfl⟩ := List.mem_map.1 hj
    exact hlt k hk j
  · rw [mem_ancestors_iff, List.mem_append, List.mem_map]
    constructor
    · intro hk
      by_cases hfrom : ∃ j, f j = k
      · obtain ⟨j, rfl⟩ := hfrom
        exact Or.inl ⟨j, mem_ancestors_iff.2 ((h.encloses_iff hi).1 hk), rfl⟩
      · exact Or.inr ((hmem k (not_exists.1 hfrom)).1 hk)
    · rintro (⟨j, hj, rfl⟩ | hk)
      · exact (h.encloses_iff hi).2 (mem_ancestors_iff.1 hj)
      · have hne : ∀ j, f j ≠ k := fun j => Nat.ne_of_gt (hlt k hk j)
        exact (hmem k hne).2 hk

theorem Embeds.trailLines_eq :
    doc'.trailLines (f i) = above.reverse ++ (doc.trailLines i).map f := by
  unfold trailLines
  rw [h.ancestors_eq hi habove hlt hmem, List.reverse_append, List.map_append, List.map_reverse,
    List.map_singleton, List.append_assoc]

end Above

/-- A trail tells of its lines, and so of what they were before. -/
theorem trail?_eq_of_trailLines {i i' : Nat} {above : List Nat} {g : Crumb → Crumb}
    (hsame : doc'.isStructural i' = doc.isStructural i)
    (hlines : doc.isStructural i = true →
      doc'.trailLines i' = above ++ (doc.trailLines i).map f)
    (hcrumb : ∀ j, doc.isStructural j = true → doc'.crumb (f j) = g (doc.crumb j)) :
    doc'.trail? i' = (doc.trail? i).map fun trail => above.map doc'.crumb ++ trail.map g := by
  cases hi : doc.isStructural i with
  | false => rw [trail?_eq_none hi, trail?_eq_none (hsame.trans hi), Option.map_none]
  | true =>
    rw [trail?_eq_some hi, trail?_eq_some (hsame.trans hi), hlines hi, Option.map_some,
      List.map_append, List.map_map, List.map_map]
    congr 2
    refine List.map_congr_left fun j hj => ?_
    exact hcrumb j (isStructural_of_mem_trailLines hi hj)

namespace Renumbers

variable (h : doc.Renumbers doc' f)

include h

theorem trailLines_eq {i : Nat} (hi : doc.isStructural i = true) :
    doc'.trailLines (f i) = (doc.trailLines i).map f := by
  refine h.toEmbeds.trailLines_eq hi List.Pairwise.nil (fun k hk => ?_) fun k hne => ?_
  · cases hk
  · refine ⟨fun hk => ?_, fun hk => by cases hk⟩
    obtain ⟨j, hj⟩ := h.exists_eq hk.structural
    exact absurd hj (hne j)

/-- **Trails are carried along**, if each of their lines is. -/
theorem trail?_eq {g : Crumb → Crumb} {i : Nat}
    (hcrumb : ∀ j, doc.isStructural j = true → doc'.crumb (f j) = g (doc.crumb j)) :
    doc'.trail? (f i) = (doc.trail? i).map fun trail => trail.map g := by
  have hlines : doc.isStructural i = true →
      doc'.trailLines (f i) = [] ++ (doc.trailLines i).map f := fun hi => h.trailLines_eq hi
  exact trail?_eq_of_trailLines (h.isStructural i) hlines hcrumb

/-- **Keys are carried along**, if the tags are kept. -/
theorem keys?_eq {i : Nat}
    (htag : ∀ j, doc.isStructural j = true → doc'.tag (f j) = doc.tag j) :
    doc'.keys? (f i) = doc.keys? i := by
  unfold keys?
  cases hi : doc.isStructural i with
  | false => rw [trail?_eq_none hi, trail?_eq_none (by rw [h.isStructural, hi])]
  | true =>
    have hi' : doc'.isStructural (f i) = true := by rw [h.isStructural, hi]
    rw [trail?_eq_some hi, trail?_eq_some hi', h.trailLines_eq hi, Option.map_some, Option.map_some,
      List.map_map, List.map_map, List.map_map]
    congr 1
    refine List.map_congr_left fun j hj => ?_
    exact htag j (isStructural_of_mem_trailLines hi hj)

end Renumbers

end Breadcrumb.Document
