import Breadcrumb.Proofs.Ancestry
import Breadcrumb.Proofs.Reading
import Breadcrumb.Query

/-!
# What the answers about a line depend on

A structural line at column 0 has no ancestors, and it cuts off whatever stands above
it: the trail of a line below stays at it or below it. So two documents in which the
same lines follow such a line, read from the same quoting, answer alike about them,
however they begin and go on.

* `AgreeOn.line?_eq`: quoting flows down, so from equal quoting equal texts are read
  as equal lines.
* `AgreeOn.exists_trail`: a trail that stays in the stretch is found in both documents.
* `enclosedFrom_of_indentation_eq_zero`: trails do not go above a line at column 0.
* `answers_local`: so the answers are the same.
-/

namespace Breadcrumb

/-- The crumb of the line that is `n` lines further down. -/
def Crumb.down (n : Nat) (crumb : Crumb) : Crumb := { crumb with line := n + crumb.line }

namespace Document

/-- Two documents agree on a stretch of lines, of which the first is at `z` in the one and
at `z'` in the other and the last `n` lines below: they have the same texts there, start
in the same quoting and count columns alike. -/
structure AgreeOn (doc doc' : Document) (z z' n : Nat) : Prop where
  tabWidth : doc.tabWidth = doc'.tabWidth
  opening : doc.openingAt z = doc'.openingAt z'
  texts : ∀ k ≤ n, doc.texts[z + k]? = doc'.texts[z' + k]?

variable {doc doc' : Document} {z z' n : Nat}

namespace AgreeOn

variable (h : doc.AgreeOn doc' z z' n)

include h

theorem symm : doc'.AgreeOn doc z' z n :=
  ⟨h.tabWidth.symm, h.opening.symm, fun k hk => (h.texts k hk).symm⟩

/-- The quoting flows down the stretch alike. -/
theorem openingAt_eq {k : Nat} (hk : k ≤ n) : doc.openingAt (z + k) = doc'.openingAt (z' + k) := by
  induction k with
  | zero => exact h.opening
  | succ k ih =>
    rw [← Nat.add_assoc, ← Nat.add_assoc, openingAt_succ, openingAt_succ, ih (by omega),
      h.texts k (by omega)]

/-- **The lines are the same**, with the quoting that they start in. -/
theorem line?_eq {k : Nat} (hk : k ≤ n) : doc.line? (z + k) = doc'.line? (z' + k) := by
  rw [Document.line?_eq, Document.line?_eq, h.texts k hk, h.openingAt_eq hk]

theorem isStructural_eq {k : Nat} (hk : k ≤ n) :
    doc.isStructural (z + k) = doc'.isStructural (z' + k) := by
  rw [isStructural, isStructural, h.line?_eq hk]

theorem indentation_eq {k : Nat} (hk : k ≤ n) :
    doc.indentation (z + k) = doc'.indentation (z' + k) := by
  rw [indentation, indentation, h.line?_eq hk, h.tabWidth]

theorem tag_eq {k : Nat} (hk : k ≤ n) : doc.tag (z + k) = doc'.tag (z' + k) := by
  rw [tag, tag, h.line?_eq hk, h.tabWidth]

/-- What encloses a place within the stretch does so in the other document too. -/
theorem encloses {column : UInt64} {i j : Nat} (hi : i ≤ n)
    (hj : doc.Encloses column (z + i) (z + j)) : doc'.Encloses column (z' + i) (z' + j) := by
  obtain ⟨hlt, hs, hcolumn, hbetween⟩ := hj
  have hjn : j ≤ n := by omega
  rw [h.isStructural_eq hjn] at hs
  rw [h.indentation_eq hjn] at hcolumn
  refine ⟨by omega, hs, hcolumn, fun k' h1 h2 h3 => ?_⟩
  obtain ⟨k, rfl⟩ : ∃ k, k' = z' + k := ⟨k' - z', by omega⟩
  have hkn : k ≤ n := by omega
  rw [← h.isStructural_eq hkn] at h3
  rw [← h.indentation_eq hjn, ← h.indentation_eq hkn]
  exact hbetween (z + k) (by omega) (by omega) h3

end AgreeOn

/-- Nothing above `z` encloses the line at `i`. -/
def EnclosedFrom (doc : Document) (z i : Nat) : Prop :=
  ∀ j, doc.Encloses (doc.indentation i) i j → z ≤ j

/-- **A line at column 0 cuts off all above it.** -/
theorem enclosedFrom_of_indentation_eq_zero {i : Nat} (hle : z ≤ i)
    (hs : doc.isStructural z = true) (hzero : doc.indentation z = 0) : doc.EnclosedFrom z i := by
  intro j hj
  by_contra hlt
  rcases Nat.lt_or_eq_of_le hle with hzi | rfl
  · -- nothing is indented less than the line between
    have := hj.lt_between z (Nat.not_le.1 hlt) hzi hs
    rw [hzero] at this
    exact UInt64.not_lt_zero this
  · have := hj.lt_column
    rw [hzero] at this
    exact UInt64.not_lt_zero this

theorem enclosedFrom_zero (i : Nat) : doc.EnclosedFrom 0 i := fun j _ => Nat.zero_le j

namespace AgreeOn

variable (h : doc.AgreeOn doc' z z' n) (hfrom : doc.EnclosedFrom z (z + n))
  (hfrom' : doc'.EnclosedFrom z' (z' + n))

include h hfrom hfrom'

/-- **The same lines of the stretch enclose its last line.** -/
theorem ancestors_eq :
    doc'.ancestors (doc'.indentation (z' + n)) (z' + n) =
      (doc.ancestors (doc.indentation (z + n)) (z + n)).map fun j => z' + (j - z) := by
  have hcolumn := h.indentation_eq (Nat.le_refl n)
  refine eq_of_pairwise_gt (ancestors_pairwise _ _) ?_ fun j' => ?_
  · rw [List.pairwise_map]
    refine (ancestors_pairwise _ _).imp_of_mem fun {i j} hi hj hgt => ?_
    have := hfrom i (mem_ancestors_iff.1 hi)
    have := hfrom j (mem_ancestors_iff.1 hj)
    omega
  · rw [List.mem_map, mem_ancestors_iff]
    constructor
    · intro hj'
      have hz' := hfrom' j' hj'
      obtain ⟨k, rfl⟩ : ∃ k, j' = z' + k := ⟨j' - z', by omega⟩
      have hj := h.symm.encloses (Nat.le_refl n) hj'
      rw [← hcolumn] at hj
      exact ⟨z + k, mem_ancestors_iff.2 hj, by omega⟩
    · rintro ⟨j, hj, rfl⟩
      rw [mem_ancestors_iff] at hj
      obtain ⟨k, rfl⟩ : ∃ k, j = z + k := ⟨j - z, by have := hfrom j hj; omega⟩
      rw [Nat.add_sub_cancel_left, ← hcolumn]
      exact h.encloses (Nat.le_refl n) hj

/-- **One trail in both documents**, counted from where the stretch starts. -/
theorem exists_trail (hs : doc.isStructural (z + n) = true) :
    ∃ trail : List Crumb, doc.trail? (z + n) = some (trail.map (Crumb.down z)) ∧
      doc'.trail? (z' + n) = some (trail.map (Crumb.down z')) := by
  let relative (j : Nat) : Crumb := ⟨j - z, doc.indentation j, doc.tag j⟩
  have hs' : doc'.isStructural (z' + n) = true := by rw [← h.isStructural_eq (Nat.le_refl n), hs]
  have hmem : ∀ j ∈ doc.trailLines (z + n), z ≤ j := by
    intro j hj
    rcases List.mem_append.1 hj with hj | hj
    · exact hfrom j (mem_ancestors_iff.1 (List.mem_reverse.1 hj))
    · rw [List.mem_singleton.1 hj]
      exact Nat.le_add_right z n
  have hlines : doc'.trailLines (z' + n) = (doc.trailLines (z + n)).map fun j => z' + (j - z) := by
    rw [trailLines, trailLines, h.ancestors_eq hfrom hfrom', List.map_append, List.map_reverse,
      List.map_singleton, Nat.add_sub_cancel_left]
  refine ⟨(doc.trailLines (z + n)).map relative, ?_, ?_⟩
  · rw [trail?_eq_some hs, List.map_map]
    congr 1
    refine List.map_congr_left fun j hj => ?_
    have hz := hmem j hj
    rw [Function.comp_apply, Crumb.down, crumb, Nat.add_sub_cancel' hz]
  · rw [trail?_eq_some hs', hlines, List.map_map, List.map_map]
    congr 1
    refine List.map_congr_left fun j hj => ?_
    obtain ⟨k, rfl⟩ : ∃ k, j = z + k := ⟨j - z, by have := hmem j hj; omega⟩
    have hk : k ≤ n := by have := le_of_mem_trailLines hj; omega
    simp only [Function.comp_apply, Crumb.down, crumb, relative, Nat.add_sub_cancel_left,
      h.indentation_eq hk, h.tag_eq hk]

end AgreeOn

/-- The keys do not say where a trail is. -/
theorem keys?_eq_of_trail? {i i' : Nat} {trail : List Crumb}
    (h : doc.trail? i = some (trail.map (Crumb.down z)))
    (h' : doc'.trail? i' = some (trail.map (Crumb.down z'))) : doc'.keys? i' = doc.keys? i := by
  rw [keys?, keys?, h, h', Option.map_some, Option.map_some, List.map_map, List.map_map]
  rfl

/-- What stands below a line does not matter to its trail. -/
theorem trail?_eq_of_agreeOn_zero (h : doc.AgreeOn doc' 0 0 n) : doc'.trail? n = doc.trail? n := by
  have hs := h.isStructural_eq (Nat.le_refl n)
  rw [Nat.zero_add] at hs
  cases hn : doc.isStructural n with
  | false => rw [trail?_eq_none hn, trail?_eq_none (hs ▸ hn)]
  | true =>
    obtain ⟨trail, htrail, htrail'⟩ :=
      h.exists_trail (enclosedFrom_zero _) (enclosedFrom_zero _) (by rwa [Nat.zero_add])
    rw [Nat.zero_add] at htrail htrail'
    rw [htrail, htrail']

/-- **Answers about a line depend on few lines.** If two documents agree from a structural
line at column 0 down to another structural line, they give the same trail for that one,
counted from where they agree, and the same keys, path and subscript, whatever stands
above and below. And if they agree from the top down to a line, structural or not, all
that stands below does not matter to the answers about it. -/
theorem answers_local (doc doc' : Document) :
    (∀ z z' n, doc.AgreeOn doc' z z' n → doc.isStructural z = true → doc.indentation z = 0 →
      doc.isStructural (z + n) = true →
        (∃ trail : List Crumb, doc.trail? (z + n) = some (trail.map (Crumb.down z)) ∧
          doc'.trail? (z' + n) = some (trail.map (Crumb.down z'))) ∧
        doc'.keys? (z' + n) = doc.keys? (z + n) ∧
        (∀ settings, doc'.path? settings (z' + n) = doc.path? settings (z + n)) ∧
        ∀ mark, doc'.subscript? mark (z' + n) = doc.subscript? mark (z + n)) ∧
    ∀ n, doc.tabWidth = doc'.tabWidth → (∀ k ≤ n, doc.texts[k]? = doc'.texts[k]?) →
      doc'.trail? n = doc.trail? n ∧ doc'.keys? n = doc.keys? n ∧
      (∀ settings, doc'.path? settings n = doc.path? settings n) ∧
      ∀ mark, doc'.subscript? mark n = doc.subscript? mark n := by
  constructor
  · intro z z' n h hz hzero hs
    have hz' : doc'.isStructural z' = true := by
      rw [← hz]
      exact (h.isStructural_eq (Nat.zero_le n)).symm
    have hzero' : doc'.indentation z' = 0 := by
      rw [← hzero]
      exact (h.indentation_eq (Nat.zero_le n)).symm
    obtain ⟨trail, htrail, htrail'⟩ := h.exists_trail
      (enclosedFrom_of_indentation_eq_zero (Nat.le_add_right z n) hz hzero)
      (enclosedFrom_of_indentation_eq_zero (Nat.le_add_right z' n) hz' hzero') hs
    have hkeys := keys?_eq_of_trail? htrail htrail'
    exact ⟨⟨trail, htrail, htrail'⟩, hkeys, path?_eq_of_keys? hkeys, subscript?_eq_of_keys? hkeys⟩
  · intro n htab htexts
    have h : doc.AgreeOn doc' 0 0 n :=
      ⟨htab, rfl, fun k hk => by rw [Nat.zero_add, htexts k hk]⟩
    have htrail := trail?_eq_of_agreeOn_zero h
    have hkeys : doc'.keys? n = doc.keys? n := by rw [keys?, keys?, htrail]
    exact ⟨htrail, hkeys, path?_eq_of_keys? hkeys, subscript?_eq_of_keys? hkeys⟩

/-- An entry below `b` in three documents: one starts with a scalar over two lines, one
with a comment, and one goes on differently below the entry, with an open scalar. -/
theorem answers_local_entry :
    let doc := ofText "x: 'open\n  a'\nb:\n  c: \"d\n e\"\n  f: 1\ng: 2\n".toList 8
    let above := ofText "# c\nb:\n  c: \"d\n e\"\n  f: 1\n".toList 8
    let below := ofText "x: 'open\n  a'\nb:\n  c: \"d\n e\"\n  f: 1\n'h\n  i:\n".toList 8
    (doc.AgreeOn above 2 1 3 ∧ doc.isStructural 2 = true ∧ doc.indentation 2 = 0 ∧
        doc.isStructural (2 + 3) = true ∧
        (∃ trail : List Crumb, doc.trail? (2 + 3) = some (trail.map (Crumb.down 2)) ∧
          above.trail? (1 + 3) = some (trail.map (Crumb.down 1))) ∧
        above.keys? (1 + 3) = doc.keys? (2 + 3)) ∧
      doc.tabWidth = below.tabWidth ∧ (∀ k ≤ 5, doc.texts[k]? = below.texts[k]?) ∧
        below.trail? 5 = doc.trail? 5 := by
  intro doc above below
  have hagree : doc.AgreeOn above 2 1 3 := ⟨by decide, by decide, by decide⟩
  have hz : doc.isStructural 2 = true := by decide
  have hzero : doc.indentation 2 = 0 := by decide
  have hs : doc.isStructural (2 + 3) = true := by decide
  have htab : doc.tabWidth = below.tabWidth := by decide
  have htexts : ∀ k ≤ 5, doc.texts[k]? = below.texts[k]? := by decide
  obtain ⟨htrail, hkeys, -⟩ := (answers_local doc above).1 2 1 3 hagree hz hzero hs
  have hbelow := ((answers_local doc below).2 5 htab htexts).1
  exact ⟨⟨hagree, hz, hzero, hs, htrail, hkeys⟩, htab, htexts, hbelow⟩

end Document

end Breadcrumb
