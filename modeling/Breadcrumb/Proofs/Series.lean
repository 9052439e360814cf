/-!
# Series of items

Items written one after the other, with nothing between them and no count in front. If a reader
tells from the text where the first item ends, the whole series can be read back, item by item,
until the text ends; and then two series are written alike only if they are the same.

* `ReadsBack`: a reader that takes what a writer writes, and nothing else.
* `ReadsBack.readSeries?_eq_some_iff`: the items are read back just from the text written for them.
* `ReadsBack.flatMap_eq_iff`: so different items make different texts.
-/

namespace Breadcrumb

variable {α : Type}

/-! ## Reading -/

/-- The items that a text is made of. A reader tells the first item of a text and what follows
it. Where it finds none, or does not get on, the text is not made of items. -/
def readSeries? (read? : List Char → Option (α × List Char)) (text : List Char) :
    Option (List α) :=
  if text = [] then some []
  else match read? text with
    | none => none
    | some (item, rest) =>
      if rest.length < text.length then (readSeries? read? rest).map (item :: ·) else none
termination_by text.length

/-- A reader that puts one character more in front of what another one finds. -/
theorem map_cons_eq_some {c : Char} {read : Option (List Char × List Char)}
    {found rest : List Char} :
    read.map (Prod.map (c :: ·) id) = some (found, rest) ↔
      ∃ more, found = c :: more ∧ read = some (more, rest) := by
  cases read with
  | none => simp
  | some pair =>
    obtain ⟨more, left⟩ := pair
    simp only [Option.map_some, Prod.map, id, Option.some.injEq, Prod.mk.injEq]
    constructor
    · rintro ⟨rfl, rfl⟩
      exact ⟨more, rfl, rfl, rfl⟩
    · rintro ⟨_, rfl, rfl, rfl⟩
      exact ⟨rfl, rfl⟩

/-! ## Reading back -/

/-- The reader finds an item at the start of a text if and only if it is written there and
legible, whatever follows. No item is written as nothing. -/
structure ReadsBack (read? : List Char → Option (α × List Char)) (write : α → List Char)
    (Legible : α → Prop) : Prop where
  read?_eq_some_iff : ∀ {text item rest},
    read? text = some (item, rest) ↔ text = write item ++ rest ∧ Legible item
  write_ne_nil : ∀ item, write item ≠ []

namespace ReadsBack

variable {read? : List Char → Option (α × List Char)} {write : α → List Char} {Legible : α → Prop}
  (h : ReadsBack read? write Legible)

include h

theorem eq_flatMap_of_readSeries? {text : List Char} {items : List α}
    (hread : readSeries? read? text = some items) :
    text = items.flatMap write ∧ ∀ item ∈ items, Legible item := by
  fun_induction readSeries? read? text generalizing items with
  | case1 =>
    cases hread
    simp
  | case2 => cases hread
  | case3 text _ item rest hfirst _ ih =>
    obtain ⟨others, hothers, rfl⟩ := Option.map_eq_some_iff.1 hread
    obtain ⟨htext, hitem⟩ := h.read?_eq_some_iff.1 hfirst
    obtain ⟨hrest, hlegible⟩ := ih hothers
    exact ⟨by rw [htext, hrest, List.flatMap_cons], List.forall_mem_cons.2 ⟨hitem, hlegible⟩⟩
  | case4 => cases hread

theorem readSeries?_flatMap {items : List α} (hitems : ∀ item ∈ items, Legible item) :
    readSeries? read? (items.flatMap write) = some items := by
  induction items with
  | nil =>
    rw [List.flatMap_nil, readSeries?, if_pos rfl]
  | cons item items ih =>
    obtain ⟨hitem, hitems⟩ := List.forall_mem_cons.1 hitems
    have hne := h.write_ne_nil item
    have hfirst : read? (write item ++ items.flatMap write) = some (item, items.flatMap write) :=
      h.read?_eq_some_iff.2 ⟨rfl, hitem⟩
    have hshorter : (items.flatMap write).length < (write item ++ items.flatMap write).length := by
      have hpos := List.length_pos_iff.2 hne
      rw [List.length_append]
      omega
    rw [List.flatMap_cons, readSeries?, if_neg (by simp [hne]), hfirst]
    simp only [if_pos hshorter, ih hitems, Option.map_some]

/-- **A series is read back** just from what is written for it. -/
theorem readSeries?_eq_some_iff {text : List Char} {items : List α} :
    readSeries? read? text = some items ↔
      text = items.flatMap write ∧ ∀ item ∈ items, Legible item := by
  constructor
  · exact h.eq_flatMap_of_readSeries?
  · rintro ⟨rfl, hitems⟩
    exact h.readSeries?_flatMap hitems

/-- **Different series are written differently.** -/
theorem flatMap_eq_iff {items others : List α} (hitems : ∀ item ∈ items, Legible item)
    (hothers : ∀ item ∈ others, Legible item) :
    items.flatMap write = others.flatMap write ↔ items = others := by
  refine ⟨fun heq => ?_, fun heq => by rw [heq]⟩
  have hread := h.readSeries?_flatMap hitems
  rw [heq, h.readSeries?_flatMap hothers] at hread
  exact (Option.some.inj hread).symm

end ReadsBack

end Breadcrumb
