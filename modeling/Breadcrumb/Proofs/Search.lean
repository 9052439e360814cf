import Breadcrumb.Proofs.Walk

/-!
# The look at the tag before a search

A search for the lines with a path could go to every line and read its keys there. The
search that is made looks at the tag of a line first, and goes to the line only if that
tag is the last of the wanted keys. No line is lost by it.

* `search_comesBack`: what the search without the look finds.
* `locate_eq_search`: the look changes nothing.
-/

namespace Breadcrumb.Walk

open Cursor

/-- Goes to the line at `i` to see if its keys are the wanted ones. -/
def hasKeysThere (wanted : List String) (i : Nat) : Walk Bool := do
  goto i
  return (← keys) = some wanted

/-- The search without a look at the tags: goes to every line. -/
def search (separator path : String) : Walk (List Nat) := excursion do
  let lines := List.range (← get).document.lines.size
  lines.filterM (hasKeysThere (KeyPath.split separator path))

variable {cursor : Cursor}

theorem hasKeysThere_comesTo (wanted : List String) {i : Nat}
    (hi : i < cursor.document.lines.size) :
    (hasKeysThere wanted i).ComesTo cursor (decide (cursor.document.keys? i = some wanted)) := by
  have hkeys := (keys_comesBack hi).map fun found => decide (found = some wanted)
  exact .goto hkeys rfl

/-- **The plain search** finds the lines with the keys of the path. -/
theorem search_comesBack (separator path : String) (kind : Point → Prop) :
    (search separator path).ComesBack cursor kind
      ((List.range cursor.document.lines.size).filter fun i =>
        cursor.document.keys? i = some (KeyPath.split separator path)) := by
  have hfound : ((List.range cursor.document.lines.size).filterM
      (hasKeysThere (KeyPath.split separator path))).ComesTo cursor _ :=
    .filterM fun i hi => hasKeysThere_comesTo _ (List.mem_range.1 hi)
  refine (hfound.congr fun point => ?_).excursion kind
  rw [bind_eq get_eq]
  rfl

/-- **The look at the tag changes nothing.** For any separator and path, and from any point,
the search finds what the plain search finds and puts the point back. Those are, each once
and from the top, the structural lines whose keys, read there, are the keys of the path. The
last of these keys is the tag of each line found, read from any point, so the look drops
none; and a blank line or a comment is never found, whatever its tag. Nothing of that can be
held up but by a count, in checked words and in a document that has too few of them. -/
theorem locate_eq_search (separator path : String) (cursor : Cursor) :
    let doc := cursor.document
    let wanted := KeyPath.split separator path
    ∃ lines, (locate separator path).Yields cursor lines ∧
      (search separator path).Yields cursor lines ∧
      lines.Pairwise (· < ·) ∧
      (∀ i, i ∈ lines ↔ doc.isStructural i = true ∧ doc.keys? i = some wanted) ∧
      (∀ i < doc.lines.size, keys.Yields (cursor.goto i) (doc.keys? i)) ∧
      (∀ i ∈ lines, ∀ point, (tag i).Yields (cursor.place point) (doc.tag i) ∧
        wanted.getLast? = some (doc.tag i)) ∧
      ∀ i, doc.isStructural i = false → i ∉ lines := by
  intro doc wanted
  have hmem : ∀ i, i ∈ doc.locate separator path ↔ doc.keys? i = some wanted := by
    intro i
    rw [Document.locate_eq_filter, List.mem_filter, List.mem_range, decide_eq_true_eq]
    refine ⟨fun h => h.2, fun h => ⟨?_, h⟩⟩
    exact Document.lt_size_of_isStructural (Document.isStructural_of_keys? h)
  refine ⟨doc.locate separator path, (locate_comesBack separator path fun _ => True).yields trivial,
    ?_, ?_, fun i => ?_, fun i hi => ?_, fun i hi point => ⟨?_, ?_⟩, fun i hs hi => ?_⟩
  · rw [Document.locate_eq_filter]
    exact (search_comesBack separator path fun _ => True).yields trivial
  · rw [Document.locate_eq_filter]
    exact List.pairwise_lt_range.filter _
  · rw [hmem]
    exact ⟨fun h => ⟨Document.isStructural_of_keys? h, h⟩, fun h => h.2⟩
  · exact (@keys_comesBack (cursor.goto i) i hi).yields rfl
  · have hlt := Document.lt_size_of_isStructural (Document.isStructural_of_keys? ((hmem i).1 hi))
    exact (@tag_comesBack (cursor.place point) i hlt fun _ => True).yields trivial
  · exact of_decide_eq_true (Document.mayHaveKeys_of_keys? ((hmem i).1 hi))
  · have := Document.isStructural_of_keys? ((hmem i).1 hi)
    rw [hs] at this
    cases this

end Breadcrumb.Walk
