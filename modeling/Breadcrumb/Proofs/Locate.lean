import Breadcrumb.Proofs.Ancestry
import Breadcrumb.Proofs.RoundTrip
import Breadcrumb.Query

/-!
# Finding lines by their paths

The lines found for a path are the structural lines whose keys are those of the
path. With escaped keys and an unambiguous separator a path stands for one list of
keys, so the lines found for the path of a line are all that share its keys.

* `keys?_eq_some`: the keys of a line are the tags along its trail.
* `locate_eq_filter`: the look at the tag before the search changes nothing.
* `locate_path`: finding undoes writing the path.
-/

namespace Breadcrumb.Document

variable {doc : Document}

/-! ## Keys -/

/-- The keys of a structural line are the tags along its trail. -/
theorem keys?_eq_some {i : Nat} (h : doc.isStructural i = true) :
    doc.keys? i = some ((doc.trailLines i).map doc.tag) := by
  unfold keys?
  rw [trail?_eq_some h, Option.map_some, List.map_map]
  rfl

theorem keys?_eq_none {i : Nat} (h : doc.isStructural i = false) : doc.keys? i = none := by
  unfold keys?
  rw [trail?_eq_none h, Option.map_none]

theorem keys?_eq_none_iff {i : Nat} : doc.keys? i = none ↔ doc.isStructural i = false := by
  rw [keys?, Option.map_eq_none_iff, trail?_eq_none_iff]

theorem isStructural_of_keys? {i : Nat} {keys : List String} (h : doc.keys? i = some keys) :
    doc.isStructural i = true := by
  cases hi : doc.isStructural i with
  | true => rfl
  | false =>
    rw [keys?_eq_none hi] at h
    cases h

theorem ne_nil_of_keys? {i : Nat} {keys : List String} (h : doc.keys? i = some keys) :
    keys ≠ [] := by
  rw [keys?_eq_some (isStructural_of_keys? h), Option.some.injEq] at h
  rw [← h]
  simp [trailLines]

theorem lt_size_of_isStructural {i : Nat} (h : doc.isStructural i = true) : i < doc.lines.size := by
  unfold isStructural line? at h
  by_contra hge
  rw [Array.getElem?_eq_none (Nat.le_of_not_lt hge)] at h
  cases h

/-- The lines of the structure have paths, and no others. -/
theorem exists_path?_iff {settings : Settings} {i : Nat} :
    (∃ path, doc.path? settings i = some path) ↔ doc.isStructural i = true := by
  unfold path?
  cases hi : doc.isStructural i with
  | false => simp [keys?_eq_none hi]
  | true => simp [keys?_eq_some hi]

/-- **The look at the tag is safe.** The tag of a line is the last of its keys. -/
theorem mayHaveKeys_of_keys? {i : Nat} {keys : List String} (h : doc.keys? i = some keys) :
    doc.mayHaveKeys keys i = true := by
  rw [keys?_eq_some (isStructural_of_keys? h), Option.some.injEq] at h
  unfold mayHaveKeys
  rw [← h, trailLines, List.map_append]
  simp

/-! ## Search -/

/-- **The lines with the keys of a path**, from the top. -/
theorem locate_eq_filter (separator path : String) :
    doc.locate separator path =
      (List.range doc.lines.size).filter fun i =>
        doc.keys? i = some (KeyPath.split separator path) := by
  unfold locate
  refine List.filter_congr fun i _ => ?_
  by_cases h : doc.keys? i = some (KeyPath.split separator path)
  · rw [mayHaveKeys_of_keys? h, Bool.true_and]
  · rw [decide_eq_false h, Bool.and_false]

theorem mem_locate_iff {separator path : String} {i : Nat} :
    i ∈ doc.locate separator path ↔ doc.keys? i = some (KeyPath.split separator path) := by
  rw [locate_eq_filter, List.mem_filter, List.mem_range, decide_eq_true_eq]
  exact ⟨fun h => h.2, fun h => ⟨lt_size_of_isStructural (isStructural_of_keys? h), h⟩⟩

section Escaped

variable {settings : Settings} (hescapes : settings.escapes = true)
  (hsep : KeyPath.Unambiguous settings.separator.toList) (hne : settings.separator ≠ "")

include hescapes hsep hne

/-- Splitting the path of a line gives its keys. -/
theorem split_path {i : Nat} {keys : List String} (h : doc.keys? i = some keys) :
    ∃ path, doc.path? settings i = some path ∧ KeyPath.split settings.separator path = keys := by
  refine ⟨KeyPath.join settings.separator true keys, ?_, ?_⟩
  · unfold path?
    rw [h, hescapes, Option.map_some]
  · exact KeyPath.split_join hsep hne (ne_nil_of_keys? h)

/-- **A path stands for one list of keys.** -/
theorem path?_eq_iff {i j : Nat} (hi : doc.isStructural i = true) (hj : doc.isStructural j = true) :
    doc.path? settings i = doc.path? settings j ↔ doc.keys? i = doc.keys? j := by
  obtain ⟨path, hpath, hsplit⟩ := split_path hescapes hsep hne (keys?_eq_some hi)
  obtain ⟨path', hpath', hsplit'⟩ := split_path hescapes hsep hne (keys?_eq_some hj)
  constructor
  · intro h
    rw [hpath, hpath', Option.some.injEq] at h
    rw [keys?_eq_some hi, keys?_eq_some hj, ← hsplit, ← hsplit', h]
  · intro h
    unfold path?
    rw [h]

end Escaped

/-- **Finding undoes writing the path.** Under escaping with an unambiguous separator,
the lines found for the path of a structural line are, from the top, the structural
lines with its keys; it is one of them, and two structural lines have one path if and
only if they have the same keys. -/
theorem locate_path (doc : Document) {settings : Settings} (hescapes : settings.escapes = true)
    (hsep : KeyPath.Unambiguous settings.separator.toList) (hne : settings.separator ≠ "") {i : Nat}
    (hi : doc.isStructural i = true) :
    (∃ path, doc.path? settings i = some path ∧
      doc.locate settings.separator path =
        (List.range doc.lines.size).filter
          (fun j => doc.isStructural j && doc.keys? j = doc.keys? i) ∧
      i ∈ doc.locate settings.separator path) ∧
    ∀ j, doc.isStructural j = true →
      (doc.path? settings i = doc.path? settings j ↔ doc.keys? i = doc.keys? j) := by
  refine ⟨?_, fun j hj => path?_eq_iff hescapes hsep hne hi hj⟩
  obtain ⟨path, hpath, hsplit⟩ := split_path hescapes hsep hne (keys?_eq_some hi)
  have hlocate : doc.locate settings.separator path =
      (List.range doc.lines.size).filter fun j => doc.keys? j = doc.keys? i := by
    rw [locate_eq_filter, hsplit, keys?_eq_some hi]
  refine ⟨path, hpath, ?_, ?_⟩
  · rw [hlocate]
    refine List.filter_congr fun j _ => ?_
    by_cases hj : doc.isStructural j = true
    · rw [hj, Bool.true_and]
    · -- lines outside of the structure have no keys to compare
      have hnone := keys?_eq_none (Bool.eq_false_iff.2 hj)
      rw [hnone, keys?_eq_some hi, Bool.eq_false_iff.2 hj]
      rfl
  · rw [hlocate, List.mem_filter, List.mem_range]
    exact ⟨lt_size_of_isStructural hi, decide_eq_true rfl⟩

/-- A key with a dot in it, twice, beside two keys that would read the same unescaped. -/
theorem locate_path_dotted_key :
    let doc := ofText "a.b:\n  c: 1\na:\n  b:\n    c: 2\na.b:\n  c: 3\n".toList 8
    let settings : Settings := { escapes := true }
    (settings.escapes = true ∧ KeyPath.Unambiguous settings.separator.toList ∧
        settings.separator ≠ "" ∧ doc.isStructural 1 = true ∧ doc.isStructural 4 = true) ∧
      (∃ path, doc.path? settings 1 = some path ∧
        doc.locate settings.separator path =
          (List.range doc.lines.size).filter
            (fun j => doc.isStructural j && doc.keys? j = doc.keys? 1) ∧
        1 ∈ doc.locate settings.separator path) ∧
      (doc.path? settings 1 = doc.path? settings 4 ↔ doc.keys? 1 = doc.keys? 4) := by
  intro doc settings
  have hescapes : settings.escapes = true := rfl
  have hsep : KeyPath.Unambiguous settings.separator.toList := by decide
  have hne : settings.separator ≠ "" := by decide
  have hi : doc.isStructural 1 = true := by decide
  have hj : doc.isStructural 4 = true := by decide
  obtain ⟨hlocate, hpath⟩ := locate_path doc hescapes hsep hne hi
  exact ⟨⟨hescapes, hsep, hne, hi, hj⟩, hlocate, hpath 4 hj⟩

end Breadcrumb.Document
