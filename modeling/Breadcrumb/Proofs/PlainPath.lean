import Breadcrumb.Proofs.Locate

/-!
# Paths that are not escaped

A path is split as if its keys were escaped, also where they were not. Splitting takes out
backslashes and never leaves a separator inside a key. So a key that holds one or the other
does not come back, and under an unambiguous separator all other keys do.

* `intercalate_splitChars`: what splitting takes out of a path.
* `not_infix_of_mem_splitChars`: what it never leaves inside a key.
* `split_join_false_iff`: which keys come back.
* `mem_locate_path_iff`: which lines are found by their paths.
-/

namespace Breadcrumb.KeyPath

variable {separator : List Char}

/-! ## What splitting takes out -/

/-- A path without the backslashes that escape; one that ends the path escapes nothing and
is left out too. -/
def unescape : List Char → List Char
  | [] => []
  | ['\\'] => []
  | '\\' :: c :: path => c :: unescape path
  | c :: path => c :: unescape path

theorem unescape_cons {c : Char} (hc : c ≠ '\\') (path : List Char) :
    unescape (c :: path) = c :: unescape path := by
  rw [unescape]
  · intro h _; exact hc h
  · intro _ _ h _; exact hc h

theorem unescape_append {text : List Char} (h : '\\' ∉ text) (path : List Char) :
    unescape (text ++ path) = text ++ unescape path := by
  induction text with
  | nil => rfl
  | cons c text ih =>
    rw [List.mem_cons, not_or] at h
    rw [List.cons_append, unescape_cons (Ne.symm h.1), ih h.2, List.cons_append]

theorem unescape_of_not_mem {path : List Char} (h : '\\' ∉ path) : unescape path = path := by
  have := unescape_append h []
  rwa [List.append_nil, unescape, List.append_nil] at this

theorem length_unescape_le (path : List Char) :
    (unescape path).length ≤ path.length := by
  fun_induction unescape path with
  | case1 => exact Nat.le_refl 0
  | case2 => exact Nat.zero_le 1
  | case3 c path ih => simp only [List.length_cons]; omega
  | case4 c path _ _ ih => simp only [List.length_cons]; omega

/-- Any backslash makes a path shorter. -/
theorem length_unescape_lt {path : List Char} (h : '\\' ∈ path) :
    (unescape path).length < path.length := by
  fun_induction unescape path with
  | case1 => cases h
  | case2 => exact Nat.zero_lt_one
  | case3 c path _ =>
    have := length_unescape_le path
    simp only [List.length_cons]
    omega
  | case4 c path hlone hescape ih =>
    have hc := ne_backslash_of_not_escaped hlone hescape
    rcases List.mem_cons.1 h with h | h
    · exact absurd h.symm hc
    · have := ih h
      simp only [List.length_cons]
      omega

theorem unescape_eq_self_iff {path : List Char} : unescape path = path ↔ '\\' ∉ path := by
  refine ⟨fun h hmem => ?_, unescape_of_not_mem⟩
  have := length_unescape_lt hmem
  rw [h] at this
  exact Nat.lt_irrefl _ this

theorem intercalate_modifyHead_cons (c : Char) {keys : List (List Char)} (h : keys ≠ []) :
    separator.intercalate (keys.modifyHead (c :: ·)) = c :: separator.intercalate keys := by
  obtain ⟨key, keys, rfl⟩ := List.exists_cons_of_ne_nil h
  cases keys with
  | nil => simp
  | cons next keys => simp [List.intercalate_cons_cons]

/-- **Splitting takes out backslashes and nothing else.** -/
theorem intercalate_splitChars (hne : separator ≠ []) (hmem : '\\' ∉ separator)
    (path : List Char) :
    separator.intercalate (splitChars separator path) = unescape path := by
  induction path using split_induction hne with
  | nil => simp [splitChars, unescape]
  | trailing => simp [splitChars, unescape]
  | backslash c path ih =>
    rw [splitChars_backslash, intercalate_modifyHead_cons c (splitChars_ne_nil separator path), ih,
      unescape]
  | separator_append path hhead ih =>
    rw [splitChars_separator hne hhead,
      List.intercalate_cons_of_ne_nil (splitChars_ne_nil separator path), ih,
      unescape_append hmem, List.nil_append]
  | plain c path hc hsep ih =>
    rw [splitChars_plain hne hc hsep,
      intercalate_modifyHead_cons c (splitChars_ne_nil separator path), ih, unescape_cons hc]

/-- **No separator is left inside a key** of a path without backslashes. -/
theorem not_infix_of_mem_splitChars (hne : separator ≠ []) (hmem : '\\' ∉ separator)
    {path : List Char} (hpath : '\\' ∉ path) :
    ∀ key ∈ splitChars separator path, ¬ separator <:+: key := by
  induction path using split_induction hne with
  | nil => simp [splitChars, hne]
  | trailing => exact absurd List.mem_cons_self hpath
  | backslash c path _ => exact absurd List.mem_cons_self hpath
  | separator_append path hhead ih =>
    rw [splitChars_separator hne hhead]
    intro key hkey
    rcases List.mem_cons.1 hkey with rfl | hkey
    · simp [hne]
    · exact ih (fun h => hpath (List.mem_append_right separator h)) key hkey
  | plain c path hc hsep ih =>
    have hrest : '\\' ∉ path := fun h => hpath (List.mem_cons_of_mem c h)
    obtain ⟨first, later, hsplit⟩ := List.exists_cons_of_ne_nil (splitChars_ne_nil separator path)
    -- without backslashes the first key is the start of the path
    have hfirst : first <+: path := by
      have hjoin := intercalate_splitChars hne hmem path
      rw [unescape_of_not_mem hrest, hsplit] at hjoin
      rw [← hjoin]
      cases later with
      | nil => simp
      | cons next later =>
        rw [List.intercalate_cons_cons, List.append_assoc]
        exact List.prefix_append first _
    rw [hsplit] at ih
    rw [splitChars_plain hne hc hsep, hsplit, List.modifyHead_cons]
    intro key hkey
    rcases List.mem_cons.1 hkey with rfl | hkey
    · intro hinner
      rcases List.infix_cons_iff.1 hinner with hstart | hinner
      · exact hsep (hstart.trans ((List.cons_prefix_cons).2 ⟨rfl, hfirst⟩))
      · exact ih hrest first List.mem_cons_self hinner
    · exact ih hrest key (List.mem_cons_of_mem first hkey)

/-! ## Which keys come back -/

theorem infix_intercalate_of_mem {key : List Char} {keys : List (List Char)} (h : key ∈ keys) :
    key <:+: separator.intercalate keys := by
  induction keys with
  | nil => cases h
  | cons first keys ih =>
    cases keys with
    | nil =>
      have hkey : key = separator.intercalate [first] := by
        rw [List.mem_singleton.1 h, List.intercalate_singleton]
      exact ⟨[], [], by rw [List.nil_append, List.append_nil, hkey]⟩
    | cons next keys =>
      rw [List.intercalate_cons_cons]
      rcases List.mem_cons.1 h with rfl | h
      · rw [List.append_assoc]
        exact List.infix_append' [] key _
      · exact (ih h).trans (List.suffix_append _ _).isInfix

/-- A key that is written the same with and without escapes. -/
def IsPlain (separator key : List Char) : Prop := '\\' ∉ key ∧ ¬ separator <:+: key

/-- **Keys come back** from a path that does not escape them if and only if they are plain. -/
theorem Unambiguous.splitChars_joinChars_false_iff (h : Unambiguous separator)
    (hne : separator ≠ []) {keys : List (List Char)} (hkeys : keys ≠ []) :
    splitChars separator (joinChars separator false keys) = keys ↔
      ∀ key ∈ keys, IsPlain separator key := by
  have hjoin : joinChars separator false keys = separator.intercalate keys := rfl
  constructor
  · intro hsplit
    -- put together again, the keys make a path without backslashes
    have hback := intercalate_splitChars hne h.backslash_not_mem (joinChars separator false keys)
    rw [hsplit, ← hjoin] at hback
    have hpath : '\\' ∉ joinChars separator false keys := unescape_eq_self_iff.1 hback.symm
    intro key hkey
    refine ⟨fun hmem => hpath ?_, ?_⟩
    · exact (infix_intercalate_of_mem hkey).subset hmem
    · exact not_infix_of_mem_splitChars hne h.backslash_not_mem hpath key (hsplit.symm ▸ hkey)
  · intro hplain
    have hescape : keys.map (escapeChars separator) = keys :=
      (List.map_congr_left fun key hkey =>
        escapeChars_eq_self hne (hplain key hkey).1 (hplain key hkey).2).trans (List.map_id' keys)
    have hsame : joinChars separator false keys = joinChars separator true keys := by
      rw [hjoin, joinChars, if_pos rfl, hescape]
    rw [hsame, h.splitChars_joinChars hne hkeys]

theorem split_join_false_iff {separator : String} (h : Unambiguous separator.toList)
    (hne : separator ≠ "") {keys : List String} (hkeys : keys ≠ []) :
    split separator (join separator false keys) = keys ↔
      ∀ key ∈ keys, IsPlain separator.toList key.toList := by
  have hne' : separator.toList ≠ [] := by simpa using hne
  have hkeys' : keys.map String.toList ≠ [] := by simpa using hkeys
  have hchars := h.splitChars_joinChars_false_iff hne' hkeys'
  rw [List.forall_mem_map] at hchars
  rw [← hchars, split, join, String.toList_ofList]
  constructor
  · intro hsplit
    have := congrArg (List.map String.toList) hsplit
    simpa [List.map_map, Function.comp_def] using this
  · intro hsplit
    rw [hsplit]
    simp [List.map_map, Function.comp_def]

end Breadcrumb.KeyPath

namespace Breadcrumb.Document

/-- **Finding lines by paths that are not escaped.** Under an unambiguous separator, a
structural line is found by its path if and only if none of its keys holds a backslash or the
separator. -/
theorem mem_locate_path_iff (doc : Document) {settings : Settings}
    (hescapes : settings.escapes = false)
    (hsep : KeyPath.Unambiguous settings.separator.toList) (hne : settings.separator ≠ "") {i : Nat}
    (hi : doc.isStructural i = true) :
    ∃ keys path, doc.keys? i = some keys ∧ doc.path? settings i = some path ∧
      (i ∈ doc.locate settings.separator path ↔
        ∀ key ∈ keys, '\\' ∉ key.toList ∧ ¬ settings.separator.toList <:+: key.toList) := by
  obtain ⟨keys, hkeys⟩ : ∃ keys, doc.keys? i = some keys := ⟨_, keys?_eq_some hi⟩
  have hpath : doc.path? settings i = some (KeyPath.join settings.separator false keys) := by
    rw [path?, hkeys, hescapes, Option.map_some]
  refine ⟨keys, _, hkeys, hpath, ?_⟩
  rw [mem_locate_iff, hkeys, Option.some.injEq, eq_comm,
    KeyPath.split_join_false_iff hsep hne (ne_nil_of_keys? hkeys)]
  rfl

/-- Two keys of which one ends in a backslash and the other holds a dot: their path splits
into two keys again, but not into them. -/
theorem mem_locate_path_iff_as_many_keys :
    let doc := ofText "a\\:\n  b.c: 1\nd:\n  e: 2\n".toList 8
    let settings : Settings := {}
    (settings.escapes = false ∧ KeyPath.Unambiguous settings.separator.toList ∧
        settings.separator ≠ "" ∧ doc.isStructural 1 = true ∧ doc.isStructural 3 = true) ∧
      (∃ path, doc.path? settings 1 = some path ∧
        KeyPath.split settings.separator path = ["a.b", "c"] ∧
        1 ∉ doc.locate settings.separator path) ∧
      ∃ path, doc.path? settings 3 = some path ∧ 3 ∈ doc.locate settings.separator path := by
  intro doc settings
  have hescapes : settings.escapes = false := rfl
  have hsep : KeyPath.Unambiguous settings.separator.toList := by decide
  have hne : settings.separator ≠ "" := by decide
  have hi : doc.isStructural 1 = true := by decide
  have hj : doc.isStructural 3 = true := by decide
  have hkeys : doc.keys? 1 = some ["a\\", "b.c"] := by decide +kernel
  have hkeys' : doc.keys? 3 = some ["d", "e"] := by decide +kernel
  obtain ⟨_, path, hfirst, hpath, hiff⟩ := mem_locate_path_iff doc hescapes hsep hne hi
  obtain ⟨_, path', hfirst', hpath', hiff'⟩ := mem_locate_path_iff doc hescapes hsep hne hj
  cases hkeys.symm.trans hfirst
  cases hkeys'.symm.trans hfirst'
  have hjoin : path = "a\\.b.c" := by
    rw [path?, hkeys] at hpath
    cases hpath
    decide
  refine ⟨⟨hescapes, hsep, hne, hi, hj⟩, ⟨path, hpath, ?_, ?_⟩, path', hpath', ?_⟩
  · rw [hjoin]
    decide +kernel
  · rw [hiff]
    intro h
    exact (h "a\\" List.mem_cons_self).1 (by decide)
  · rw [hiff']
    decide

end Breadcrumb.Document
