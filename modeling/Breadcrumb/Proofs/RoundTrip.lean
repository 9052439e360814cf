import Breadcrumb.Proofs.Separator
import Breadcrumb.Settings

/-!
# Escaped paths and their keys

Splitting a path undoes joining its escaped keys for all keys if and only if the
separator is unambiguous. Nothing of an escaped key can then be taken for a
separator, even where the key runs into the separator after it.

* `splitChars_escapeChars_append`: splitting reads an escaped key as the key.
* `split_join`: an unambiguous separator gives the keys back.
* `exists_splitChars_ne`: any other separator loses the keys of some path.
* `split_join_iff_unambiguous`: both together.
-/

namespace Breadcrumb.KeyPath

variable {separator : List Char}

/-! ## One step of the two scans -/

theorem splitChars_backslash (c : Char) (path : List Char) :
    splitChars separator ('\\' :: c :: path) = (splitChars separator path).modifyHead (c :: ·) := by
  rw [splitChars]

theorem splitChars_separator (hne : separator ≠ []) (hhead : separator.head? ≠ some '\\')
    (path : List Char) :
    splitChars separator (separator ++ path) = [] :: splitChars separator path := by
  obtain ⟨c, rest, rfl⟩ := List.exists_cons_of_ne_nil hne
  have hc : c ≠ '\\' := fun h => hhead (by rw [h]; rfl)
  have hsep : separates (c :: rest) (c :: (rest ++ path)) = true :=
    (separates_iff hne).2 (List.prefix_append (c :: rest) path)
  rw [List.cons_append, splitChars, dif_pos hsep, ← List.cons_append, List.drop_left]
  · intro h _; exact hc h
  · intro _ _ h _; exact hc h

theorem splitChars_plain {c : Char} {path : List Char} (hne : separator ≠ []) (hc : c ≠ '\\')
    (h : ¬ separator <+: c :: path) :
    splitChars separator (c :: path) = (splitChars separator path).modifyHead (c :: ·) := by
  rw [splitChars, dif_neg (fun hsep => h ((separates_iff hne).1 hsep))]
  · intro h _; exact hc h
  · intro _ _ h _; exact hc h

theorem escapeChars_backslash (key : List Char) :
    escapeChars separator ('\\' :: key) = '\\' :: '\\' :: escapeChars separator key := by
  rw [escapeChars, if_pos rfl]

theorem escapeChars_separator (hne : separator ≠ []) (hhead : separator.head? ≠ some '\\')
    (key : List Char) :
    escapeChars separator (separator ++ key) = '\\' :: (separator ++ escapeChars separator key) := by
  obtain ⟨c, rest, rfl⟩ := List.exists_cons_of_ne_nil hne
  have hc : c ≠ '\\' := fun h => hhead (by rw [h]; rfl)
  have hsep : separates (c :: rest) (c :: (rest ++ key)) = true :=
    (separates_iff hne).2 (List.prefix_append (c :: rest) key)
  have hdrop : (c :: (rest ++ key)).drop (c :: rest).length = key := List.drop_left
  rw [List.cons_append, escapeChars, if_neg hc, dif_pos hsep, hdrop]

theorem escapeChars_plain {c : Char} {key : List Char} (hne : separator ≠ []) (hc : c ≠ '\\')
    (h : ¬ separator <+: c :: key) :
    escapeChars separator (c :: key) = c :: escapeChars separator key := by
  rw [escapeChars, if_neg hc, dif_neg (fun hsep => h ((separates_iff hne).1 hsep))]

/-- The keys with `part` put in front of the first one. -/
def prepend (part : List Char) (keys : List (List Char)) : List (List Char) :=
  keys.modifyHead (part ++ ·)

theorem prepend_nil (keys : List (List Char)) : prepend [] keys = keys := by
  cases keys <;> rfl

theorem prepend_cons (c : Char) (part : List Char) (keys : List (List Char)) :
    (prepend part keys).modifyHead (c :: ·) = prepend (c :: part) keys := by
  cases keys <;> rfl

theorem prepend_append (u v : List Char) (keys : List (List Char)) :
    prepend u (prepend v keys) = prepend (u ++ v) keys := by
  cases keys <;> simp [prepend]

/-- A character that a path starts with, and that escapes nothing, is no backslash. -/
theorem ne_backslash_of_not_escaped {c : Char} {path : List Char}
    (hlone : c = '\\' → path = [] → False) (hescape : ∀ d rest, c = '\\' → path = d :: rest → False) :
    c ≠ '\\' := by
  intro hc
  cases path with
  | nil => exact hlone hc rfl
  | cons d rest => exact hescape d rest hc rfl

/-- **Induction along the escape.** A key is empty, or starts with a backslash, with the
separator, or with a character that is neither. -/
theorem escape_induction {motive : List Char → Prop} (hne : separator ≠ []) (nil : motive [])
    (backslash : ∀ key, motive key → motive ('\\' :: key))
    (separator_append : ∀ key, motive key → motive (separator ++ key))
    (plain : ∀ c key, c ≠ '\\' → ¬ separator <+: c :: key → motive key → motive (c :: key)) :
    ∀ key, motive key := by
  intro key
  induction key using escapeChars.induct separator with
  | case1 => exact nil
  | case2 key ih => exact backslash key ih
  | case3 c key hc hsep ih =>
    obtain ⟨rest, hrest⟩ := (separates_iff hne).1 hsep
    rw [← hrest, List.drop_left] at ih
    rw [← hrest]
    exact separator_append rest ih
  | case4 c key hc hsep ih =>
    exact plain c key hc (fun h => hsep ((separates_iff hne).2 h)) ih

/-- **Induction along the split.** A path is empty or a lone backslash, or starts with a
backslash and the character it escapes, with the separator, or with a character that
is neither. -/
theorem split_induction {motive : List Char → Prop} (hne : separator ≠ []) (nil : motive [])
    (trailing : motive ['\\']) (backslash : ∀ c path, motive path → motive ('\\' :: c :: path))
    (separator_append : ∀ path, separator.head? ≠ some '\\' → motive path →
      motive (separator ++ path))
    (plain : ∀ c path, c ≠ '\\' → ¬ separator <+: c :: path → motive path → motive (c :: path)) :
    ∀ path, motive path := by
  intro path
  induction path using splitChars.induct separator with
  | case1 => exact nil
  | case2 => exact trailing
  | case3 c path ih => exact backslash c path ih
  | case4 c path hlone hescape hsep ih =>
    have hc := ne_backslash_of_not_escaped hlone hescape
    obtain ⟨rest, hrest⟩ := (separates_iff hne).1 hsep
    rw [← hrest, List.drop_left] at ih
    rw [← hrest]
    refine separator_append rest (fun hhead => hc ?_) ih
    have hc' : (separator ++ rest).head? = some c := by rw [hrest]; rfl
    rw [List.head?_append, hhead] at hc'
    exact (Option.some.inj hc').symm
  | case5 c path hlone hescape hsep ih =>
    have hc := ne_backslash_of_not_escaped hlone hescape
    exact plain c path hc (fun h => hsep ((separates_iff hne).2 h)) ih

/-! ## Unambiguous separators -/

/-- What stands after an escaped key: nothing, or the separator and more. -/
def EndsKey (separator tail : List Char) : Prop := tail = [] ∨ separator <+: tail

theorem Unambiguous.head?_ne (h : Unambiguous separator) : separator.head? ≠ some '\\' :=
  fun hhead => h.backslash_not_mem (List.mem_of_mem_head? hhead)

theorem Unambiguous.eq_nil_of_prefix_backslash (h : Unambiguous separator)
    {first last text : List Char} (hsplit : separator = first ++ last) (hlast : last <+: '\\' :: text) :
    last = [] := by
  rcases List.prefix_cons_iff.1 hlast with rfl | ⟨rest, rfl, -⟩
  · rfl
  · exact absurd (by rw [hsplit]; simp) h.backslash_not_mem

/-- **No separator arises by escaping.** If the end of a separator, cut off after its
first characters, is found at the start of an escaped key and what stands after it,
it is found in the key itself. -/
theorem Unambiguous.prefix_of_prefix_escapeChars (h : Unambiguous separator) {tail : List Char}
    (htail : EndsKey separator tail) {key first last : List Char} (hsplit : separator = first ++ last)
    (hfirst : first ≠ []) (hlast : last <+: escapeChars separator key ++ tail) : last <+: key := by
  have hne : separator ≠ [] := by rw [hsplit]; simp [hfirst]
  induction key using escape_induction hne generalizing first last with
  | nil =>
    -- past the key the match could only go on into the next separator
    rw [escapeChars, List.nil_append] at hlast
    rcases htail with rfl | ⟨rest, rfl⟩
    · exact hlast
    · obtain rfl : last = [] := h.eq_nil_of_overlap hsplit hfirst hlast
      exact List.nil_prefix
  | backslash key _ =>
    -- a backslash stands where the match would have to go on
    rw [escapeChars_backslash] at hlast
    obtain rfl : last = [] := h.eq_nil_of_prefix_backslash hsplit hlast
    exact List.nil_prefix
  | separator_append key _ =>
    rw [escapeChars_separator hne h.head?_ne] at hlast
    obtain rfl : last = [] := h.eq_nil_of_prefix_backslash hsplit hlast
    exact List.nil_prefix
  | plain c key hc hsep ih =>
    rw [escapeChars_plain hne hc hsep, List.cons_append] at hlast
    cases last with
    | nil => exact List.nil_prefix
    | cons d last =>
      rw [List.cons_prefix_cons] at hlast ⊢
      have hsplit' : separator = (first ++ [d]) ++ last := by rw [hsplit]; simp
      exact ⟨hlast.1, ih hsplit' (by simp) hlast.2⟩

/-- The character after a plain one does not turn it into the start of a separator. -/
theorem Unambiguous.not_prefix_cons_escapeChars (h : Unambiguous separator) (hne : separator ≠ [])
    {tail : List Char} (htail : EndsKey separator tail) {c : Char} {key : List Char}
    (hkey : ¬ separator <+: c :: key) : ¬ separator <+: c :: (escapeChars separator key ++ tail) := by
  intro hpre
  obtain ⟨d, last, rfl⟩ := List.exists_cons_of_ne_nil hne
  rw [List.cons_prefix_cons] at hpre hkey
  have hsplit : d :: last = [d] ++ last := rfl
  have hlast := h.prefix_of_prefix_escapeChars htail hsplit (List.cons_ne_nil d []) hpre.2
  exact hkey ⟨hpre.1, hlast⟩

/-- A separator that lacks its first characters is read as it stands. -/
theorem Unambiguous.splitChars_last_append (h : Unambiguous separator) {first last : List Char}
    (hsplit : separator = first ++ last) (hfirst : first ≠ []) (path : List Char) :
    splitChars separator (last ++ path) = prepend last (splitChars separator path) := by
  have hne : separator ≠ [] := by rw [hsplit]; simp [hfirst]
  induction last generalizing first with
  | nil => rw [List.nil_append, prepend_nil]
  | cons c last ih =>
    have hc : c ≠ '\\' := fun hc => h.backslash_not_mem (by rw [hsplit, hc]; simp)
    have hsep : ¬ separator <+: c :: (last ++ path) := by
      intro hpre
      have hle : (c :: last).length ≤ separator.length := by rw [hsplit]; simp
      have hlast : c :: last <+: separator :=
        List.prefix_of_prefix_length_le (List.prefix_append (c :: last) path) hpre hle
      have := h.eq_nil_of_overlap hsplit hfirst (hlast.trans (List.prefix_append separator []))
      exact List.cons_ne_nil c last this
    have hsplit' : separator = (first ++ [c]) ++ last := by rw [hsplit]; simp
    rw [List.cons_append, splitChars_plain hne hc hsep, ih hsplit' (by simp), prepend_cons]

/-- An escaped separator is read as the separator. -/
theorem Unambiguous.splitChars_backslash_separator (h : Unambiguous separator)
    (hne : separator ≠ []) (path : List Char) :
    splitChars separator ('\\' :: (separator ++ path)) =
      prepend separator (splitChars separator path) := by
  obtain ⟨c, last, rfl⟩ := List.exists_cons_of_ne_nil hne
  have hsplit : c :: last = [c] ++ last := rfl
  have hlast := h.splitChars_last_append hsplit (List.cons_ne_nil c []) path
  rw [List.cons_append, splitChars_backslash, hlast, prepend_cons]

/-- **An escaped key is read as the key**, if nothing or a separator follows. -/
theorem Unambiguous.splitChars_escapeChars_append (h : Unambiguous separator) (hne : separator ≠ [])
    {tail : List Char} (htail : EndsKey separator tail) (key : List Char) :
    splitChars separator (escapeChars separator key ++ tail) =
      prepend key (splitChars separator tail) := by
  induction key using escape_induction hne with
  | nil => rw [escapeChars, List.nil_append, prepend_nil]
  | backslash key ih =>
    rw [escapeChars_backslash, List.cons_append, List.cons_append, splitChars_backslash, ih,
      prepend_cons]
  | separator_append key ih =>
    rw [escapeChars_separator hne h.head?_ne, List.cons_append, List.append_assoc,
      h.splitChars_backslash_separator hne, ih, prepend_append]
  | plain c key hc hsep ih =>
    have hpre := h.not_prefix_cons_escapeChars hne htail hsep
    rw [escapeChars_plain hne hc hsep, List.cons_append, splitChars_plain hne hc hpre, ih,
      prepend_cons]

theorem Unambiguous.splitChars_joinChars (h : Unambiguous separator) (hne : separator ≠ [])
    {keys : List (List Char)} (hkeys : keys ≠ []) :
    splitChars separator (joinChars separator true keys) = keys := by
  unfold joinChars
  rw [if_pos rfl]
  induction keys with
  | nil => exact absurd rfl hkeys
  | cons key keys ih =>
    cases keys with
    | nil =>
      have := h.splitChars_escapeChars_append hne (Or.inl rfl) key
      rw [List.append_nil] at this
      rw [List.map_singleton, List.intercalate_singleton, this]
      simp [splitChars, prepend]
    | cons next keys =>
      -- the first key ends before a separator, and the rest is a path of its own
      have hrest := ih (List.cons_ne_nil next keys)
      rw [List.map_cons] at hrest
      rw [List.map_cons, List.map_cons, List.intercalate_cons_cons, List.append_assoc,
        h.splitChars_escapeChars_append hne (Or.inr (List.prefix_append separator _)),
        splitChars_separator hne h.head?_ne, hrest]
      simp [prepend]

/-! ## All other separators -/

/-- A separator that starts with a backslash is never found. -/
theorem length_splitChars_of_head? (hhead : separator.head? = some '\\') (path : List Char) :
    (splitChars separator path).length = 1 := by
  have hne : separator ≠ [] := by
    rintro rfl
    cases hhead
  induction path using split_induction hne with
  | nil => simp [splitChars]
  | trailing => simp [splitChars]
  | backslash c path ih => rw [splitChars_backslash, List.length_modifyHead, ih]
  | separator_append path hhead' _ => exact absurd hhead hhead'
  | plain c path hc hsep ih => rw [splitChars_plain hne hc hsep, List.length_modifyHead, ih]

theorem flatten_modifyHead_cons (c : Char) {keys : List (List Char)} (h : keys ≠ []) :
    (keys.modifyHead (c :: ·)).flatten = c :: keys.flatten := by
  obtain ⟨key, keys, rfl⟩ := List.exists_cons_of_ne_nil h
  rfl

/-- Splitting keeps no more characters than there are, and loses one at least where
there is a backslash. -/
theorem length_flatten_splitChars (hne : separator ≠ []) (path : List Char) :
    (splitChars separator path).flatten.length ≤ path.length ∧
      ('\\' ∈ path → (splitChars separator path).flatten.length < path.length) := by
  induction path using split_induction hne with
  | nil => simp [splitChars]
  | trailing => simp [splitChars]
  | backslash c path ih =>
    rw [splitChars_backslash, flatten_modifyHead_cons c (splitChars_ne_nil separator path)]
    simp only [List.length_cons]
    omega
  | separator_append path hhead ih =>
    have hpos := List.length_pos_iff.2 hne
    rw [splitChars_separator hne hhead, List.flatten_cons, List.nil_append, List.length_append]
    omega
  | plain c path hc hsep ih =>
    rw [splitChars_plain hne hc hsep,
      flatten_modifyHead_cons c (splitChars_ne_nil separator path)]
    simp only [List.length_cons]
    refine ⟨by omega, fun hmem => ?_⟩
    rcases List.mem_cons.1 hmem with hc' | hmem
    · exact absurd hc'.symm hc
    · have := ih.2 hmem
      omega

/-- A key without backslashes and separators is not changed. -/
theorem escapeChars_eq_self (hne : separator ≠ []) {key : List Char} (hmem : '\\' ∉ key)
    (hinner : ¬ separator <:+: key) : escapeChars separator key = key := by
  induction key with
  | nil => rw [escapeChars]
  | cons c key ih =>
    rw [List.mem_cons, not_or] at hmem
    rw [List.infix_cons_iff, not_or] at hinner
    rw [escapeChars_plain hne (Ne.symm hmem.1) hinner.1, ih hmem.2 hinner.2]

/-- A key shorter than the separator and without backslashes is not changed. -/
theorem escapeChars_of_length_lt (hne : separator ≠ []) {key : List Char} (hmem : '\\' ∉ key)
    (hlt : key.length < separator.length) : escapeChars separator key = key :=
  escapeChars_eq_self hne hmem fun hinner => absurd hinner.length_le (Nat.not_le.2 hlt)

/-- **Backslashes in a separator** break paths: two empty keys if it starts with one,
and otherwise the separator taken as a key. -/
theorem exists_splitChars_ne_of_backslash (hmem : '\\' ∈ separator) :
    ∃ keys, keys ≠ [] ∧ splitChars separator (joinChars separator true keys) ≠ keys := by
  have hne : separator ≠ [] := List.ne_nil_of_mem hmem
  by_cases hhead : separator.head? = some '\\'
  · -- the path is the separator, which is not found
    refine ⟨[[], []], by simp, fun h => ?_⟩
    have hlen := length_splitChars_of_head? hhead (joinChars separator true [[], []])
    rw [h] at hlen
    exact absurd hlen (by decide)
  · -- only the first character of the key is escaped, so a backslash after it is lost
    refine ⟨[separator], by simp, fun h => ?_⟩
    obtain ⟨c, rest, rfl⟩ := List.exists_cons_of_ne_nil hne
    have hrest : '\\' ∈ rest := by
      rcases List.mem_cons.1 hmem with hc | hrest
      · exact absurd (by rw [hc]; rfl) hhead
      · exact hrest
    have hjoin : joinChars (c :: rest) true [c :: rest] = '\\' :: c :: rest := by
      have := escapeChars_separator hne hhead []
      rw [List.append_nil, escapeChars, List.append_nil] at this
      simp [joinChars, this]
    rw [hjoin, splitChars_backslash] at h
    have hflat := congrArg (fun keys => keys.flatten.length) h
    simp only [flatten_modifyHead_cons c (splitChars_ne_nil _ rest), List.flatten_singleton,
      List.length_cons] at hflat
    have hlt := (length_flatten_splitChars hne rest).2 hrest
    omega

/-- **Borders of a separator** break paths: a key that ends where the border starts,
and the separator after it, start with the separator. -/
theorem exists_splitChars_ne_of_border (hmem : '\\' ∉ separator) {border : List Char}
    (hborder : IsBorder border separator) :
    ∃ keys, keys ≠ [] ∧ splitChars separator (joinChars separator true keys) ≠ keys := by
  obtain ⟨hnil, hproper, ⟨rest, hstart⟩, ⟨first, hend⟩⟩ := hborder
  have hne : separator ≠ [] := by rw [← hstart]; simp [hnil]
  have hhead : separator.head? ≠ some '\\' := fun h => hmem (List.mem_of_mem_head? h)
  have hfirst : first ≠ [] := by
    rintro rfl
    exact hproper hend
  have hfirstmem : '\\' ∉ first := fun hm => hmem (by rw [← hend]; simp [hm])
  have hlt : first.length < separator.length := by
    rw [← hend, List.length_append]
    have := List.length_pos_iff.2 hnil
    omega
  have hjoin : joinChars separator true [first, []] = separator ++ rest := by
    simp only [joinChars, if_true, List.map_cons, List.map_nil, List.intercalate_cons_cons,
      List.intercalate_singleton, escapeChars_of_length_lt hne hfirstmem hlt]
    rw [escapeChars, List.append_nil]
    conv_lhs => rw [← hstart, ← List.append_assoc]
    rw [hend]
  -- the first key read is empty, the one written is not
  refine ⟨[first, []], by simp, fun h => ?_⟩
  rw [hjoin, splitChars_separator hne hhead, List.cons.injEq] at h
  exact hfirst h.1.symm

/-- **Any separator that is not unambiguous loses the keys of some path.** -/
theorem exists_splitChars_ne (h : ¬ Unambiguous separator) :
    ∃ keys, keys ≠ [] ∧ splitChars separator (joinChars separator true keys) ≠ keys := by
  by_cases hmem : '\\' ∈ separator
  · exact exists_splitChars_ne_of_backslash hmem
  · by_contra hall
    refine h ⟨hmem, fun border hborder => hall ?_⟩
    exact exists_splitChars_ne_of_border hmem hborder

/-! ## Paths as strings -/

theorem split_join_chars (separator : String) (keys : List (List Char)) :
    split separator (join separator true (keys.map String.ofList)) =
      (splitChars separator.toList (joinChars separator.toList true keys)).map String.ofList := by
  simp [split, join, List.map_map, Function.comp_def]

/-- **An unambiguous separator gives the keys back**, if there is one at least. -/
theorem split_join {separator : String} (h : Unambiguous separator.toList) (hne : separator ≠ "")
    {keys : List String} (hkeys : keys ≠ []) : split separator (join separator true keys) = keys := by
  have hne' : separator.toList ≠ [] := by simpa using hne
  have hmap : (keys.map String.toList).map String.ofList = keys := by
    simp [List.map_map, Function.comp_def]
  have hchars := split_join_chars separator (keys.map String.toList)
  rw [hmap, h.splitChars_joinChars hne' (by simpa using hkeys), hmap] at hchars
  exact hchars

/-- **Which separators give the keys back.** Splitting undoes joining escaped keys for
all keys if and only if the separator is unambiguous; one character is, unless it is a
backslash. -/
theorem split_join_iff_unambiguous {separator : String} (hne : separator ≠ "") :
    ((∀ keys : List String, keys ≠ [] → split separator (join separator true keys) = keys) ↔
        Unambiguous separator.toList) ∧
      ∀ c : Char, separator = String.singleton c →
        (Unambiguous separator.toList ↔ c ≠ '\\') := by
  refine ⟨⟨fun hall => ?_, fun h keys hkeys => split_join h hne hkeys⟩, ?_⟩
  · by_contra h
    obtain ⟨keys, hkeys, hsplit⟩ := exists_splitChars_ne h
    have hback := hall (keys.map String.ofList) (by simpa using hkeys)
    rw [split_join_chars] at hback
    exact hsplit ((List.map_inj_right fun _ _ => String.ofList_inj.1).1 hback)
  · rintro c rfl
    rw [String.toList_singleton, unambiguous_singleton]

/-- The arrow gives all keys back and the double colon does not, though both are valid. -/
theorem split_join_arrow_and_double_colon :
    ("->" ≠ "" ∧ ∀ keys : List String, keys ≠ [] → split "->" (join "->" true keys) = keys) ∧
      "::" ≠ "" ∧ ({ separator := "::" } : Settings).validate = .ok () ∧
        ¬ ∀ keys : List String, keys ≠ [] → split "::" (join "::" true keys) = keys := by
  have harrow : "->" ≠ "" := by decide
  have hcolons : "::" ≠ "" := by decide
  refine ⟨⟨harrow, ?_⟩, hcolons, by decide, ?_⟩
  · exact (split_join_iff_unambiguous harrow).1.2 (by decide)
  · intro hall
    exact absurd ((split_join_iff_unambiguous hcolons).1.1 hall) (by decide)

end Breadcrumb.KeyPath
