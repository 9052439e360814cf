import Breadcrumb.Proofs.Counting
import Breadcrumb.Settings
import Mathlib.Data.List.Induction

/-!
# Where columns wrap

A tab is as wide as the settings say, up to the largest word, so the columns of a line may not
be words any more. At the first one that is none a count in checked words stops, and a count in
words that wrap goes on from a column before the one it comes from. So words that wrap grow along
a line just if none of them wraps, and just then they are exact, as checked words always are.

* `lt_advance_iff`: a column grows if and only if it does not wrap.
* `exactColumn_le`: a line with few characters for the width of its tabs does not wrap.
* `Line.columnAfter?_checked_iff`, `Line.columnAt?_exact_iff`: where columns are told exactly.
* `columns_exact`: the columns of any line, under any settings that are valid.
-/

namespace Breadcrumb

open Text

namespace Text

/-! ## One character -/

section Step

variable {tabWidth : UInt64} {column : UInt64} {c : Char}

theorem exactAdvance_le {tabWidth : Nat} (htab : 0 < tabWidth) (column : Nat) (c : Char) :
    exactAdvance tabWidth column c ≤ column + tabWidth := by
  unfold exactAdvance
  split
  · rw [Nat.add_mul, Nat.one_mul]
    exact Nat.add_le_add_right (Nat.div_mul_le_self column tabWidth) tabWidth
  · omega

/-- **A column grows if and only if it does not wrap.** -/
theorem lt_advance_iff (htab : 0 < tabWidth) :
    column < advance tabWidth column c ↔ exactAdvance tabWidth.toNat column.toNat c < 2 ^ 64 := by
  have htab' : 0 < tabWidth.toNat := UInt64.lt_iff_toNat_lt.1 htab
  have hword := tabWidth.toNat_lt
  have hle := exactAdvance_le htab' column.toNat c
  have hgrow := lt_exactAdvance htab' column.toNat c
  rw [UInt64.lt_iff_toNat_lt, toNat_advance_eq_mod]
  constructor
  · intro hlt
    by_contra hwrap
    -- a tab is narrower than all words together, so the column wraps once and falls back
    rw [Nat.mod_eq_sub_mod (by omega), Nat.mod_eq_of_lt (by omega)] at hlt
    omega
  · intro hfits
    rwa [Nat.mod_eq_of_lt hfits]

end Step

/-! ## Along a line -/

section Line

variable {tabWidth : UInt64} (htab : 0 < tabWidth) {line : List Char}

include htab

/-- **Columns that grow along the line do not wrap.** -/
theorem exactColumn_lt_of_grows
    (hgrows : ∀ u c v, u ++ c :: v = line →
      columnAfter tabWidth u < columnAfter tabWidth (u ++ [c])) :
    exactColumn tabWidth.toNat 0 line < 2 ^ 64 := by
  suffices hall : ∀ u v, u ++ v = line → exactColumn tabWidth.toNat 0 u < 2 ^ 64 from
    hall line [] (List.append_nil line)
  intro u
  induction u using List.reverseRecOn with
  | nil => exact fun _ _ => Nat.two_pow_pos 64
  | append_singleton u c ih =>
    intro v hv
    rw [List.append_assoc, List.singleton_append] at hv
    have hcolumn := toNat_columnAfter htab (ih (c :: v) hv)
    have hlt := hgrows u c v hv
    have hlast : columnAfter tabWidth (u ++ [c]) = advance tabWidth (columnAfter tabWidth u) c := by
      rw [columnAfter, List.foldl_append]
      rfl
    rw [hlast, lt_advance_iff htab, hcolumn] at hlt
    rw [exactColumn_append]
    exact hlt

end Line

/-! ## Bounds -/

section Bounds

variable {tabWidth : Nat} (htab : 0 < tabWidth)

include htab

/-- No character is wider than a tab. -/
theorem exactColumn_le (column : Nat) (text : List Char) :
    exactColumn tabWidth column text ≤ column + text.length * tabWidth := by
  induction text generalizing column with
  | nil => simp [exactColumn]
  | cons c text ih =>
    have hrest := ih (exactAdvance tabWidth column c)
    have hfirst := exactAdvance_le htab column c
    rw [List.length_cons, Nat.add_mul, Nat.one_mul]
    rw [exactColumn, List.foldl_cons]
    rw [exactColumn] at hrest
    omega

theorem exactColumn_tabs (n : Nat) :
    exactColumn tabWidth 0 (List.replicate n '\t') = n * tabWidth := by
  induction n with
  | zero => simp [exactColumn]
  | succ n ih =>
    rw [List.replicate_succ', exactColumn_append, ih, Nat.add_mul, Nat.one_mul]
    have htab : exactAdvance tabWidth (n * tabWidth) '\t' = (n * tabWidth / tabWidth + 1) * tabWidth :=
      if_pos rfl
    rw [exactColumn, List.foldl_cons, List.foldl_nil, htab, Nat.mul_div_cancel n ‹_›, Nat.add_mul,
      Nat.one_mul]

/-- A line that starts with tabs is indented as far as they reach, at the least. -/
theorem tabs_le_exactIndentation (n : Nat) (rest : List Char) :
    n * tabWidth ≤ exactIndentation tabWidth (List.replicate n '\t' ++ rest) := by
  have hindents : ∀ c ∈ List.replicate n '\t', indents c = true := by
    intro c hc
    rw [List.eq_of_mem_replicate hc]
    rfl
  rw [exactIndentation, indent_append hindents, exactColumn_append, exactColumn_tabs htab]
  exact le_exactColumn htab _ _

end Bounds

/-- **More tabs indent further**, whatever comes behind them, if the columns do not wrap. -/
theorem indentation_lt_of_tabs {tabWidth : UInt64} (htab : 0 < tabWidth) {n m : Nat} (hnm : n < m)
    {line other : List Char} (hline : indent line = List.replicate n '\t')
    (hother : List.replicate m '\t' <+: other)
    (hfits : exactIndentation tabWidth.toNat other < 2 ^ 64) :
    Text.indentation tabWidth line < Text.indentation tabWidth other := by
  have htab' : 0 < tabWidth.toNat := UInt64.lt_iff_toNat_lt.1 htab
  obtain ⟨rest, rfl⟩ := hother
  have hexact : exactIndentation tabWidth.toNat line = n * tabWidth.toNat := by
    rw [exactIndentation, hline, exactColumn_tabs htab']
  have hlt : n * tabWidth.toNat < m * tabWidth.toNat := Nat.mul_lt_mul_of_pos_right hnm htab'
  have hle := tabs_le_exactIndentation htab' m rest
  rw [UInt64.lt_iff_toNat_lt, toNat_indentation htab hfits, toNat_indentation htab (by omega)]
  omega

/-- Of two places in a text, the one with the smaller offset comes first. -/
theorem exists_append_of_byteSize_lt {u v a b : List Char} (heq : u ++ v = a ++ b)
    (hlt : byteSize u < byteSize a) : ∃ w, w ≠ [] ∧ a = u ++ w := by
  have hu : u <+: a ++ b := heq ▸ List.prefix_append u v
  rcases List.prefix_or_prefix_of_prefix hu (List.prefix_append a b) with ⟨w, rfl⟩ | ⟨w, rfl⟩
  · refine ⟨w, ?_, rfl⟩
    rintro rfl
    rw [List.append_nil] at hlt
    exact Nat.lt_irrefl _ hlt
  · rw [byteSize_append] at hlt
    omega

end Text

/-! ## Places of a line -/

namespace Line

variable {arithmetic : Arithmetic} {tabWidth : UInt64} {line : Line}

/-- Where a column is told, the line is cut in two. -/
theorem exists_of_columnAt? {offset : Nat} {column : UInt64}
    (h : line.columnAt? arithmetic tabWidth offset = some column) :
    ∃ u v, u ++ v = line.chars ∧ byteSize u = offset ∧
      columnAfter? arithmetic tabWidth u = some column := by
  obtain ⟨u, htake, hcolumn⟩ := Option.bind_eq_some_iff.1 h
  obtain ⟨v, hchars, hsize⟩ := takeBytes?_eq_some.1 htake
  exact ⟨u, v, hchars.symm, hsize, hcolumn⟩

variable (htab : 0 < tabWidth)

include htab

/-- **Checked words tell exact columns**, and all of which there are words. -/
theorem columnAfter?_checked_iff {u : List Char} {column : UInt64} :
    columnAfter? .checked tabWidth u = some column ↔
      column.toNat = exactColumn tabWidth.toNat 0 u := by
  by_cases hfits : exactColumn tabWidth.toNat 0 u < 2 ^ 64
  · rw [columnAfter?_eq_of_fits htab hfits, Option.some.injEq, ← toNat_columnAfter htab hfits,
      UInt64.toNat_inj]
    exact eq_comm
  · have hstops : Arithmetic.checked.Stops UInt64.size (exactColumn tabWidth.toNat 0 u) :=
      Arithmetic.stops_checked_iff.2 (Nat.not_lt.1 hfits)
    rw [columnAfter?_eq htab, if_pos hstops]
    exact iff_of_false nofun fun h => hfits (h ▸ column.toNat_lt)

/-- A column is told exactly just if there is a word for it, in any arithmetic. -/
theorem map_columnAfter?_iff {u : List Char} :
    (columnAfter? arithmetic tabWidth u).map UInt64.toNat =
        some (exactColumn tabWidth.toNat 0 u) ↔
      exactColumn tabWidth.toNat 0 u < 2 ^ 64 := by
  constructor
  · intro h
    obtain ⟨column, -, hcolumn⟩ := Option.map_eq_some_iff.1 h
    exact hcolumn ▸ column.toNat_lt
  · intro hfits
    rw [columnAfter?_eq_of_fits htab hfits, Option.map_some, toNat_columnAfter htab hfits]

/-- The words tell the exact column at every place just if there is a word for the last one. -/
theorem columnAt?_exact_iff :
    (∀ u v, u ++ v = line.chars →
        (line.columnAt? arithmetic tabWidth (byteSize u)).map UInt64.toNat =
          some (exactColumn tabWidth.toNat 0 u)) ↔
      exactColumn tabWidth.toNat 0 line.chars < 2 ^ 64 := by
  constructor
  · intro hexact
    have hlast := hexact line.chars [] (List.append_nil line.chars)
    rw [columnAt?_byteSize (List.append_nil line.chars)] at hlast
    exact (map_columnAfter?_iff htab).1 hlast
  · intro hfits u v hchars
    rw [← hchars] at hfits
    rw [columnAt?_byteSize hchars]
    exact (map_columnAfter?_iff htab).2 (exactColumn_lt_of_append htab hfits)

/-- **Checked columns grow along the line**, as far as they are told. -/
theorem columnAt?_checked_lt {m n : Nat} {a b : UInt64} (hmn : m < n)
    (ha : line.columnAt? .checked tabWidth m = some a)
    (hb : line.columnAt? .checked tabWidth n = some b) : a < b := by
  obtain ⟨u, v, hchars, rfl, hu⟩ := exists_of_columnAt? ha
  obtain ⟨u', v', hchars', rfl, hu'⟩ := exists_of_columnAt? hb
  obtain ⟨w, hw, rfl⟩ := exists_append_of_byteSize_lt (hchars.trans hchars'.symm) hmn
  rw [UInt64.lt_iff_toNat_lt, (columnAfter?_checked_iff htab).1 hu,
    (columnAfter?_checked_iff htab).1 hu']
  exact exactColumn_lt_append (UInt64.lt_iff_toNat_lt.1 htab) 0 u hw

/-- Columns that wrap do not grow, and those that do not wrap are those that are checked. -/
theorem columnAt?_wrapping_grows_iff :
    (∀ m n a b, m < n → line.columnAt? .wrapping tabWidth m = some a →
        line.columnAt? .wrapping tabWidth n = some b → a < b) ↔
      exactColumn tabWidth.toNat 0 line.chars < 2 ^ 64 := by
  have hsome : ∀ u, columnAfter? .wrapping tabWidth u = some (columnAfter tabWidth u) := fun u =>
    (columnAfter?_eq htab u).trans (if_neg Arithmetic.not_stops_wrapping)
  constructor
  · intro hgrows
    refine exactColumn_lt_of_grows htab fun u c v hchars => ?_
    have hnext : (u ++ [c]) ++ v = line.chars := by
      rw [List.append_assoc, List.singleton_append, hchars]
    have hsize : byteSize u < byteSize (u ++ [c]) := by
      have hpos := c.utf8Size_pos
      rw [byteSize_append, byteSize_cons]
      omega
    exact hgrows _ _ _ _ hsize ((columnAt?_byteSize hchars).trans (hsome _))
      ((columnAt?_byteSize hnext).trans (hsome _))
  · intro hfits m n a b hmn ha hb
    obtain ⟨u, v, hchars, rfl, hu⟩ := exists_of_columnAt? ha
    obtain ⟨u', v', hchars', rfl, hu'⟩ := exists_of_columnAt? hb
    obtain ⟨w, hw, rfl⟩ := exists_append_of_byteSize_lt (hchars.trans hchars'.symm) hmn
    obtain rfl := Option.some.inj ((hsome _).symm.trans hu)
    obtain rfl := Option.some.inj ((hsome _).symm.trans hu')
    rw [← hchars'] at hfits
    exact columnAfter_lt_of_fits htab hw (exactColumn_lt_of_append htab hfits)

/-- The column of an indent, if there is a word for it. -/
theorem columnAt?_indentSize_of_fits
    (hfits : exactIndentation tabWidth.toNat line.chars < 2 ^ 64) :
    line.columnAt? arithmetic tabWidth line.indentSize = some (line.indentation tabWidth) := by
  rw [columnAt?_indentSize]
  exact columnAfter?_eq_of_fits htab hfits

end Line

namespace Settings

theorem tabWidth_pos_of_validate {settings : Settings} (h : settings.validate = .ok ()) :
    0 < settings.tabWidth := by
  unfold validate at h
  split at h
  · cases h
  · split at h
    · cases h
    · exact UInt64.pos_iff_ne_zero.2 ‹_›

/-- **Columns are exact as long as they are words.** Under valid settings, checked words tell the
exact column and no other, at every place for which there is one, and those columns grow along
the line. In any arithmetic, the exact column is told at all places of a line if and only if the
exact column at its end is a word, and that is so if the line has few enough characters for the
width of a tab. Words that wrap grow along the line if and only if that is so. The column of an
indent is told exactly if and only if it is a word, and then a line that starts with more tabs is
indented further than one that is indented by fewer tabs. -/
theorem columns_exact {settings : Settings} (h : settings.validate = .ok ()) (line : Line) :
    (∀ u v, u ++ v = line.chars → ∀ column,
      line.columnAt? .checked settings.tabWidth (byteSize u) = some column ↔
        column.toNat = exactColumn settings.tabWidth.toNat 0 u) ∧
    (∀ m n a b, m < n → line.columnAt? .checked settings.tabWidth m = some a →
      line.columnAt? .checked settings.tabWidth n = some b → a < b) ∧
    (∀ arithmetic, (∀ u v, u ++ v = line.chars →
        (line.columnAt? arithmetic settings.tabWidth (byteSize u)).map UInt64.toNat =
          some (exactColumn settings.tabWidth.toNat 0 u)) ↔
      exactColumn settings.tabWidth.toNat 0 line.chars < 2 ^ 64) ∧
    (line.chars.length * settings.tabWidth.toNat < 2 ^ 64 →
      exactColumn settings.tabWidth.toNat 0 line.chars < 2 ^ 64) ∧
    ((∀ m n a b, m < n → line.columnAt? .wrapping settings.tabWidth m = some a →
        line.columnAt? .wrapping settings.tabWidth n = some b → a < b) ↔
      exactColumn settings.tabWidth.toNat 0 line.chars < 2 ^ 64) ∧
    ∀ arithmetic,
      ((line.columnAt? arithmetic settings.tabWidth line.indentSize).map UInt64.toNat =
          some (exactIndentation settings.tabWidth.toNat line.chars) ↔
        exactIndentation settings.tabWidth.toNat line.chars < 2 ^ 64) ∧
      (exactIndentation settings.tabWidth.toNat line.chars < 2 ^ 64 →
        ∀ n m (other : Line), n < m → indent other.chars = List.replicate n '\t' →
          List.replicate m '\t' <+: line.chars → ∃ a b,
            other.columnAt? arithmetic settings.tabWidth other.indentSize = some a ∧
            line.columnAt? arithmetic settings.tabWidth line.indentSize = some b ∧ a < b) := by
  have htab := tabWidth_pos_of_validate h
  have htab' : 0 < settings.tabWidth.toNat := UInt64.lt_iff_toNat_lt.1 htab
  refine ⟨fun u v hchars column => ?_, fun m n a b => Line.columnAt?_checked_lt htab,
    fun _ => Line.columnAt?_exact_iff htab, fun hlength => ?_,
    Line.columnAt?_wrapping_grows_iff htab, fun arithmetic => ⟨?_, ?_⟩⟩
  · rw [Line.columnAt?_byteSize hchars, Line.columnAfter?_checked_iff htab]
  · have hle := exactColumn_le htab' 0 line.chars
    omega
  · rw [Line.columnAt?_indentSize]
    exact Line.map_columnAfter?_iff htab
  · intro hfits n m other hnm hother hline
    have hless : exactIndentation settings.tabWidth.toNat other.chars ≤
        exactIndentation settings.tabWidth.toNat line.chars := by
      obtain ⟨rest, hrest⟩ := hline
      have hle := tabs_le_exactIndentation htab' m rest
      have hmul := Nat.mul_le_mul_right settings.tabWidth.toNat (Nat.le_of_lt hnm)
      rw [exactIndentation, hother, exactColumn_tabs htab', ← hrest]
      omega
    exact ⟨_, _, Line.columnAt?_indentSize_of_fits htab (Nat.lt_of_le_of_lt hless hfits),
      Line.columnAt?_indentSize_of_fits htab hfits,
      indentation_lt_of_tabs htab hnm hother hline hfits⟩

/-- Tabs so wide that there is a word for the column of one and none for that of two. -/
theorem columns_exact_wide_tabs :
    let settings : Settings := { tabWidth := 9223372036854775808 }
    let one : Line := ⟨"\ta".toList, none⟩
    let two : Line := ⟨"\t\ta".toList, none⟩
    settings.validate = .ok () ∧
      one.columnAt? .checked settings.tabWidth 1 = some settings.tabWidth ∧
      (∀ column, two.columnAt? .checked settings.tabWidth 2 ≠ some column) ∧
      ¬ ∀ m n a b, m < n → two.columnAt? .wrapping settings.tabWidth m = some a →
        two.columnAt? .wrapping settings.tabWidth n = some b → a < b := by
  intro settings one two
  have hvalid : settings.validate = .ok () := by decide
  have hend : ¬ exactColumn settings.tabWidth.toNat 0 two.chars < 2 ^ 64 := by decide
  have htwo : exactColumn settings.tabWidth.toNat 0 ['\t', '\t'] = 2 ^ 64 := by decide
  obtain ⟨hone, -⟩ := columns_exact hvalid one
  obtain ⟨hchecked, -, -, -, hgrows, -⟩ := columns_exact hvalid two
  refine ⟨hvalid, (hone ['\t'] ['a'] rfl _).2 (by decide), fun column htold => ?_,
    fun h => hend (hgrows.1 h)⟩
  have hexact := (hchecked ['\t', '\t'] ['a'] rfl column).1 htold
  exact absurd column.toNat_lt (by rw [hexact, htwo]; exact Nat.lt_irrefl _)

/-- **Columns may not be words under valid settings.** Then the count stops if the words are
checked; and if they wrap, the column that is told is not the exact one, and two tabs may be
indented less than one. -/
theorem not_forall_columns_exact :
    (¬ ∀ settings : Settings, settings.validate = .ok () → ∀ line : Line,
      (line.columnAt? .checked settings.tabWidth line.indentSize).isSome = true) ∧
    (¬ ∀ settings : Settings, settings.validate = .ok () → ∀ line : Line,
      (line.columnAt? .wrapping settings.tabWidth line.indentSize).map UInt64.toNat =
        some (exactIndentation settings.tabWidth.toNat line.chars)) ∧
    ¬ ∀ settings : Settings, settings.validate = .ok () → ∀ (line other : Line) (n m : Nat),
      n < m → indent line.chars = List.replicate n '\t' →
        indent other.chars = List.replicate m '\t' →
          ∀ a b, line.columnAt? .wrapping settings.tabWidth line.indentSize = some a →
            other.columnAt? .wrapping settings.tabWidth other.indentSize = some b → a ≤ b := by
  refine ⟨fun h => ?_, fun h => ?_, fun h => ?_⟩
  · have hsome := h { tabWidth := 9223372036854775808 } (by decide) ⟨"\t\tb:".toList, none⟩
    exact absurd hsome (by decide)
  · have hexact := h { tabWidth := 9223372036854775808 } (by decide) ⟨"\t\tb:".toList, none⟩
    exact absurd hexact (by decide)
  · have hle := h { tabWidth := 9223372036854775808 } (by decide) ⟨"\ta:".toList, none⟩
      ⟨"\t\tb:".toList, none⟩ 1 2 (by decide) (by decide) (by decide) 9223372036854775808 0
      (by decide) (by decide)
    exact absurd hle (by decide)

end Settings

end Breadcrumb
