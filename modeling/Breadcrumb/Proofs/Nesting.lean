import Breadcrumb.Proofs.Locate
import Breadcrumb.Proofs.Reindentation

/-!
# Documents below one more line

A whole document may be put below a line of its own, the top, by indenting all its lines by
as many tab stops. Its lines are what they were, and their columns keep their order; the top
is indented less than any of them, so it encloses them all.

* `toNat_indentation_nest`: every column moves by the width of the tab stops.
* `encloses_nest`, `trailLines_nest`: the top encloses all lines, so every climb ends there.
* `nest_keys`: every key path gets the tag of the top in front, and nothing else.
-/

namespace Breadcrumb

open Text

/-- A crumb of a line that has got one more line above it and stands further in. -/
def Crumb.below (columns : Nat) (crumb : Crumb) : Crumb where
  line := crumb.line + 1
  indentation := UInt64.ofNat (columns + crumb.indentation.toNat)
  tag := crumb.tag

namespace Document

variable {doc : Document}

/-- The document below the line `top`, further in by `m` tab stops. -/
def nest (doc : Document) (top : List Char) (m : Nat) : Document :=
  doc.withTexts (top :: doc.texts.map (List.replicate (m * doc.tabWidth.toNat) ' ' ++ ·))

variable {top : List Char} {m : Nat}

theorem tabWidth_nest : (doc.nest top m).tabWidth = doc.tabWidth := tabWidth_withTexts _

theorem texts_nest :
    (doc.nest top m).texts =
      top :: doc.texts.map (List.replicate (m * doc.tabWidth.toNat) ' ' ++ ·) :=
  texts_withTexts (List.cons_ne_nil _ _)

theorem line?_nest_zero : (doc.nest top m).line? 0 = some ⟨top, none⟩ := by
  rw [line?_eq, texts_nest]
  rfl

theorem texts_nest_succ (i : Nat) :
    (doc.nest top m).texts[i + 1]? =
      doc.texts[i]?.map (List.replicate (m * doc.tabWidth.toNat) ' ' ++ ·) := by
  rw [texts_nest, List.getElem?_cons_succ, List.getElem?_map]

theorem indentation_nest_zero (hcolumn : Text.indentation doc.tabWidth top = 0) :
    (doc.nest top m).indentation 0 = 0 := by
  unfold indentation
  rw [line?_nest_zero, tabWidth_nest]
  exact hcolumn

theorem crumb_nest_zero (hcolumn : Text.indentation doc.tabWidth top = 0) :
    (doc.nest top m).crumb 0 = ⟨0, 0, (Line.mk top none).tag doc.tabWidth⟩ := by
  have hzero : (doc.nest top m).indentation 0 = 0 := indentation_nest_zero hcolumn
  have htag : (doc.nest top m).tag 0 = (Line.mk top none).tag doc.tabWidth := by
    unfold tag
    rw [line?_nest_zero, tabWidth_nest]
    rfl
  rw [crumb, hzero, htag]

/-- Tab stops in front of a line move the column of its indent by their width. -/
theorem exactIndentation_tabStops_append (chars : List Char) :
    exactIndentation doc.tabWidth.toNat (List.replicate (m * doc.tabWidth.toNat) ' ' ++ chars) =
      m * doc.tabWidth.toNat + exactIndentation doc.tabWidth.toNat chars := by
  have htab : 0 < doc.tabWidth.toNat := UInt64.lt_iff_toNat_lt.1 doc.tabWidth_pos
  rw [exactIndentation_spaces_append]
  exact exactColumn_add htab m 0 (indent chars)

section Nest

variable (hfits : (doc.nest top m).ColumnsFit)

include hfits

/-- Columns that do not wrap further in do not wrap. -/
theorem exactIndentation_lt_of_nest {chars : List Char} (hchars : chars ∈ doc.texts) :
    m * doc.tabWidth.toNat + exactIndentation doc.tabWidth.toNat chars < 2 ^ 64 := by
  have hmem : List.replicate (m * doc.tabWidth.toNat) ' ' ++ chars ∈ (doc.nest top m).texts := by
    rw [texts_nest]
    exact List.mem_cons_of_mem top (List.mem_map.2 ⟨chars, hchars, rfl⟩)
  have hlt := hfits _ hmem
  rwa [tabWidth_nest, exactIndentation_tabStops_append] at hlt

theorem columnsFit_of_nest : doc.ColumnsFit := by
  intro chars hchars
  have hlt := exactIndentation_lt_of_nest hfits hchars
  omega

/-- **Every column moves by the width of the tab stops.** -/
theorem toNat_indentation_nest {i : Nat} (hi : i < doc.lines.size) :
    ((doc.nest top m).indentation (i + 1)).toNat =
      m * doc.tabWidth.toNat + (doc.indentation i).toNat := by
  rw [← length_texts] at hi
  have hchars : doc.texts[i]? = some doc.texts[i] := List.getElem?_eq_getElem hi
  have hchars' : (doc.nest top m).texts[i + 1]? =
      some (List.replicate (m * doc.tabWidth.toNat) ' ' ++ doc.texts[i]) := by
    rw [texts_nest_succ, hchars, Option.map_some]
  rw [hfits.toNat_indentation hchars', (columnsFit_of_nest hfits).toNat_indentation hchars,
    tabWidth_nest, exactIndentation_tabStops_append]

variable (hquoting : quotingAfter none top = none)

include hquoting

theorem reindents_nest : doc.Reindents (doc.nest top m) 1 where
  opening := by
    rw [openingAt_succ, texts_nest]
    exact hquoting
  unindent_eq := fun i => by
    rw [texts_nest_succ, Option.map_map]
    congr 1
    funext chars
    exact unindent_append (fun c hc => indents_of_mem_spaces hc) chars
  fits := columnsFit_of_nest hfits
  fits' := hfits

/-- **The structure is carried along** below the top. -/
theorem embeds_nest : doc.Embeds (doc.nest top m) (· + 1) where
  lt_iff := Nat.add_lt_add_iff_right
  isStructural := (reindents_nest hfits hquoting).isStructural_eq
  exists_eq_of_lt := fun {i k} hk _ => ⟨k - 1, by omega⟩
  indentation_lt_iff := fun {i j} hi hj => by
    rw [UInt64.lt_iff_toNat_lt, UInt64.lt_iff_toNat_lt,
      toNat_indentation_nest hfits (lt_size_of_isStructural hi),
      toNat_indentation_nest hfits (lt_size_of_isStructural hj), Nat.add_lt_add_iff_left]

theorem crumb_nest {i : Nat} (hi : doc.isStructural i = true) :
    (doc.nest top m).crumb (i + 1) = (doc.crumb i).below (m * doc.tabWidth.toNat) := by
  have htag : (doc.nest top m).tag (i + 1) = doc.tag i := (reindents_nest hfits hquoting).tag_eq i
  have hcolumn := toNat_indentation_nest hfits (lt_size_of_isStructural hi)
  have hword := congrArg UInt64.ofNat hcolumn
  rw [UInt64.ofNat_toNat] at hword
  rw [crumb, htag, hword]
  rfl

variable (hrole : (Line.mk top none).role = .structural)
  (hcolumn : Text.indentation doc.tabWidth top = 0) (hm : 1 ≤ m)

include hrole hcolumn hm

/-- The top is a structural line that is indented less than any other. -/
theorem encloses_nest {i : Nat} (hi : doc.isStructural i = true) :
    (doc.nest top m).Encloses ((doc.nest top m).indentation (i + 1)) (i + 1) 0 := by
  have htop : (doc.nest top m).isStructural 0 = true := by
    unfold isStructural
    rw [line?_nest_zero, Option.any_some, hrole]
    rfl
  have hless : ∀ j, doc.isStructural j = true →
      (doc.nest top m).indentation 0 < (doc.nest top m).indentation (j + 1) := by
    intro j hj
    have hpos : 0 < m * doc.tabWidth.toNat :=
      Nat.mul_pos hm (UInt64.lt_iff_toNat_lt.1 doc.tabWidth_pos)
    have hj := toNat_indentation_nest hfits (lt_size_of_isStructural hj)
    rw [indentation_nest_zero hcolumn, UInt64.lt_iff_toNat_lt, hj, UInt64.toNat_zero]
    omega
  refine ⟨Nat.succ_pos i, htop, hless i hi, fun k h1 _ h3 => ?_⟩
  obtain ⟨j, rfl⟩ : ∃ j, k = j + 1 := ⟨k - 1, by omega⟩
  rw [(reindents_nest hfits hquoting).isStructural_eq] at h3
  exact hless j h3

/-- **The top comes first**, and the others as before. -/
theorem trailLines_nest {i : Nat} (hi : doc.isStructural i = true) :
    (doc.nest top m).trailLines (i + 1) = [0] ++ (doc.trailLines i).map (· + 1) := by
  refine (embeds_nest hfits hquoting).trailLines_eq hi (List.pairwise_singleton _ 0)
    (fun k hk j => ?_) fun k hne => ?_
  · rw [List.mem_singleton.1 hk]
    exact Nat.succ_pos j
  · -- the only line that comes from nowhere is the top
    obtain rfl : k = 0 := by
      by_contra hk
      exact hne (k - 1) (by omega)
    exact ⟨fun _ => List.mem_singleton_self 0,
      fun _ => encloses_nest hfits hquoting hrole hcolumn hm hi⟩

theorem trail?_nest (i : Nat) :
    (doc.nest top m).trail? (i + 1) = (doc.trail? i).map fun trail =>
      ⟨0, 0, (Line.mk top none).tag doc.tabWidth⟩ ::
        trail.map (Crumb.below (m * doc.tabWidth.toNat)) := by
  have htrail := trail?_eq_of_trailLines ((reindents_nest hfits hquoting).isStructural_eq i)
    (fun hi => trailLines_nest hfits hquoting hrole hcolumn hm hi)
    (fun j hj => crumb_nest hfits hquoting hj)
  rw [htrail, List.map_singleton, crumb_nest_zero hcolumn]
  rfl

end Nest

/-- **Nesting puts one key in front.** Put a structural line in column 0, which leaves no
quote open, above a document, and the whole document below it, further in by one tab stop
or more. If no column wraps, every line keeps its role and stands further in by exactly that
many columns. Its trail, keys and path get those of the top in front, and are otherwise as
they were. -/
theorem nest_keys (doc : Document) {top : List Char} {m : Nat} (hm : 1 ≤ m)
    (hrole : (Line.mk top none).role = .structural)
    (hcolumn : Text.indentation doc.tabWidth top = 0)
    (hquoting : quotingAfter none top = none) (hfits : (doc.nest top m).ColumnsFit) :
    let after := doc.nest top m
    let key := (Line.mk top none).tag doc.tabWidth
    let width := m * doc.tabWidth.toNat
    after.line? 0 = some ⟨top, none⟩ ∧
    ∀ i, (after.line? (i + 1)).map Line.role = (doc.line? i).map Line.role ∧
      (i < doc.lines.size →
        (after.indentation (i + 1)).toNat = width + (doc.indentation i).toNat) ∧
      after.trail? (i + 1) =
        (doc.trail? i).map (fun trail => ⟨0, 0, key⟩ :: trail.map (Crumb.below width)) ∧
      after.keys? (i + 1) = (doc.keys? i).map (key :: ·) ∧
      ∀ settings, after.path? settings (i + 1) = (doc.path? settings i).map fun path =>
        (if settings.escapes then KeyPath.escape settings.separator key else key) ++
          settings.separator ++ path := by
  intro after key width
  refine ⟨line?_nest_zero, fun i => ?_⟩
  have htrail := trail?_nest hfits hquoting hrole hcolumn hm i
  have hkeys : after.keys? (i + 1) = (doc.keys? i).map (key :: ·) := by
    unfold keys?
    rw [htrail, Option.map_map, Option.map_map]
    congr 1
    funext trail
    have htags : (trail.map (Crumb.below width)).map Crumb.tag = trail.map Crumb.tag := by
      rw [List.map_map]
      rfl
    exact congrArg (key :: ·) htags
  refine ⟨(reindents_nest hfits hquoting).map_role_eq i, toNat_indentation_nest hfits, htrail,
    hkeys, fun settings => ?_⟩
  unfold path?
  rw [hkeys]
  cases hi : doc.keys? i with
  | none => rfl
  | some keys => exact congrArg some (KeyPath.join_cons _ _ _ (ne_nil_of_keys? hi))

/-- A top with the separator in its key and a quotation mark in its comment. The document
starts further in, and one of its lines starts inside of quotes. -/
theorem nest_keys_escaped :
    let doc := ofText "  x: 'q\n # z'\n\t- y.z: 1\n  \n# c\n".toList 4
    let top := "a.b: # 'c".toList
    let settings : Settings := { escapes := true }
    (1 ≤ 2 ∧ (Line.mk top none).role = .structural ∧ Text.indentation doc.tabWidth top = 0 ∧
        quotingAfter none top = none ∧ (doc.nest top 2).ColumnsFit) ∧
      (doc.nest top 2).keys? 3 = some ["a.b", "#", "-"] ∧
      (doc.nest top 2).path? settings 3 = some "a\\.b.#.-" := by
  intro doc top settings
  have hm : 1 ≤ 2 := by decide
  have hrole : (Line.mk top none).role = .structural := by decide
  have hcolumn : Text.indentation doc.tabWidth top = 0 := by decide
  have hquoting : quotingAfter none top = none := by decide
  have hfits : (doc.nest top 2).ColumnsFit := by decide
  obtain ⟨-, hafter⟩ := nest_keys doc hm hrole hcolumn hquoting hfits
  obtain ⟨-, -, -, hkeys, hpath⟩ := hafter 2
  refine ⟨⟨hm, hrole, hcolumn, hquoting, hfits⟩, ?_, ?_⟩
  · rw [hkeys]
    decide +kernel
  · rw [hpath settings]
    decide +kernel

end Document

end Breadcrumb
