import Breadcrumb.Proofs.Specifications
import Breadcrumb.Text.Lines
import Mathlib.Data.List.DropRight
import Mathlib.Data.List.Forall2
import Mathlib.Logic.Relation

/-!
# What thresholds depend on

Thresholds are read from lists of specifications. How the specifications are spread over lists, how
each of them is spelled, and in which order those of different components come makes no
difference: all that matters to the limit of a target is the last setting of each component.

* `Specification.given_map_joinPieces`: pieces are found again, however they are spread.
* `Thresholds.parse_eq_ok_iff`, `Thresholds.parse_eq_error_iff`: when the lists can be read.
* `Thresholds.limit_eq_iff`: the rule that limits follow.
* `Specification.Rearranges.sameSettings`: what keeps the last settings.
* `Thresholds.parse_limits`: all of it for lists of specifications.
-/

namespace Breadcrumb

/-! ## Reading one after the other -/

section MapM

variable {α β ε : Type} {f : α → Except ε β} {l : List α}

theorem mapM_cons_eq_ok_iff {a : α} {found : List β} :
    (a :: l).mapM f = .ok found ↔
      ∃ b bs, f a = .ok b ∧ l.mapM f = .ok bs ∧ found = b :: bs := by
  rw [List.mapM_cons]
  cases f a with
  | error e => simp [bind, Except.bind]
  | ok b =>
    cases l.mapM f with
    | error e => simp [bind, Except.bind]
    | ok bs => simp [bind, Except.bind, pure, Except.pure, eq_comm]

theorem mapM_eq_ok_iff {found : List β} :
    l.mapM f = .ok found ↔ List.Forall₂ (fun a b => f a = .ok b) l found := by
  induction l generalizing found with
  | nil =>
    rw [List.mapM_nil, List.forall₂_nil_left_iff]
    constructor
    · intro h
      exact (Except.ok.inj h).symm
    · rintro rfl
      rfl
  | cons a l ih =>
    rw [mapM_cons_eq_ok_iff, List.forall₂_cons_left_iff]
    simp only [ih]

/-- The first failure is the failure of all. -/
theorem mapM_eq_error_iff {error : ε} :
    l.mapM f = .error error ↔ ∃ before a after, l = before ++ a :: after ∧
      (∀ b ∈ before, ∃ found, f b = .ok found) ∧ f a = .error error := by
  induction l with
  | nil =>
    rw [List.mapM_nil]
    constructor
    · intro h
      cases h
    · rintro ⟨before, a, after, hnil, -⟩
      exact absurd hnil.symm (List.append_ne_nil_of_right_ne_nil before (List.cons_ne_nil a after))
  | cons b l ih =>
    cases hb : f b with
    | error e =>
      have hfirst : (b :: l).mapM f = .error e := by
        rw [List.mapM_cons, hb]
        rfl
      rw [hfirst]
      constructor
      · intro h
        obtain rfl := Except.error.inj h
        exact ⟨[], b, l, rfl, fun _ h => absurd h List.not_mem_nil, hb⟩
      · rintro ⟨before, a, after, hsplit, hok, ha⟩
        cases before with
        | nil =>
          obtain ⟨rfl, -⟩ := List.cons.inj hsplit
          exact congrArg Except.error (Except.error.inj (hb.symm.trans ha))
        | cons c before =>
          obtain ⟨rfl, -⟩ := List.cons.inj hsplit
          obtain ⟨found, hfound⟩ := hok b List.mem_cons_self
          cases hb.symm.trans hfound
    | ok found =>
      have hlater : (b :: l).mapM f = .error error ↔ l.mapM f = .error error := by
        rw [List.mapM_cons, hb]
        cases l.mapM f <;> simp [bind, Except.bind, pure, Except.pure]
      rw [hlater, ih]
      constructor
      · rintro ⟨before, a, after, rfl, hok, ha⟩
        exact ⟨b :: before, a, after, rfl, List.forall_mem_cons.2 ⟨⟨found, hb⟩, hok⟩, ha⟩
      · rintro ⟨before, a, after, hsplit, hok, ha⟩
        cases before with
        | nil =>
          obtain ⟨rfl, -⟩ := List.cons.inj hsplit
          cases hb.symm.trans ha
        | cons c before =>
          obtain ⟨rfl, rfl⟩ := List.cons.inj hsplit
          exact ⟨before, a, after, rfl, (List.forall_mem_cons.1 hok).2, ha⟩

theorem exists_mapM_ok_iff :
    (∃ found, l.mapM f = .ok found) ↔ ∀ a ∈ l, ∃ found, f a = .ok found := by
  induction l with
  | nil => exact ⟨fun _ _ h => absurd h List.not_mem_nil, fun _ => ⟨[], rfl⟩⟩
  | cons a l ih =>
    rw [List.forall_mem_cons, ← ih]
    constructor
    · rintro ⟨found, h⟩
      obtain ⟨b, bs, ha, hl, -⟩ := mapM_cons_eq_ok_iff.1 h
      exact ⟨⟨b, ha⟩, bs, hl⟩
    · rintro ⟨⟨b, ha⟩, bs, hl⟩
      exact ⟨b :: bs, mapM_cons_eq_ok_iff.2 ⟨b, bs, ha, hl, rfl⟩⟩

end MapM

namespace Text

/-- What is trimmed has no blanks to trim. -/
theorem trim_trim (text : List Char) : trim (trim text) = trim text := by
  have hfront : (trim text).dropWhile isBlank = trim text := by
    obtain ⟨rest, hrest⟩ := List.rdropWhile_prefix isBlank (text.dropWhile isBlank)
    have hhead := List.head?_dropWhile_not isBlank text
    rw [← hrest] at hhead
    change (List.rdropWhile isBlank (text.dropWhile isBlank)).dropWhile isBlank =
      List.rdropWhile isBlank (text.dropWhile isBlank)
    cases htext : List.rdropWhile isBlank (text.dropWhile isBlank) with
    | nil => rfl
    | cons c more =>
      rw [htext] at hhead
      have hc : isBlank c = false := hhead
      rw [List.dropWhile_cons, hc]
      rfl
  have hback : List.rdropWhile isBlank (trim text) = trim text :=
    List.rdropWhile_idempotent isBlank (text.dropWhile isBlank)
  calc trim (trim text) = List.rdropWhile isBlank ((trim text).dropWhile isBlank) := rfl
    _ = trim text := by rw [hfront, hback]

theorem mem_of_mem_trim {text : List Char} {c : Char} (h : c ∈ trim text) : c ∈ text := by
  have hfront := (List.rdropWhile_prefix isBlank (text.dropWhile isBlank)).subset h
  exact (List.dropWhile_suffix isBlank).subset hfront

end Text

namespace Specification

/-! ## Pieces and lists -/

/-- The pieces of some lists, in their order. -/
def given (lists : List String) : List (List Char) := lists.flatMap fun list => pieces list.toList

/-- The list that is made of some pieces. -/
def joinPieces (group : List (List Char)) : String := String.ofList ([','].intercalate group)

/-- A piece of a list is not empty, and neither blanks around it nor commas belong to it. -/
structure IsPiece (piece : List Char) : Prop where
  ne_nil : piece ≠ []
  trim_eq : Text.trim piece = piece
  not_mem : ',' ∉ piece

theorem isPiece_of_mem_given {lists : List String} {piece : List Char} (h : piece ∈ given lists) :
    IsPiece piece := by
  obtain ⟨list, -, hpiece⟩ := List.mem_flatMap.1 h
  obtain ⟨hmem, hne⟩ := List.mem_filter.1 hpiece
  obtain ⟨part, hpart, rfl⟩ := List.mem_map.1 hmem
  refine ⟨by simpa using hne, Text.trim_trim part, fun hcomma => ?_⟩
  exact Text.not_mem_of_mem_splitOn hpart (Text.mem_of_mem_trim hcomma)

theorem pieces_joinPieces {group : List (List Char)} (h : ∀ piece ∈ group, IsPiece piece) :
    pieces (joinPieces group).toList = group := by
  unfold pieces joinPieces
  rw [String.toList_ofList]
  by_cases hempty : group = []
  · rw [hempty]
    rfl
  · have htrim : group.map Text.trim = group :=
      (List.map_congr_left fun piece hpiece => (h piece hpiece).trim_eq).trans (List.map_id group)
    rw [List.splitOn_intercalate ',' (fun piece hpiece => (h piece hpiece).not_mem) hempty, htrim,
      List.filter_eq_self]
    intro piece hpiece
    simpa using (h piece hpiece).ne_nil

/-- **Pieces are found again**, however they are spread over lists. -/
theorem given_map_joinPieces {groups : List (List (List Char))}
    (h : ∀ piece ∈ groups.flatten, IsPiece piece) :
    given (groups.map joinPieces) = groups.flatten := by
  unfold given
  rw [List.flatMap_map, ← List.flatMap_id']
  refine List.flatMap_congr fun group hgroup => ?_
  exact pieces_joinPieces fun piece hpiece => h piece (List.mem_flatten.2 ⟨group, hgroup, hpiece⟩)

/-! ## Settings -/

/-- The specifications are what the pieces are read as. -/
def ReadAs (pieces : List (List Char)) (specifications : List Specification) : Prop :=
  List.Forall₂ (fun piece s => parse piece = .ok s) pieces specifications

variable {specifications : List Specification} {component : List Char} {s : Specification}

theorem readAs_cons_iff {piece : List Char} {pieces : List (List Char)} :
    ReadAs (piece :: pieces) specifications ↔ ∃ s rest,
      parse piece = .ok s ∧ ReadAs pieces rest ∧ specifications = s :: rest :=
  List.forall₂_cons_left_iff

theorem readAs_append_iff {u v : List (List Char)} :
    ReadAs (u ++ v) specifications ↔
      ∃ first second, ReadAs u first ∧ ReadAs v second ∧ specifications = first ++ second := by
  induction u generalizing specifications with
  | nil => simp [ReadAs]
  | cons piece u ih =>
    rw [List.cons_append, readAs_cons_iff]
    constructor
    · rintro ⟨s, rest, hs, hrest, rfl⟩
      obtain ⟨first, second, hfirst, hsecond, rfl⟩ := ih.1 hrest
      exact ⟨s :: first, second, List.Forall₂.cons hs hfirst, hsecond, rfl⟩
    · rintro ⟨first, second, hfirst, hsecond, rfl⟩
      obtain ⟨s, rest, hs, hrest, rfl⟩ := readAs_cons_iff.1 hfirst
      exact ⟨s, rest ++ second, hs, ih.2 ⟨rest, second, hrest, hsecond, rfl⟩, rfl⟩

theorem readAs_respell (before after : List (List Char)) {piece piece' : List Char}
    (h : Respells piece piece') (specifications : List Specification) :
    ReadAs (before ++ piece :: after) specifications ↔
      ReadAs (before ++ piece' :: after) specifications := by
  rw [readAs_append_iff, readAs_append_iff]
  simp only [readAs_cons_iff, h.parse_iff]

/-- The last setting of a component. -/
def setting? (specifications : List Specification) (component : List Char) : Option Limit :=
  (specifications.filter fun s => s.component = component).getLast?.map Specification.limit

theorem setting?_eq_none_iff :
    setting? specifications component = none ↔ ∀ s ∈ specifications, s.component ≠ component := by
  unfold setting?
  rw [Option.map_eq_none_iff, List.getLast?_eq_none_iff, List.filter_eq_nil_iff]
  simp only [decide_eq_true_eq, ne_eq]

theorem isSome_setting?_iff :
    (setting? specifications component).isSome ↔ ∃ s ∈ specifications, s.component = component := by
  rw [← Option.ne_none_iff_isSome, ne_eq, setting?_eq_none_iff]
  simp

theorem setting?_append_cons {before after : List Specification}
    (h : ∀ other ∈ after, other.component ≠ s.component) :
    setting? (before ++ s :: after) s.component = some s.limit := by
  have hafter : after.filter (fun other => other.component = s.component) = [] :=
    List.filter_eq_nil_iff.2 fun other hother => by simpa using h other hother
  unfold setting?
  rw [List.filter_append, List.filter_cons_of_pos (by simp), hafter, List.getLast?_append]
  rfl

/-- Settings of different components can be exchanged. -/
theorem setting?_swap (before after : List Specification) {s' : Specification}
    (h : s.component ≠ s'.component) (component : List Char) :
    setting? (before ++ s :: s' :: after) component =
      setting? (before ++ s' :: s :: after) component := by
  unfold setting?
  rw [List.filter_append, List.filter_append]
  by_cases hs : s.component = component
  · -- the other one is about another component
    have hs' : s'.component ≠ component := fun hs' => h (hs.trans hs'.symm)
    simp [hs, hs']
  · simp [hs]

/-- Other pieces that may stand for the same: a piece is spelled otherwise, or it is exchanged with
the next one, which is about another component. -/
inductive Rearranges : List (List Char) → List (List Char) → Prop
  | respell (before after : List (List Char)) {piece piece' : List Char} :
      Respells piece piece' → Rearranges (before ++ piece :: after) (before ++ piece' :: after)
  | swap (before after : List (List Char)) {piece piece' : List Char} {s s' : Specification} :
      parse piece = .ok s → parse piece' = .ok s' → s.component ≠ s'.component →
      Rearranges (before ++ piece :: piece' :: after) (before ++ piece' :: piece :: after)

/-- If the one can be read, so can the other, and each component has the same last setting. -/
def SameSettings (given given' : List (List Char)) : Prop :=
  ∀ specifications, ReadAs given specifications → ∃ specifications',
    ReadAs given' specifications' ∧
      ∀ component, setting? specifications' component = setting? specifications component

theorem SameSettings.refl (given : List (List Char)) : SameSettings given given :=
  fun specifications h => ⟨specifications, h, fun _ => rfl⟩

theorem SameSettings.trans {first second third : List (List Char)} (h : SameSettings first second)
    (h' : SameSettings second third) : SameSettings first third := by
  intro specifications hread
  obtain ⟨specifications', hread', hsame⟩ := h specifications hread
  obtain ⟨specifications'', hread'', hsame'⟩ := h' specifications' hread'
  exact ⟨specifications'', hread'', fun component => (hsame' component).trans (hsame component)⟩

theorem sameSettings_swap (before after : List (List Char)) {piece piece' : List Char}
    {s' : Specification} (hs : parse piece = .ok s) (hs' : parse piece' = .ok s')
    (hne : s.component ≠ s'.component) :
    SameSettings (before ++ piece :: piece' :: after) (before ++ piece' :: piece :: after) := by
  intro specifications hread
  obtain ⟨first, second, hfirst, hsecond, rfl⟩ := readAs_append_iff.1 hread
  obtain ⟨t, more, ht, hmore, rfl⟩ := readAs_cons_iff.1 hsecond
  obtain ⟨t', rest, ht', hrest, rfl⟩ := readAs_cons_iff.1 hmore
  obtain rfl := Except.ok.inj (hs.symm.trans ht)
  obtain rfl := Except.ok.inj (hs'.symm.trans ht')
  have hswapped : ReadAs (piece' :: piece :: after) (s' :: s :: rest) :=
    List.Forall₂.cons hs' (List.Forall₂.cons hs hrest)
  exact ⟨first ++ s' :: s :: rest, readAs_append_iff.2 ⟨_, _, hfirst, hswapped, rfl⟩,
    setting?_swap first rest hne.symm⟩

/-- **Rearranging keeps the settings**, there and back. -/
theorem Rearranges.sameSettings {given given' : List (List Char)} (h : Rearranges given given') :
    SameSettings given given' ∧ SameSettings given' given := by
  cases h with
  | respell before after hrespells =>
    have hread := readAs_respell before after hrespells
    exact ⟨fun specifications h => ⟨specifications, (hread specifications).1 h, fun _ => rfl⟩,
      fun specifications h => ⟨specifications, (hread specifications).2 h, fun _ => rfl⟩⟩
  | swap before after hs hs' hne =>
    exact ⟨sameSettings_swap before after hs hs' hne,
      sameSettings_swap before after hs' hs hne.symm⟩

theorem sameSettings_of_eqvGen {given given' : List (List Char)}
    (h : Relation.EqvGen Rearranges given given') :
    SameSettings given given' ∧ SameSettings given' given := by
  induction h with
  | rel given given' h => exact h.sameSettings
  | refl given => exact ⟨.refl given, .refl given⟩
  | symm given given' _ ih => exact ih.symm
  | trans first second third _ _ ih ih' => exact ⟨ih.1.trans ih'.1, ih'.2.trans ih.2⟩

/-! ## The longest component -/

/-- The longer of two specifications, or the later one of equals. -/
def longer (best : Option Specification) (s : Specification) : Option Specification :=
  if best.any fun b => s.component.length < b.component.length then best else some s

/-- No specification in the list is longer, and those after it are shorter. -/
def IsLastLongest (specifications : List Specification) (s : Specification) : Prop :=
  ∃ before after, specifications = before ++ s :: after ∧
    (∀ other ∈ before, other.component.length ≤ s.component.length) ∧
    ∀ other ∈ after, other.component.length < s.component.length

theorem IsLastLongest.length_le {other : Specification} (h : IsLastLongest specifications s)
    (hother : other ∈ specifications) :
    other.component.length ≤ s.component.length := by
  obtain ⟨before, after, rfl, hbefore, hafter⟩ := h
  rcases List.mem_append.1 hother with hother | hother
  · exact hbefore other hother
  · rcases List.mem_cons.1 hother with rfl | hother
    · exact le_rfl
    · exact (hafter other hother).le

theorem IsLastLongest.mem (h : IsLastLongest specifications s) : s ∈ specifications := by
  obtain ⟨before, after, rfl, -⟩ := h
  exact List.mem_append_right before List.mem_cons_self

/-- The last longest specification is the last one about its component. -/
theorem IsLastLongest.setting?_eq (h : IsLastLongest specifications s) :
    setting? specifications s.component = some s.limit := by
  obtain ⟨before, after, rfl, -, hafter⟩ := h
  exact setting?_append_cons fun other hother heq => (hafter other hother).ne (by rw [heq])

theorem IsLastLongest.concat {t : Specification} (h : IsLastLongest specifications s)
    (ht : t.component.length < s.component.length) :
    IsLastLongest (specifications ++ [t]) s := by
  obtain ⟨before, after, rfl, hbefore, hafter⟩ := h
  refine ⟨before, after ++ [t], by simp, hbefore, List.forall_mem_append.2 ⟨hafter, ?_⟩⟩
  rintro other hother
  rwa [List.mem_singleton.1 hother]

/-- The last longest one of all is found. -/
theorem foldl_longer (specifications : List Specification) :
    (specifications.foldl longer none = none ∧ specifications = []) ∨
      ∃ s, specifications.foldl longer none = some s ∧ IsLastLongest specifications s := by
  induction specifications using List.reverseRecOn with
  | nil => exact Or.inl ⟨rfl, rfl⟩
  | append_singleton specifications t ih =>
    right
    rw [List.foldl_append]
    rcases ih with ⟨hfold, rfl⟩ | ⟨s, hfold, hlast⟩
    · exact ⟨t, rfl, [], [], rfl, by simp, by simp⟩
    · rw [hfold]
      by_cases ht : t.component.length < s.component.length
      · exact ⟨s, by simp [longer, ht], hlast.concat ht⟩
      · refine ⟨t, by simp [longer, ht], specifications, [], rfl, fun other hother => ?_, by simp⟩
        exact (hlast.length_le hother).trans (not_lt.1 ht)

/-- Only what covers the component counts for its setting. -/
theorem setting?_filter {target : List Char} (h : isWithin component target = true) :
    setting? (specifications.filter fun s => isWithin s.component target) component =
      setting? specifications component := by
  unfold setting?
  rw [List.filter_filter]
  congr 2
  refine List.filter_congr fun s _ => ?_
  by_cases hs : s.component = component <;> simp [hs, h]

end Specification

namespace Thresholds

open Specification

/-! ## The rule -/

/-- The limit that a target has by the rule: what its own component was set to last; or else what
the longest of those components was set to last that are set and that the target is below; or else
what is set for all. -/
inductive Governs (thresholds : Thresholds) (target : List Char) : Limit → Prop
  | exact {limit : Limit} : setting? thresholds.specifications target = some limit →
      Governs thresholds target limit
  | outer {name : List Char} {limit : Limit} : setting? thresholds.specifications target = none →
      name ++ separator <+: target → setting? thresholds.specifications name = some limit →
      (∀ other, other ++ separator <+: target →
        (setting? thresholds.specifications other).isSome → other.length ≤ name.length) →
      Governs thresholds target limit
  | general : setting? thresholds.specifications target = none →
      (∀ other, other ++ separator <+: target →
        setting? thresholds.specifications other = none) →
      Governs thresholds target thresholds.general

variable {thresholds : Thresholds} {target : List Char}

/-- A target is below one name of each length at most. -/
theorem eq_of_below {name name' : List Char} (h : name ++ separator <+: target)
    (h' : name' ++ separator <+: target) (hlength : name.length = name'.length) : name = name' := by
  have hfront : name <+: target := (List.prefix_append name separator).trans h
  have hfront' : name' <+: target := (List.prefix_append name' separator).trans h'
  exact (List.prefix_of_prefix_length_le hfront hfront' hlength.le).eq_of_length hlength

/-- At most one limit is due to a target. -/
theorem Governs.unique {limit limit' : Limit} (h : thresholds.Governs target limit)
    (h' : thresholds.Governs target limit') : limit = limit' := by
  cases h with
  | exact hset =>
    cases h' with
    | exact hset' => exact Option.some.inj (hset.symm.trans hset')
    | outer hunset' => cases hset.symm.trans hunset'
    | general hunset' => cases hset.symm.trans hunset'
  | @outer name _ hunset hbelow hset hlongest =>
    cases h' with
    | exact hset' => cases hunset.symm.trans hset'
    | @outer name' _ _ hbelow' hset' hlongest' =>
      -- each of the two names is at least as long as the other
      have hle := hlongest' name hbelow (Option.isSome_of_eq_some hset)
      have hge := hlongest name' hbelow' (Option.isSome_of_eq_some hset')
      rw [eq_of_below hbelow hbelow' (Nat.le_antisymm hle hge)] at hset
      exact Option.some.inj (hset.symm.trans hset')
    | general _ hnone' => cases hset.symm.trans (hnone' name hbelow)
  | general hunset hnone =>
    cases h' with
    | exact hset' => cases hunset.symm.trans hset'
    | @outer name' _ _ hbelow' hset' => cases (hnone name' hbelow').symm.trans hset'
    | general => rfl

theorem limit_eq (thresholds : Thresholds) (target : List Char) :
    thresholds.limit target =
      ((thresholds.specifications.filter fun s => isWithin s.component target).foldl longer
        none).elim thresholds.general Specification.limit := rfl

/-- The limit of each target is the one that is due to it. -/
theorem governs_limit (thresholds : Thresholds) (target : List Char) :
    thresholds.Governs target (thresholds.limit target) := by
  rw [limit_eq]
  rcases foldl_longer (thresholds.specifications.filter fun s => isWithin s.component target) with
    ⟨hfold, hnil⟩ | ⟨s, hfold, hlast⟩
  · have hnone : ∀ name, isWithin name target = true →
        setting? thresholds.specifications name = none := by
      intro name hname
      rw [← setting?_filter hname, hnil]
      rfl
    rw [hfold]
    exact .general (hnone target (isWithin_iff.2 (.inl rfl)))
      fun other hother => hnone other (isWithin_iff.2 (.inr hother))
  · have hwithin : isWithin s.component target = true := (List.mem_filter.1 hlast.mem).2
    have hset : setting? thresholds.specifications s.component = some s.limit :=
      (setting?_filter hwithin).symm.trans hlast.setting?_eq
    have hlongest : ∀ other, isWithin other target = true →
        (setting? thresholds.specifications other).isSome →
        other.length ≤ s.component.length := by
      intro other hother hsome
      obtain ⟨t, ht, rfl⟩ := isSome_setting?_iff.1 hsome
      exact hlast.length_le (List.mem_filter.2 ⟨ht, hother⟩)
    rw [hfold]
    rcases isWithin_iff.1 hwithin with rfl | hbelow
    · exact .exact hset
    · have hunset : setting? thresholds.specifications target = none := by
        -- the target itself is longer than what is set for the longest component
        by_contra hsome
        have hle := hlongest target (isWithin_iff.2 (.inl rfl)) (Option.ne_none_iff_isSome.1 hsome)
        have hlt := hbelow.length_le
        rw [List.length_append] at hlt
        have hseparator : separator.length = 2 := rfl
        omega
      exact .outer hunset hbelow hset fun other hother =>
        hlongest other (isWithin_iff.2 (.inr hother))

/-- **Limits follow the rule.** -/
theorem limit_eq_iff {limit : Limit} :
    thresholds.limit target = limit ↔ thresholds.Governs target limit := by
  constructor
  · rintro rfl
    exact governs_limit thresholds target
  · intro h
    exact (governs_limit thresholds target).unique h

/-- Only the last settings matter. -/
theorem limit_eq_of_setting? {thresholds' : Thresholds}
    (hgeneral : thresholds'.general = thresholds.general)
    (hset : ∀ component, setting? thresholds'.specifications component =
      setting? thresholds.specifications component) :
    thresholds'.limit target = thresholds.limit target := by
  rw [limit_eq_iff]
  generalize hlimit : thresholds.limit target = limit
  cases limit_eq_iff.1 hlimit with
  | exact h => exact .exact ((hset target).trans h)
  | @outer name _ hunset hbelow h hlongest =>
    refine .outer ((hset target).trans hunset) hbelow ((hset name).trans h) ?_
    intro other hother hsome
    rw [hset other] at hsome
    exact hlongest other hother hsome
  | general hunset hnone =>
    rw [← hgeneral]
    exact .general ((hset target).trans hunset) fun other hother =>
      (hset other).trans (hnone other hother)

/-! ## Lists of specifications -/

variable {verbosity : Nat} {lists : List String}

theorem parse_eq (verbosity : Nat) (lists : List String) :
    parse verbosity lists =
      ((given lists).mapM Specification.parse).map fun specifications =>
        ⟨.ofVerbosity verbosity, specifications⟩ := by
  change (given lists).mapM Specification.parse >>= _ = _
  cases (given lists).mapM Specification.parse <;> rfl

/-- **What the lists are read as** is what their pieces are read as, with a limit for all. -/
theorem parse_eq_ok_iff :
    parse verbosity lists = .ok thresholds ↔
      thresholds.general = .ofVerbosity verbosity ∧
        ReadAs (given lists) thresholds.specifications := by
  rw [parse_eq, ReadAs, ← mapM_eq_ok_iff]
  cases (given lists).mapM Specification.parse with
  | error error => simp [Except.map]
  | ok specifications =>
    obtain ⟨general, found⟩ := thresholds
    simp [Except.map, eq_comm]

theorem parse_eq_error_iff {error : SpecificationError} :
    parse verbosity lists = .error error ↔
      (given lists).mapM Specification.parse = .error error := by
  rw [parse_eq]
  cases (given lists).mapM Specification.parse <;> simp [Except.map]

theorem exists_parse_ok_iff :
    (∃ thresholds, parse verbosity lists = .ok thresholds) ↔
      ∀ piece ∈ given lists, WellFormed piece := by
  simp only [← Specification.exists_parse_ok_iff, ← exists_mapM_ok_iff, parse_eq_ok_iff,
    mapM_eq_ok_iff]
  constructor
  · rintro ⟨thresholds, -, hread⟩
    exact ⟨thresholds.specifications, hread⟩
  · rintro ⟨specifications, hread⟩
    exact ⟨⟨.ofVerbosity verbosity, specifications⟩, rfl, hread⟩

/-- **The complaint** is that about the first piece that cannot be read. -/
theorem exists_parse_error_iff {message : String} :
    (∃ error, parse verbosity lists = .error error ∧ error.message = message) ↔
      ∃ before piece after, given lists = before ++ piece :: after ∧
        (∀ other ∈ before, WellFormed other) ∧ Complaint piece message := by
  simp only [parse_eq_error_iff, mapM_eq_error_iff, complaint_iff,
    ← Specification.exists_parse_ok_iff]
  constructor
  · rintro ⟨error, ⟨before, piece, after, hsplit, hbefore, herror⟩, rfl⟩
    exact ⟨before, piece, after, hsplit, hbefore, error, herror, rfl⟩
  · rintro ⟨before, piece, after, hsplit, hbefore, error, herror, rfl⟩
    exact ⟨error, ⟨before, piece, after, hsplit, hbefore, herror⟩, rfl⟩

theorem parse_map_joinPieces (h : parse verbosity lists = .ok thresholds)
    {groups : List (List (List Char))} (hgroups : groups.flatten = given lists) :
    parse verbosity (groups.map joinPieces) = .ok thresholds := by
  have hsame : given (groups.map joinPieces) = given lists := by
    rw [← hgroups]
    refine given_map_joinPieces fun piece hpiece => ?_
    rw [hgroups] at hpiece
    exact isPiece_of_mem_given hpiece
  rw [parse_eq] at h ⊢
  rw [hsame, h]

theorem exists_parse_of_sameSettings {lists' : List String}
    (h : parse verbosity lists = .ok thresholds)
    (hsame : SameSettings (given lists) (given lists')) :
    ∃ thresholds', parse verbosity lists' = .ok thresholds' ∧
      ∀ target, thresholds'.limit target = thresholds.limit target := by
  obtain ⟨hgeneral, hread⟩ := parse_eq_ok_iff.1 h
  obtain ⟨specifications, hread', hset⟩ := hsame _ hread
  exact ⟨⟨.ofVerbosity verbosity, specifications⟩, parse_eq_ok_iff.2 ⟨rfl, hread'⟩,
    fun target => limit_eq_of_setting? hgeneral.symm hset⟩

/-- **Limits hang on the last setting of each component alone.** Lists of specifications are read if
each piece is well-formed; else the first one that is not is complained about. If they are read,
limits follow the rule; spreading the same pieces otherwise over lists gives the same thresholds;
and spelling pieces otherwise, or exchanging those of different components, any number of times,
leaves the limit of each target. -/
theorem parse_limits (verbosity : Nat) (lists : List String) :
    ((∃ thresholds, parse verbosity lists = .ok thresholds) ↔
      ∀ piece ∈ given lists, WellFormed piece) ∧
    (∀ message, (∃ error, parse verbosity lists = .error error ∧ error.message = message) ↔
      ∃ before piece after, given lists = before ++ piece :: after ∧
        (∀ other ∈ before, WellFormed other) ∧ Complaint piece message) ∧
    ∀ thresholds, parse verbosity lists = .ok thresholds →
      thresholds.general = .ofVerbosity verbosity ∧
      ReadAs (given lists) thresholds.specifications ∧
      (∀ target limit, thresholds.limit target = limit ↔ thresholds.Governs target limit) ∧
      (∀ groups : List (List (List Char)), groups.flatten = given lists →
        parse verbosity (groups.map joinPieces) = .ok thresholds) ∧
      ∀ lists', Relation.EqvGen Rearranges (given lists) (given lists') →
        ∃ thresholds', parse verbosity lists' = .ok thresholds' ∧
          ∀ target, thresholds'.limit target = thresholds.limit target := by
  refine ⟨exists_parse_ok_iff, fun message => exists_parse_error_iff, fun thresholds h => ?_⟩
  obtain ⟨hgeneral, hread⟩ := parse_eq_ok_iff.1 h
  refine ⟨hgeneral, hread, fun target limit => limit_eq_iff,
    fun groups => parse_map_joinPieces h, ?_⟩
  intro lists' hrearranged
  exact exists_parse_of_sameSettings h (sameSettings_of_eqvGen hrearranged).1

theorem parse_limits_respelled :
    (∃ thresholds, parse 0 ["yaml.scan=debug, cli"] = .ok thresholds ∧
      parse 0 ["yaml.scan=debug", "cli"] = .ok thresholds ∧
      thresholds.limit "yaml_path::yaml::scan::deep".toList = some .debug ∧
      ∃ thresholds', parse 0 ["cli", "yaml_path::yaml::scan=DEBUG"] = .ok thresholds' ∧
        ∀ target, thresholds'.limit target = thresholds.limit target) ∧
    ∃ error, parse 0 ["cli", "scan=loud,=debug"] = .error error ∧
      error.message = "Invalid log level 'loud' in 'scan=loud'" := by
  have hscan : Specification.parse "yaml.scan=debug".toList =
      .ok ⟨"yaml_path::yaml::scan".toList, some .debug⟩ := rfl
  have hcli : Specification.parse "cli".toList = .ok ⟨"yaml_path::cli".toList, some .trace⟩ := rfl
  have hrearranged : Relation.EqvGen Rearranges ["yaml.scan=debug".toList, "cli".toList]
      ["cli".toList, "yaml_path::yaml::scan=DEBUG".toList] := by
    have hswap := Rearranges.swap [] [] hscan hcli (by decide)
    have hsets : Sets ('=' :: "DEBUG".toList) (some .debug) := .level (by decide)
    have hrespell := Rearranges.respell ["cli".toList] [] (.full hscan hsets)
    exact .trans _ _ _ (.rel _ _ hswap) (.rel _ _ hrespell)
  constructor
  · obtain ⟨-, -, hlimits⟩ := parse_limits 0 ["yaml.scan=debug, cli"]
    refine ⟨⟨some .warn, [⟨"yaml_path::yaml::scan".toList, some .debug⟩,
      ⟨"yaml_path::cli".toList, some .trace⟩]⟩, rfl, ?_⟩
    obtain ⟨-, -, -, hspread, hsame⟩ := hlimits _ rfl
    exact ⟨hspread [["yaml.scan=debug".toList], ["cli".toList]] rfl, rfl,
      hsame ["cli", "yaml_path::yaml::scan=DEBUG"] hrearranged⟩
  · obtain ⟨-, hcomplaint, -⟩ := parse_limits 0 ["cli", "scan=loud,=debug"]
    have hwell : WellFormed "cli".toList := Specification.exists_parse_ok_iff.1 ⟨_, hcli⟩
    have hloud : ∀ limit : Limit, ¬ limit.IsNamed "loud".toList := Limit.ofName?_eq_none_iff.1 rfl
    have hlevel : Complaint ("scan".toList ++ '=' :: "loud".toList) _ :=
      .level ⟨rfl, List.all_eq_true.1 rfl⟩ ⟨by decide, List.all_eq_true.1 rfl⟩ hloud
    refine (hcomplaint _).2 ⟨["cli".toList], "scan=loud".toList, ["=debug".toList], rfl, ?_, hlevel⟩
    rintro other hother
    rwa [List.mem_singleton.1 hother]

end Thresholds

end Breadcrumb
