import Breadcrumb.Log
import Mathlib.Data.List.Basic

/-!
# What specifications may look like

A specification is a name, and what it sets: nothing, or an equals sign and the name of a
level. Names are made of letters, digits, underscores, dots and colons, and a level is named in any
case. What is not of this form is complained about, and in one of two ways.

* `Specification.parse_append`, `Specification.parse_eq_ok_iff`: what is read.
* `Specification.complaint_iff`: what is complained about.
* `Specification.Respells.parse_iff`: dots and double colons, the root in front of a name, and full
  names say the same.
-/

namespace Breadcrumb

/-! ## Level names -/

/-- The limit has that name, in any case. -/
def Limit.IsNamed (name : List Char) (limit : Limit) : Prop :=
  (name.map Char.toLower, limit) ∈ Limit.named

instance (name : List Char) (limit : Limit) : Decidable (limit.IsNamed name) :=
  inferInstanceAs (Decidable (_ ∈ Limit.named))

theorem Limit.ofName?_eq_some_iff {name : List Char} {limit : Limit} :
    Limit.ofName? name = some limit ↔ limit.IsNamed name := by
  constructor
  · intro h
    obtain ⟨before, after, hnamed, -⟩ := List.lookup_eq_some_iff.1 h
    unfold IsNamed
    rw [hnamed]
    exact List.mem_append_right _ List.mem_cons_self
  · intro h
    -- no name stands in the table twice
    simp only [IsNamed, Limit.named, List.mem_cons, Prod.mk.injEq, List.not_mem_nil, or_false] at h
    unfold Limit.ofName?
    rcases h with ⟨h, rfl⟩ | ⟨h, rfl⟩ | ⟨h, rfl⟩ | ⟨h, rfl⟩ | ⟨h, rfl⟩ | ⟨h, rfl⟩
    all_goals
      rw [h]
      rfl

theorem Limit.ofName?_eq_none_iff {name : List Char} :
    Limit.ofName? name = none ↔ ∀ limit : Limit, ¬ limit.IsNamed name := by
  rw [Option.eq_none_iff_forall_ne_some]
  exact forall_congr' fun limit => not_congr Limit.ofName?_eq_some_iff

namespace Specification

/-! ## The grammar -/

/-- A name of a component: a letter or an underscore, and then letters, digits, underscores, dots
and colons. -/
structure IsName (name : List Char) : Prop where
  head : name.head?.any isNameStart = true
  all : ∀ c ∈ name, isNameChar c = true

/-- A word that could name a level. -/
structure IsWord (word : List Char) : Prop where
  ne_nil : word ≠ []
  all : ∀ c ∈ word, c.isAlpha = true

/-- What follows the name in a specification that sets a limit: nothing, or the limit by its
name. -/
inductive Sets : List Char → Limit → Prop
  | all : Sets [] (some .trace)
  | level {word : List Char} {limit : Limit} : limit.IsNamed word → Sets ('=' :: word) limit

/-- A piece that can be read: a name, and a limit if one is given. -/
def WellFormed (piece : List Char) : Prop :=
  ∃ name rest limit, piece = name ++ rest ∧ IsName name ∧ Sets rest limit

/-- A piece that can be told apart into a name and a word for a level, if one is given. -/
def HasShape (piece : List Char) : Prop :=
  ∃ name, IsName name ∧ (piece = name ∨ ∃ word, IsWord word ∧ piece = name ++ '=' :: word)

/-- What is said of a piece that cannot be read: that it has not the shape of a specification,
or that there is no such level. -/
inductive Complaint : List Char → String → Prop
  | component {piece : List Char} : ¬ HasShape piece →
      Complaint piece ("Invalid log component '" ++ String.ofList piece ++ "'")
  | level {name word : List Char} : IsName name → IsWord word →
      (∀ limit : Limit, ¬ limit.IsNamed word) →
      Complaint (name ++ '=' :: word) ("Invalid log level '" ++ String.ofList word ++ "' in '" ++
        String.ofList (name ++ '=' :: word) ++ "'")

variable {name rest word piece : List Char} {limit : Limit}

/-- Only letters become letters in lower case. -/
theorem isAlpha_of_toLower {c : Char} (h : c.toLower.isAlpha = true) : c.isAlpha = true := by
  unfold Char.toLower at h
  split at h
  · rename_i hupper
    have hc : c.isUpper = true := decide_eq_true hupper
    exact Bool.or_eq_true_iff.2 (.inl hc)
  · exact h

/-- Level names are words. -/
theorem isWord_of_isNamed (h : limit.IsNamed word) : IsWord word := by
  have hnamed : Limit.named.all fun entry => !entry.1.isEmpty && entry.1.all Char.isAlpha := rfl
  have hentry := List.all_eq_true.1 hnamed _ h
  rw [Bool.and_eq_true, Bool.not_eq_true', List.isEmpty_eq_false_iff, List.all_eq_true] at hentry
  obtain ⟨hne, hall⟩ := hentry
  refine ⟨fun hnil => hne (by rw [hnil]; rfl), fun c hc => ?_⟩
  exact isAlpha_of_toLower (hall c.toLower (List.mem_map_of_mem hc))

theorem Sets.head? (h : Sets rest limit) : rest.head?.all (!isNameChar ·) = true := by
  cases h <;> rfl

/-! ## What is read -/

section Name

variable (h : IsName name) (hrest : rest.head?.all (!isNameChar ·) = true)

include h hrest

/-- The name is taken as far as it goes. -/
theorem takeWhile_append : (name ++ rest).takeWhile isNameChar = name := by
  rw [List.takeWhile_append_of_pos h.all]
  cases rest with
  | nil => exact List.append_nil name
  | cons c rest =>
    have hc : isNameChar c = false := by simpa using hrest
    rw [List.takeWhile_cons, hc]
    exact List.append_nil name

theorem dropWhile_append : (name ++ rest).dropWhile isNameChar = rest := by
  have hsplit := List.takeWhile_append_dropWhile (p := isNameChar) (l := name ++ rest)
  rw [takeWhile_append h hrest] at hsplit
  exact List.append_cancel_left hsplit

end Name

/-- **A name and what it sets** are read. -/
theorem parse_append (h : IsName name) (hsets : Sets rest limit) :
    parse (name ++ rest) = .ok ⟨qualify name, limit⟩ := by
  unfold parse
  rw [takeWhile_append h hsets.head?, dropWhile_append h hsets.head?]
  cases hsets with
  | all => simp [h.head]
  | level hnamed =>
    have hword := isWord_of_isNamed hnamed
    have hall := List.all_eq_true.2 hword.all
    simp [h.head, hword.ne_nil, hall, Limit.ofName?_eq_some_iff.2 hnamed]

theorem parse_of_unknown (h : IsName name) (hword : IsWord word)
    (hnone : ∀ limit : Limit, ¬ limit.IsNamed word) :
    parse (name ++ '=' :: word) = .error (.level word (name ++ '=' :: word)) := by
  have hrest : ('=' :: word).head?.all (!isNameChar ·) = true := rfl
  unfold parse
  rw [takeWhile_append h hrest, dropWhile_append h hrest]
  have hall := List.all_eq_true.2 hword.all
  simp [h.head, hword.ne_nil, hall, Limit.ofName?_eq_none_iff.2 hnone]

theorem parse_of_not_hasShape (h : ¬ HasShape piece) : parse piece = .error (.component piece) := by
  have hsplit := List.takeWhile_append_dropWhile (p := isNameChar) (l := piece)
  have hall : ∀ c ∈ piece.takeWhile isNameChar, isNameChar c = true :=
    List.all_eq_true.1 List.all_takeWhile
  unfold parse
  simp only
  split
  · rfl
  · rename_i hhead
    have hname : IsName (piece.takeWhile isNameChar) := ⟨by simpa using hhead, hall⟩
    split
    · rename_i hrest
      rw [hrest, List.append_nil] at hsplit
      exact absurd ⟨_, hname, Or.inl hsplit.symm⟩ h
    · rename_i word hrest
      rw [hrest] at hsplit
      split
      · rfl
      · rename_i hword
        rw [Bool.or_eq_true, not_or, List.isEmpty_iff, Bool.not_eq_true', Bool.not_eq_false,
          List.all_eq_true] at hword
        exact absurd ⟨_, hname, Or.inr ⟨word, ⟨hword.1, hword.2⟩, hsplit.symm⟩⟩ h
    · rfl

/-- A piece can be read, or there is something to complain about. -/
theorem wellFormed_or_complaint (piece : List Char) :
    WellFormed piece ∨ ∃ error, parse piece = .error error ∧ Complaint piece error.message := by
  by_cases hshape : HasShape piece
  · obtain ⟨name, hname, rfl | ⟨word, hword, rfl⟩⟩ := hshape
    · exact Or.inl ⟨piece, [], _, (List.append_nil piece).symm, hname, .all⟩
    · by_cases hnamed : ∃ limit : Limit, limit.IsNamed word
      · obtain ⟨limit, hlimit⟩ := hnamed
        exact Or.inl ⟨name, '=' :: word, limit, rfl, hname, .level hlimit⟩
      · have hnone := not_exists.1 hnamed
        exact Or.inr ⟨_, parse_of_unknown hname hword hnone, .level hname hword hnone⟩
  · exact Or.inr ⟨_, parse_of_not_hasShape hshape, .component hshape⟩

/-- **Just what is of the form is read**: its name in full, and its limit. -/
theorem parse_eq_ok_iff {s : Specification} :
    parse piece = .ok s ↔ ∃ name rest, piece = name ++ rest ∧ IsName name ∧ Sets rest s.limit ∧
      s.component = qualify name := by
  constructor
  · intro h
    rcases wellFormed_or_complaint piece with ⟨name, rest, limit, rfl, hname, hsets⟩ |
      ⟨error, herror, -⟩
    · obtain rfl := Except.ok.inj ((parse_append hname hsets).symm.trans h)
      exact ⟨name, rest, rfl, hname, hsets, rfl⟩
    · cases herror.symm.trans h
  · rintro ⟨name, rest, rfl, hname, hsets, hcomponent⟩
    rw [parse_append hname hsets, ← hcomponent]

theorem exists_parse_ok_iff : (∃ s, parse piece = .ok s) ↔ WellFormed piece := by
  constructor
  · rintro ⟨s, h⟩
    obtain ⟨name, rest, rfl, hname, hsets, -⟩ := parse_eq_ok_iff.1 h
    exact ⟨name, rest, s.limit, rfl, hname, hsets⟩
  · rintro ⟨name, rest, limit, rfl, hname, hsets⟩
    exact ⟨_, parse_append hname hsets⟩

/-- **Just what is complained about is refused**, in the words of the complaint. -/
theorem complaint_iff {message : String} :
    Complaint piece message ↔ ∃ error, parse piece = .error error ∧ error.message = message := by
  constructor
  · rintro (hshape | ⟨hname, hword, hnone⟩)
    · exact ⟨_, parse_of_not_hasShape hshape, rfl⟩
    · exact ⟨_, parse_of_unknown hname hword hnone, rfl⟩
  · rintro ⟨error, herror, rfl⟩
    rcases wellFormed_or_complaint piece with hwell | ⟨other, hother, hcomplaint⟩
    · obtain ⟨s, hs⟩ := exists_parse_ok_iff.2 hwell
      cases herror.symm.trans hs
    · obtain rfl := Except.error.inj (herror.symm.trans hother)
      exact hcomplaint

/-! ## Names in full -/

/-- A name with double colons for its dots. -/
def undot (name : List Char) : List Char := name.flatMap fun c => if c = '.' then separator else [c]

theorem qualify_eq (name : List Char) :
    qualify name = if isWithin root (undot name) = true then undot name
      else root ++ separator ++ undot name := rfl

theorem undot_append (u v : List Char) : undot (u ++ v) = undot u ++ undot v := List.flatMap_append

theorem undot_cons {c : Char} (hc : c ≠ '.') (name : List Char) :
    undot (c :: name) = c :: undot name := by
  unfold undot
  rw [List.flatMap_cons, if_neg hc]
  rfl

theorem undot_undot (name : List Char) : undot (undot name) = undot name := by
  unfold undot
  rw [List.flatMap_assoc]
  refine List.flatMap_congr fun c _ => ?_
  by_cases hc : c = '.'
  · rw [if_pos hc]
    decide
  · rw [if_neg hc, List.flatMap_singleton, if_neg hc]

theorem eq_colon_of_mem_undot {c : Char} (h : c ∈ undot name) : c ∈ name ∨ c = ':' := by
  obtain ⟨d, hd, hc⟩ := List.mem_flatMap.1 h
  split at hc
  · simp_all [separator]
  · rw [List.mem_singleton.1 hc]
    exact Or.inl hd

theorem isWithin_iff {outer : List Char} :
    isWithin outer name = true ↔ name = outer ∨ outer ++ separator <+: name := by
  simp [isWithin]

theorem isWithin_root_append (name : List Char) :
    isWithin root (root ++ separator ++ name) = true :=
  isWithin_iff.2 (Or.inr (List.prefix_append _ name))

theorem undot_root_append (name : List Char) :
    undot (root ++ separator ++ name) = root ++ separator ++ undot name := by
  have hroot : undot (root ++ separator) = root ++ separator := by decide
  rw [undot_append, hroot]

/-- **A full name is its own full name.** -/
theorem qualify_qualify (name : List Char) : qualify (qualify name) = qualify name := by
  rw [qualify_eq name]
  by_cases h : isWithin root (undot name) = true
  · rw [if_pos h, qualify_eq, undot_undot, if_pos h]
  · rw [if_neg h, qualify_eq, undot_root_append, undot_undot, if_pos (isWithin_root_append _)]

/-- The root in front of a name makes no difference, if the name leaves it out. -/
theorem qualify_root_append (h : isWithin root (undot name) = false) :
    qualify (root ++ separator ++ name) = qualify name := by
  rw [qualify_eq, undot_root_append, if_pos (isWithin_root_append _), qualify_eq,
    if_neg (Bool.eq_false_iff.1 h)]

/-- **Dots and double colons make the same name.** -/
theorem qualify_dot (u v : List Char) :
    qualify (u ++ separator ++ v) = qualify (u ++ '.' :: v) := by
  have hsame : undot (u ++ separator ++ v) = undot (u ++ '.' :: v) := by
    have hseparator : undot separator = separator := by decide
    rw [undot_append, undot_append, undot_append, hseparator, List.append_assoc]
    rfl
  rw [qualify_eq, qualify_eq, hsame]

/-! ## Names stay names -/

theorem isName_cons_iff {c : Char} :
    IsName (c :: name) ↔ isNameStart c = true ∧ ∀ d ∈ name, isNameChar d = true := by
  constructor
  · rintro ⟨hhead, hall⟩
    exact ⟨hhead, fun d hd => hall d (List.mem_cons_of_mem c hd)⟩
  · rintro ⟨hstart, hall⟩
    refine ⟨hstart, List.forall_mem_cons.2 ⟨?_, hall⟩⟩
    unfold isNameStart at hstart
    unfold isNameChar Char.isAlphanum
    rw [Bool.or_eq_true] at hstart
    rcases hstart with hstart | hstart <;> simp [hstart]

theorem isName_root_append (h : ∀ c ∈ name, isNameChar c = true) :
    IsName (root ++ separator ++ name) := by
  have hroot : ∀ c ∈ root ++ separator, isNameChar c = true := List.all_eq_true.1 rfl
  exact ⟨rfl, List.forall_mem_append.2 ⟨hroot, h⟩⟩

theorem isName_qualify (h : IsName name) : IsName (qualify name) := by
  have hall : ∀ c ∈ undot name, isNameChar c = true := by
    intro c hc
    rcases eq_colon_of_mem_undot hc with hmem | rfl
    · exact h.all c hmem
    · rfl
  rw [qualify_eq]
  split
  · obtain ⟨c, rest, rfl⟩ : ∃ c rest, name = c :: rest := by
      refine List.exists_cons_of_ne_nil fun hnil => ?_
      rw [hnil] at h
      cases h.head
    have hstart := (isName_cons_iff.1 h).1
    have hc : c ≠ '.' := by
      rintro rfl
      cases hstart
    rw [undot_cons hc] at hall ⊢
    exact isName_cons_iff.2 ⟨hstart, fun d hd => hall d (List.mem_cons_of_mem c hd)⟩
  · exact isName_root_append hall

theorem isName_dot_iff (u v : List Char) :
    IsName (u ++ separator ++ v) ↔ IsName (u ++ '.' :: v) := by
  cases u with
  | nil =>
    -- neither a colon nor a dot starts a name
    refine ⟨fun h => ?_, fun h => ?_⟩ <;> cases h.head
  | cons c u =>
    have hseparator : ∀ d ∈ separator, isNameChar d = true := List.all_eq_true.1 rfl
    have hdot : isNameChar '.' = true := rfl
    rw [List.cons_append, List.cons_append, List.cons_append, isName_cons_iff, isName_cons_iff,
      List.forall_mem_append, List.forall_mem_append, List.forall_mem_append, List.forall_mem_cons]
    constructor
    · rintro ⟨hstart, ⟨hu, -⟩, hv⟩
      exact ⟨hstart, hu, hdot, hv⟩
    · rintro ⟨hstart, hu, -, hv⟩
      exact ⟨hstart, ⟨hu, hseparator⟩, hv⟩

/-! ## Other spellings -/

/-- Other spellings of a piece: a dot for a double colon, the root in front of a name that leaves
it out, and the full name that it is read as, with what sets the limit that it sets. -/
inductive Respells : List Char → List Char → Prop
  | dot (u v : List Char) : Respells (u ++ separator ++ v) (u ++ '.' :: v)
  | root {name rest : List Char} {limit : Limit} : IsName name → Sets rest limit →
      isWithin root (undot name) = false →
      Respells (name ++ rest) (root ++ separator ++ (name ++ rest))
  | full {piece rest : List Char} {s : Specification} : parse piece = .ok s → Sets rest s.limit →
      Respells piece (s.component ++ rest)

/-- A character that is not in the rest is in what comes before it. -/
theorem exists_append_of_not_mem {u v : List Char} {c : Char} (h : u ++ c :: v = name ++ rest)
    (hc : c ∉ rest) : ∃ w, v = w ++ rest ∧ name = u ++ c :: w := by
  rcases List.append_eq_append_iff.1 h with ⟨more, rfl, hmore⟩ | ⟨more, -, rfl⟩
  · cases more with
    | nil =>
      rw [List.nil_append] at hmore
      exact absurd (hmore ▸ List.mem_cons_self) hc
    | cons d more =>
      obtain ⟨rfl, rfl⟩ := List.cons.inj hmore
      exact ⟨more, rfl, rfl⟩
  · exact absurd (List.mem_append_right more List.mem_cons_self) hc

/-- What sets a limit holds letters, past its equals sign. -/
theorem Sets.not_mem (h : Sets rest limit) {c : Char} (hequals : c ≠ '=')
    (halpha : c.isAlpha = false) : c ∉ rest := by
  cases h with
  | all => exact List.not_mem_nil
  | level hnamed =>
    rw [List.mem_cons, not_or]
    refine ⟨hequals, fun hmem => ?_⟩
    have hletter := (isWord_of_isNamed hnamed).all c hmem
    rw [halpha] at hletter
    cases hletter

theorem parse_dot_iff (u v : List Char) {s : Specification} :
    parse (u ++ separator ++ v) = .ok s ↔ parse (u ++ '.' :: v) = .ok s := by
  rw [parse_eq_ok_iff, parse_eq_ok_iff]
  constructor
  · rintro ⟨name, rest, hpiece, hname, hsets, hcomponent⟩
    have hcolon : (u ++ [':']) ++ ':' :: v = name ++ rest := by
      rw [← hpiece]
      simp [separator]
    obtain ⟨w, rfl, rfl⟩ := exists_append_of_not_mem hcolon (hsets.not_mem (by decide) (by decide))
    have hsame : (u ++ [':']) ++ ':' :: w = u ++ separator ++ w := by simp [separator]
    rw [hsame] at hname hcomponent
    refine ⟨u ++ '.' :: w, rest, by simp, (isName_dot_iff u w).1 hname, hsets, ?_⟩
    rw [hcomponent, qualify_dot]
  · rintro ⟨name, rest, hpiece, hname, hsets, hcomponent⟩
    obtain ⟨w, rfl, rfl⟩ := exists_append_of_not_mem hpiece (hsets.not_mem (by decide) (by decide))
    refine ⟨u ++ separator ++ w, rest, by simp, (isName_dot_iff u w).2 hname, hsets, ?_⟩
    rw [hcomponent, qualify_dot]

/-- **Other spellings are read as the same.** -/
theorem Respells.parse_iff {piece' : List Char} (h : Respells piece piece') {s : Specification} :
    parse piece = .ok s ↔ parse piece' = .ok s := by
  cases h with
  | dot u v => exact parse_dot_iff u v
  | root hname hsets hout =>
    have hlong : IsName (Specification.root ++ separator ++ _) := isName_root_append hname.all
    rw [parse_append hname hsets, ← List.append_assoc, parse_append hlong hsets,
      qualify_root_append hout]
  | full hparse hsets =>
    obtain ⟨name, rest, rfl, hname, -, hcomponent⟩ := parse_eq_ok_iff.1 hparse
    have hfull := isName_qualify hname
    rw [← hcomponent] at hfull
    rw [hparse, parse_append hfull hsets, hcomponent, qualify_qualify, ← hcomponent]

end Specification

end Breadcrumb
