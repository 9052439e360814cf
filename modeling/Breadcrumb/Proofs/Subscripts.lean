import Breadcrumb.Proofs.Series
import Breadcrumb.Query
import Mathlib.Tactic.Common

/-!
# Subscripts can be read back

A key stands between two quotation marks, and every mark and backslash in it has a backslash in
front. So the first mark without one ends the key, whatever the key holds and whatever follows,
and keys can be taken off the text one after the other.

* `readKey?_eq_some_iff`: a key is read up to its mark just from the quoted key.
* `readsBack_readBracketed?`: so is a key with its brackets.
* `readKeys?_eq_some_iff`: subscripts tell their keys.
-/

namespace Breadcrumb.Subscript

variable {mark : QuoteMark} {c : Char} {key text rest : List Char}

/-! ## One key -/

/-- A character that has a backslash in front of it inside a key. -/
def isEscaped (mark : QuoteMark) (c : Char) : Bool := c = '\\' || c = mark.char

/-- Reads a key up to the mark that ends it: the key, and what follows the mark. A backslash
may stand before another one and before a mark only. -/
def readKey? (mark : QuoteMark) : List Char → Option (List Char × List Char)
  | [] => none
  | c :: text =>
    if c = mark.char then some ([], text)
    else if c = '\\' then
      match text with
      | [] => none
      | d :: text =>
        if isEscaped mark d then (readKey? mark text).map (Prod.map (d :: ·) id) else none
    else (readKey? mark text).map (Prod.map (c :: ·) id)

theorem char_ne_backslash (mark : QuoteMark) : mark.char ≠ '\\' := by
  cases mark <;> decide

theorem quoteChars_cons_of_escaped (h : isEscaped mark c = true) (key : List Char) :
    quoteChars mark (c :: key) = '\\' :: c :: quoteChars mark key := by
  unfold isEscaped at h
  rw [quoteChars, List.flatMap_cons, if_pos h]
  rfl

theorem quoteChars_cons_of_not_escaped (h : ¬ isEscaped mark c = true) (key : List Char) :
    quoteChars mark (c :: key) = c :: quoteChars mark key := by
  unfold isEscaped at h
  rw [quoteChars, List.flatMap_cons, if_neg h]
  rfl

theorem readKey?_backslash (h : isEscaped mark c = true) (text : List Char) :
    readKey? mark ('\\' :: c :: text) = (readKey? mark text).map (Prod.map (c :: ·) id) := by
  rw [readKey?.eq_def mark ('\\' :: c :: text)]
  simp only [if_neg (char_ne_backslash mark).symm, if_pos h, if_true]

theorem readKey?_plain (h : ¬ isEscaped mark c = true) (text : List Char) :
    readKey? mark (c :: text) = (readKey? mark text).map (Prod.map (c :: ·) id) := by
  rw [isEscaped, Bool.or_eq_true, decide_eq_true_eq, decide_eq_true_eq, not_or] at h
  rw [readKey?.eq_def mark (c :: text)]
  simp only [if_neg h.2, if_neg h.1]

/-- **The first mark without a backslash ends the key**, whatever follows it. -/
theorem readKey?_quoteChars (key rest : List Char) :
    readKey? mark (quoteChars mark key ++ mark.char :: rest) = some (key, rest) := by
  induction key with
  | nil =>
    show readKey? mark (mark.char :: rest) = _
    rw [readKey?.eq_def]
    simp only [if_true]
  | cons c key ih =>
    by_cases hc : isEscaped mark c = true
    · rw [quoteChars_cons_of_escaped hc, List.cons_append, List.cons_append,
        readKey?_backslash hc, ih]
      rfl
    · rw [quoteChars_cons_of_not_escaped hc, List.cons_append, readKey?_plain hc, ih]
      rfl

/-- Nothing else is read as a key. -/
theorem eq_quoteChars_of_readKey? (h : readKey? mark text = some (key, rest)) :
    text = quoteChars mark key ++ mark.char :: rest := by
  fun_induction readKey? mark text generalizing key with
  | case1 => cases h
  | case2 =>
    cases h
    rfl
  | case3 => cases h
  | case4 d text hd _ ih =>
    obtain ⟨more, rfl, hmore⟩ := map_cons_eq_some.1 h
    rw [quoteChars_cons_of_escaped hd, ih hmore, List.cons_append, List.cons_append]
  | case5 => cases h
  | case6 c text hmark hbackslash ih =>
    obtain ⟨more, rfl, hmore⟩ := map_cons_eq_some.1 h
    have hc : ¬ isEscaped mark c = true := by
      simp [isEscaped, hmark, hbackslash]
    rw [quoteChars_cons_of_not_escaped hc, ih hmore, List.cons_append]

theorem readKey?_eq_some_iff :
    readKey? mark text = some (key, rest) ↔ text = quoteChars mark key ++ mark.char :: rest := by
  constructor
  · exact eq_quoteChars_of_readKey?
  · rintro rfl
    exact readKey?_quoteChars key rest

/-! ## All keys -/

/-- Reads a key in brackets and quotation marks: the key, and what follows the brackets. -/
def readBracketed? (mark : QuoteMark) : List Char → Option (String × List Char)
  | '[' :: c :: text =>
    if c = mark.char then
      match readKey? mark text with
      | some (key, ']' :: rest) => some (String.ofList key, rest)
      | _ => none
    else none
  | _ => none

/-- The keys of a text that is made of subscripts. -/
def readKeys? (mark : QuoteMark) (text : String) : Option (List String) :=
  readSeries? (readBracketed? mark) text.toList

theorem readBracketed?_eq_some_iff {key : String} :
    readBracketed? mark text = some (key, rest) ↔ text = bracketChars mark key.toList ++ rest := by
  constructor
  · intro h
    unfold readBracketed? at h
    split at h
    · split_ifs at h with hmark
      split at h
      · rename_i found _ hread
        cases h
        rw [readKey?_eq_some_iff.1 hread, hmark, String.toList_ofList]
        simp [bracketChars]
      · cases h
    · cases h
  · rintro rfl
    have hread : readKey? mark (quoteChars mark key.toList ++ mark.char :: ']' :: rest) =
        some (key.toList, ']' :: rest) := readKey?_eq_some_iff.2 rfl
    have happ : bracketChars mark key.toList ++ rest =
        '[' :: mark.char :: (quoteChars mark key.toList ++ mark.char :: ']' :: rest) := by
      simp [bracketChars]
    rw [happ, readBracketed?, if_pos rfl, hread]
    simp only [String.ofList_toList]

theorem readsBack_readBracketed? (mark : QuoteMark) :
    ReadsBack (readBracketed? mark) (fun key : String => bracketChars mark key.toList)
      (fun _ => True) where
  read?_eq_some_iff := by
    intro text key rest
    rw [readBracketed?_eq_some_iff, and_true]
  write_ne_nil := fun _ => List.cons_ne_nil _ _

/-- **Subscripts tell their keys.** For either mark, the keys are read back just from the text
written for them, whatever they hold, and so different keys make different subscripts. What is
read from the subscript of a line are the keys of the line. -/
theorem readKeys?_eq_some_iff (mark : QuoteMark) :
    (∀ text keys, readKeys? mark text = some keys ↔ text = ofKeys mark keys) ∧
    (∀ keys keys', ofKeys mark keys = ofKeys mark keys' ↔ keys = keys') ∧
    ∀ (doc : Document) (i : Nat), (doc.subscript? mark i).bind (readKeys? mark) = doc.keys? i := by
  have hread : ∀ text keys, readKeys? mark text = some keys ↔ text = ofKeys mark keys := by
    intro text keys
    rw [readKeys?, (readsBack_readBracketed? mark).readSeries?_eq_some_iff, ofKeys,
      ← String.toList_inj, String.toList_ofList]
    simp
  refine ⟨hread, fun keys keys' => ⟨fun heq => ?_, fun heq => by rw [heq]⟩, fun doc i => ?_⟩
  · have hkeys := (hread _ _).2 heq
    rw [(hread _ keys).2 rfl] at hkeys
    exact Option.some.inj hkeys
  · unfold Document.subscript?
    cases doc.keys? i with
    | none => rfl
    | some keys => exact (hread _ keys).2 rfl

example : readKeys? .single "['a\\'][\\'b']['']" = some ["a']['b", ""] := by decide +kernel

end Breadcrumb.Subscript
