import Breadcrumb.Listing
import Breadcrumb.Proofs.Series
import Mathlib.Tactic.Common

/-!
# Listings can be read back

A line of a listing is made of fields: numbers, which hold digits only, and last a path or a tag,
which may hold digits and colons as well. So the first colon, or NUL, ends a number, and what ends
the line ends the path, if the path does not hold it.

* `readField?_eq_some_iff`, `readNumber?_eq_some_iff`: one field, and one number.
* `readsBack_readItem?`, `readsBack_readCrumb?`: one line.
* `readEntries?_eq_some_iff`, `readTrail?_eq_some_iff`: all lines.
-/

namespace Breadcrumb

namespace Ending

/-- What ends the number of an entry. -/
def afterNumber : Ending → Char
  | newline => ':'
  | nul => '\x00'

/-- What ends the path of an entry, and so the entry. -/
def afterPath : Ending → Char
  | newline => '\n'
  | nul => '\x00'

end Ending

namespace Listing

variable {text field rest : List Char}

/-! ## Fields -/

/-- Reads a field up to the first `stop`: the field, and what follows the `stop`. -/
def readField? (stop : Char) : List Char → Option (List Char × List Char)
  | [] => none
  | c :: text =>
    if c = stop then some ([], text) else (readField? stop text).map (Prod.map (c :: ·) id)

theorem readField?_append {stop : Char} (hstop : stop ∉ field) (rest : List Char) :
    readField? stop (field ++ stop :: rest) = some (field, rest) := by
  induction field with
  | nil =>
    show readField? stop (stop :: rest) = _
    rw [readField?, if_pos rfl]
  | cons c field ih =>
    rw [List.mem_cons, not_or] at hstop
    obtain ⟨hc, hstop⟩ := hstop
    rw [List.cons_append, readField?, if_neg (Ne.symm hc), ih hstop]
    rfl

theorem readField?_eq_some_iff {stop : Char} :
    readField? stop text = some (field, rest) ↔ text = field ++ stop :: rest ∧ stop ∉ field := by
  constructor
  · intro h
    fun_induction readField? stop text generalizing field with
    | case1 => cases h
    | case2 =>
      cases h
      exact ⟨rfl, List.not_mem_nil⟩
    | case3 c text hc ih =>
      obtain ⟨more, rfl, hmore⟩ := map_cons_eq_some.1 h
      obtain ⟨rfl, hstop⟩ := ih hmore
      refine ⟨rfl, ?_⟩
      rw [List.mem_cons, not_or]
      exact ⟨Ne.symm hc, hstop⟩
  · rintro ⟨rfl, hstop⟩
    exact readField?_append hstop rest

/-- Numbers are written with digits. -/
theorem not_mem_toString {c : Char} (hc : c.isDigit = false) (number : Nat) :
    c ∉ (toString number).toList := by
  intro hmem
  rw [Nat.toString_eq_ofList_toDigits, String.toList_ofList] at hmem
  have hdigit := Nat.isDigit_of_mem_toDigits (by decide) (by decide) hmem
  rw [hc] at hdigit
  cases hdigit

theorem ofDigitChars_toString (number : Nat) :
    Nat.ofDigitChars 10 (toString number).toList 0 = number := by
  rw [Nat.toString_eq_ofList_toDigits, String.toList_ofList, Nat.ofDigitChars_ten_toDigits]

/-- Reads a number up to the first `stop`: the number, and what follows the `stop`. The digits
have to be just those that the number is written with. -/
def readNumber? (stop : Char) (text : List Char) : Option (Nat × List Char) := do
  let (digits, rest) ← readField? stop text
  let number := Nat.ofDigitChars 10 digits 0
  if (toString number).toList = digits then some (number, rest) else none

theorem readNumber?_append {stop : Char} (hstop : stop.isDigit = false) (number : Nat)
    (rest : List Char) :
    readNumber? stop ((toString number).toList ++ stop :: rest) = some (number, rest) := by
  have hdigits := readField?_append (not_mem_toString hstop number) rest
  simp only [readNumber?, hdigits, Option.bind_eq_bind, Option.bind_some, ofDigitChars_toString,
    if_true]

theorem readNumber?_eq_some_iff {stop : Char} (hstop : stop.isDigit = false) {number : Nat} :
    readNumber? stop text = some (number, rest) ↔
      text = (toString number).toList ++ stop :: rest := by
  constructor
  · intro h
    obtain ⟨⟨digits, left⟩, hdigits, h⟩ := Option.bind_eq_some_iff.1 h
    obtain ⟨hwritten, h⟩ := Option.ite_none_right_eq_some.1 h
    cases h
    rw [hwritten]
    exact (readField?_eq_some_iff.1 hdigits).1
  · rintro rfl
    exact readNumber?_append hstop number rest

/-! ## Entries -/

/-- Reads an entry: the number and the path, and what follows the entry. -/
def readItem? (ending : Ending) (text : List Char) : Option ((Nat × String) × List Char) := do
  let (number, text) ← readNumber? ending.afterNumber text
  let (path, rest) ← readField? ending.afterPath text
  return ((number, String.ofList path), rest)

theorem toList_entry (ending : Ending) (number : Nat) (path : String) :
    (entry ending number path).toList =
      (toString number).toList ++ ending.afterNumber :: (path.toList ++ [ending.afterPath]) := by
  cases ending <;> simp [entry, Ending.afterNumber, Ending.afterPath]

theorem readItem?_eq_some_iff {ending : Ending} {number : Nat} {path : String} :
    readItem? ending text = some ((number, path), rest) ↔
      text = (entry ending number path).toList ++ rest ∧ ending.afterPath ∉ path.toList := by
  have hstop : ending.afterNumber.isDigit = false := by cases ending <;> decide
  rw [toList_entry]
  constructor
  · intro h
    obtain ⟨⟨found, left⟩, hnumber, h⟩ := Option.bind_eq_some_iff.1 h
    obtain ⟨⟨chars, more⟩, hchars, h⟩ := Option.bind_eq_some_iff.1 h
    cases h
    obtain rfl := (readNumber?_eq_some_iff hstop).1 hnumber
    obtain ⟨rfl, hpath⟩ := readField?_eq_some_iff.1 hchars
    rw [String.toList_ofList]
    exact ⟨by simp, hpath⟩
  · rintro ⟨rfl, hpath⟩
    have hnumber := readNumber?_append hstop number (path.toList ++ ending.afterPath :: rest)
    have hchars := readField?_append hpath rest
    simp only [List.append_assoc, List.cons_append, List.nil_append, readItem?, hnumber, hchars,
      Option.bind_eq_bind, Option.bind_some, String.ofList_toList, Option.pure_def]

theorem readsBack_readItem? (ending : Ending) :
    ReadsBack (readItem? ending) (fun item => (entry ending item.1 item.2).toList)
      (fun item => ending.afterPath ∉ item.2.toList) where
  read?_eq_some_iff := readItem?_eq_some_iff
  write_ne_nil := by
    intro item
    simp [toList_entry]

/-- The entries of a text that is a listing. -/
def readEntries? (ending : Ending) (text : String) : Option (List (Nat × String)) :=
  readSeries? (readItem? ending) text.toList

theorem toList_entries (ending : Ending) (items : List (Nat × String)) :
    (entries ending items).toList =
      items.flatMap fun item => (entry ending item.1 item.2).toList := by
  rw [entries, String.toList_join]
  induction items with
  | nil => rfl
  | cons item items ih => simp_all

/-- What ends an entry is in none of the paths. -/
def Legible (ending : Ending) (items : List (Nat × String)) : Prop :=
  ∀ item ∈ items, ending.afterPath ∉ item.2.toList

instance (ending : Ending) (items : List (Nat × String)) : Decidable (Legible ending items) :=
  inferInstanceAs (Decidable (∀ item ∈ items, ending.afterPath ∉ item.2.toList))

/-- **A listing is read back** just from what is printed for it. -/
theorem readEntries?_eq_some_iff {ending : Ending} {text : String} {items : List (Nat × String)} :
    readEntries? ending text = some items ↔ text = entries ending items ∧ Legible ending items := by
  rw [readEntries?, (readsBack_readItem? ending).readSeries?_eq_some_iff, ← toList_entries,
    String.toList_inj]
  rfl

example : readEntries? .newline "1:a\n3:b:4\n" = some [(1, "a"), (3, "b:4")] := by decide +kernel

theorem entries_eq_iff {ending : Ending} {items others : List (Nat × String)}
    (hitems : Legible ending items) (hothers : Legible ending others) :
    entries ending items = entries ending others ↔ items = others := by
  rw [← String.toList_inj, toList_entries, toList_entries]
  exact (readsBack_readItem? ending).flatMap_eq_iff hitems hothers

/-! ## Trails -/

/-- Reads a line of a trail, printed without colors: the crumb, and what follows the line. -/
def readCrumb? (text : List Char) : Option (Crumb × List Char) := do
  let (number, text) ← readNumber? ':' text
  let (indentation, text) ← readNumber? ':' text
  let (tag, rest) ← readField? '\n' text
  if 0 < number ∧ indentation < UInt64.size then
    return (⟨number - 1, UInt64.ofNat indentation, String.ofList tag⟩, rest)
  else none

theorem toList_crumb (item : Crumb) (isLast : Bool) :
    (crumb false isLast item).toList = (toString item.number).toList ++ ':' ::
      ((toString item.indentation.toNat).toList ++ ':' :: (item.tag.toList ++ ['\n'])) := by
  have hcolumn : toString item.indentation = toString item.indentation.toNat := rfl
  simp [crumb, Style.applyIf, hcolumn]

theorem readCrumb?_eq_some_iff {item : Crumb} :
    readCrumb? text = some (item, rest) ↔
      text = (crumb false false item).toList ++ rest ∧ '\n' ∉ item.tag.toList := by
  have hcolon : ':'.isDigit = false := by decide
  rw [toList_crumb]
  constructor
  · intro h
    obtain ⟨⟨number, left⟩, hnumber, h⟩ := Option.bind_eq_some_iff.1 h
    obtain ⟨⟨indentation, more⟩, hindentation, h⟩ := Option.bind_eq_some_iff.1 h
    obtain ⟨⟨tag, last⟩, htag, h⟩ := Option.bind_eq_some_iff.1 h
    obtain ⟨⟨hpos, hword⟩, h⟩ := Option.ite_none_right_eq_some.1 h
    cases h
    obtain rfl := (readNumber?_eq_some_iff hcolon).1 hnumber
    obtain rfl := (readNumber?_eq_some_iff hcolon).1 hindentation
    obtain ⟨rfl, hnewline⟩ := readField?_eq_some_iff.1 htag
    -- numbers from 1 and columns below the word size are written again as they were read
    have hline : number - 1 + 1 = number := Nat.sub_add_cancel hpos
    have hcolumn : (UInt64.ofNat indentation).toNat = indentation := UInt64.toNat_ofNat_of_lt hword
    refine ⟨?_, by rwa [String.toList_ofList]⟩
    simp [Crumb.number, hline, hcolumn]
  · rintro ⟨rfl, hnewline⟩
    have hnumber := readNumber?_append hcolon item.number
      ((toString item.indentation.toNat).toList ++ ':' :: (item.tag.toList ++ '\n' :: rest))
    have hindentation := readNumber?_append hcolon item.indentation.toNat
      (item.tag.toList ++ '\n' :: rest)
    have htag := readField?_append hnewline rest
    have hpos : 0 < item.number := Nat.succ_pos item.line
    have hword : item.indentation.toNat < UInt64.size := item.indentation.toNat_lt
    simp only [List.append_assoc, List.cons_append, List.nil_append, readCrumb?, hnumber,
      hindentation, htag, Option.bind_eq_bind, Option.bind_some, String.ofList_toList,
      Option.pure_def, if_pos (And.intro hpos hword), UInt64.ofNat_toNat]
    rfl

theorem readsBack_readCrumb? :
    ReadsBack readCrumb? (fun item => (crumb false false item).toList)
      (fun item => '\n' ∉ item.tag.toList) where
  read?_eq_some_iff := readCrumb?_eq_some_iff
  write_ne_nil := by
    intro item
    simp [toList_crumb]

/-- The crumbs of a text that is a trail, printed without colors. -/
def readTrail? (text : String) : Option (List Crumb) := readSeries? readCrumb? text.toList

theorem toList_trail (crumbs : List Crumb) :
    (trail false crumbs).toList = crumbs.flatMap fun item => (crumb false false item).toList := by
  induction crumbs with
  | nil => rfl
  | cons item crumbs ih =>
    rw [trail, String.toList_append, ih, List.flatMap_cons, toList_crumb, toList_crumb]

/-- No tag holds a newline. -/
def LegibleTrail (crumbs : List Crumb) : Prop := ∀ item ∈ crumbs, '\n' ∉ item.tag.toList

instance (crumbs : List Crumb) : Decidable (LegibleTrail crumbs) :=
  inferInstanceAs (Decidable (∀ item ∈ crumbs, '\n' ∉ item.tag.toList))

/-- **A trail is read back** just from what is printed for it. -/
theorem readTrail?_eq_some_iff {text : String} {crumbs : List Crumb} :
    readTrail? text = some crumbs ↔ text = trail false crumbs ∧ LegibleTrail crumbs := by
  rw [readTrail?, readsBack_readCrumb?.readSeries?_eq_some_iff, ← toList_trail, String.toList_inj]
  rfl

example : readTrail? "1:0:a\n2:2:3:b\n" = some [⟨0, 0, "a"⟩, ⟨1, 2, "3:b"⟩] := by decide +kernel

theorem trail_eq_iff {crumbs others : List Crumb} (hcrumbs : LegibleTrail crumbs)
    (hothers : LegibleTrail others) :
    trail false crumbs = trail false others ↔ crumbs = others := by
  rw [← String.toList_inj, toList_trail, toList_trail]
  exact readsBack_readCrumb?.flatMap_eq_iff hcrumbs hothers

end Listing

end Breadcrumb
