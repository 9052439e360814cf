import Breadcrumb.Proofs.Continuation

/-!
# Readers in the middle of a line

What is known before each character of a line. The two ways to read a line, to its end for
the quoting it leaves behind and up to an offset for the class of a character there, go
through the same readers.

* `Reader.classOf_eq_code_iff`, `Reader.classOf_eq_comment_iff`: the class of a character tells
  what the reader is inside of.
* `run_drop`, `classAt_drop`: both ways read on from any reader in the middle.
* `classOfChar_eq`: the class of a character is the one its reader gives it.
* `classAt_of_le`: past the end, the class of what the line ends in.
-/

namespace Breadcrumb

open Text

namespace Reader

/-! ## One character -/

variable {r : Reader} {c : Char} {next : Option Char}

theorem charClass_ne_code {mode : Mode} (h : mode ≠ .plain) : mode.charClass ≠ .code := by
  cases mode with
  | plain => exact absurd rfl h
  | quoted mark literal => nofun
  | comment => nofun

theorem opens?_ne_plain : r.opens? c ≠ some .plain := by
  unfold opens?
  cases QuoteMark.ofChar? c <;> repeat' split
  all_goals nofun

/-- Comments open at a `#` that follows a blank. -/
theorem opens?_eq_comment_iff : r.opens? c = some .comment ↔ c = '#' ∧ r.afterBlank = true := by
  unfold opens?
  cases QuoteMark.ofChar? c <;> cases r.afterBlank <;> cases r.atNode <;> simp

/-- Quote marks open scalars where a node may start. -/
theorem opens?_char (r : Reader) (mark : QuoteMark) :
    r.opens? mark.char = if r.atNode then some (.quoted mark false) else none := by
  have hhash : mark.char ≠ '#' := by cases mark <;> decide
  simp [opens?, hhash]

/-- A scalar is closed by its mark. -/
theorem eq_char_of_afterQuoted {mark : QuoteMark} {literal : Bool}
    (h : Mode.afterQuoted mark literal c next = .plain) : c = mark.char := by
  unfold Mode.afterQuoted at h
  by_contra hc
  cases literal with
  | true => simp at h
  | false =>
    cases mark with
    | single => simp [show c ≠ '\'' from hc] at h
    | double =>
      have hc : c ≠ '"' := hc
      by_cases hback : c = '\\' <;> simp [hc, hback] at h

theorem classOf_eq_code_iff : r.classOf c = .code ↔ r.mode = .plain ∧ r.opens? c = none := by
  cases hmode : r.mode with
  | plain =>
    rw [classOf_of_plain hmode]
    cases hopens : r.opens? c with
    | none => simp [Mode.charClass]
    | some mode =>
      have hplain : mode ≠ .plain := fun h => opens?_ne_plain (h ▸ hopens)
      simp [charClass_ne_code hplain]
  | quoted mark literal => simp [classOf, hmode, Mode.charClass]
  | comment => simp [classOf, hmode, Mode.charClass]

/-- The characters of a comment are those past which a reader is inside of one. -/
theorem classOf_eq_comment_iff : r.classOf c = .comment ↔ (r.read c next).mode = .comment := by
  cases hmode : r.mode with
  | plain =>
    rw [classOf_of_plain hmode]
    cases hopens : r.opens? c with
    | none => simp [read_of_code hmode hopens, mode_readCode, hmode, Mode.charClass]
    | some mode => cases mode <;> simp [read_of_opens hmode hopens, Mode.charClass]
  | quoted mark literal =>
    simp [classOf, hmode, Mode.charClass, read_of_quoted hmode, afterQuoted_ne_comment]
  | comment => simp [classOf, hmode, Mode.charClass, read_of_comment hmode]

end Reader

/-! ## On the way through a line -/

variable (opening : Option QuoteMark) (text : List Char)

/-- The reader before the character at `i` of a line; past the end, the last one. -/
def readerBefore : Nat → Reader
  | 0 => Reader.start opening
  | i + 1 =>
    match text[i]? with
    | some c => (readerBefore i).read c text[i + 1]?
    | none => readerBefore i

/-- The class of the character at `i` of a line, found by its offset in bytes. -/
def classOfChar (i : Nat) : CharClass := classAt opening text (byteSize (text.take i))

variable {opening text}

theorem readerBefore_succ {i : Nat} {c : Char} (h : text[i]? = some c) :
    readerBefore opening text (i + 1) = (readerBefore opening text i).read c text[i + 1]? := by
  simp only [readerBefore, h]

theorem readerBefore_succ_of_none {i : Nat} (h : text[i]? = none) :
    readerBefore opening text (i + 1) = readerBefore opening text i := by
  simp only [readerBefore, h]

theorem drop_eq_cons {i : Nat} {c : Char} (h : text[i]? = some c) :
    text.drop i = c :: text.drop (i + 1) := by
  obtain ⟨hi, rfl⟩ := List.getElem?_eq_some_iff.1 h
  exact List.drop_eq_getElem_cons hi

theorem byteSize_take_succ {i : Nat} {c : Char} (h : text[i]? = some c) :
    byteSize (text.take (i + 1)) = byteSize (text.take i) + c.utf8Size := by
  rw [List.take_add_one, h, byteSize_append, Option.toList_some, byteSize_cons, byteSize_nil,
    Nat.add_zero]

/-- Reading on from the middle of a line comes to its end. -/
theorem run_drop (i : Nat) :
    (readerBefore opening text i).run (text.drop i) = (Reader.start opening).run text := by
  induction i with
  | zero => rfl
  | succ i ih =>
    rw [← ih]
    cases h : text[i]? with
    | none =>
      have hi := List.getElem?_eq_none_iff.1 h
      rw [readerBefore_succ_of_none h, List.drop_eq_nil_of_le hi,
        List.drop_eq_nil_of_le (Nat.le_succ_of_le hi)]
    | some c => rw [readerBefore_succ h, drop_eq_cons h, Reader.run, List.head?_drop]

/-- The quoting a line ends in is that of the reader at its end. -/
theorem quotingAfter_eq_readerBefore :
    quotingAfter opening text = (readerBefore opening text text.length).mode.mark? := by
  have hrun := @run_drop opening text text.length
  rw [List.drop_length] at hrun
  rw [quotingAfter, ← hrun]
  rfl

/-- Offsets past a character are found by reading on from there. -/
theorem classAt_drop (i offset : Nat) :
    (readerBefore opening text i).classAt offset (text.drop i) =
      classAt opening text (byteSize (text.take i) + offset) := by
  induction i generalizing offset with
  | zero => rw [List.take_zero, byteSize_nil, Nat.zero_add]; rfl
  | succ i ih =>
    cases h : text[i]? with
    | none =>
      have hi := List.getElem?_eq_none_iff.1 h
      have hdrop : text.drop (i + 1) = text.drop i := by
        rw [List.drop_eq_nil_of_le hi, List.drop_eq_nil_of_le (Nat.le_succ_of_le hi)]
      have htake : text.take (i + 1) = text.take i := by
        rw [List.take_of_length_le hi, List.take_of_length_le (Nat.le_succ_of_le hi)]
      rw [readerBefore_succ_of_none h, hdrop, htake]
      exact ih offset
    | some c =>
      rw [byteSize_take_succ h, Nat.add_assoc, ← ih, drop_eq_cons h, Reader.classAt_cons,
        readerBefore_succ h, List.head?_drop]

/-- **The class of a character** is the one its reader gives it. -/
theorem classOfChar_eq {i : Nat} {c : Char} (h : text[i]? = some c) :
    classOfChar opening text i = (readerBefore opening text i).classOf c := by
  have hread := @classAt_drop opening text i 0
  rw [drop_eq_cons h, Reader.classAt, if_pos rfl] at hread
  exact hread.symm

/-- Past the end of the line, the class of what the line ends in. -/
theorem classAt_of_le {offset : Nat} (h : byteSize text ≤ offset) :
    classAt opening text offset = ((Reader.start opening).run text).mode.charClass := by
  have hread := @classAt_drop opening text text.length (offset - byteSize text)
  have hrun := @run_drop opening text text.length
  rw [List.drop_length] at hread hrun
  rw [List.take_length, Nat.add_sub_cancel' h] at hread
  rw [← hread, ← hrun]
  rfl

end Breadcrumb
