import Breadcrumb.Proofs.Leading
import Breadcrumb.Proofs.Midline

/-!
# Quoted tokens are quoted scalars

A text that starts with a quote mark is gone through twice: the search for its token looks for
the mark that closes it, and the reader keeps track of what each character is inside of. Here
both are compared with the grammar, which tells by the length of runs where a quoted token may
end, and so with each other.

* `Mode.afterQuoted_eq`, `closes_concat`, `pending_concat`: one more character of a scalar.
* `readerBefore_quoted`: the reader leaves the scalar where the token may end first.
* `leading?_eq_scalar`: the token is the longest beginning that is read as quoted.
-/

namespace Breadcrumb

open Text Token

/-! ## One more character -/

/-- The character that makes its neighbour literal in a quoted scalar. -/
def QuoteMark.escape : QuoteMark → Char
  | double => '\\'
  | single => '\''

namespace Token

/-- Where a quoted token may end. -/
def Closes : QuoteMark → (token rest : List Char) → Prop
  | .double => ClosesDouble
  | .single => ClosesSingle

/-- What follows in the scalar is literal: a run of odd length comes before it. -/
def pending (mark : QuoteMark) (inner : List Char) : Bool := endRun mark.escape inner % 2 = 1

section Concat

variable {mark : QuoteMark} {a c : Char} {inner rest : List Char}

theorem endRun_concat (a c : Char) (text : List Char) :
    endRun a (text ++ [c]) = if c = a then endRun a text + 1 else 0 := by
  unfold endRun
  rw [List.rtakeWhile_concat]
  by_cases hc : c = a <;> simp [hc]

theorem pending_eq_false_iff :
    pending mark inner = false ↔ endRun mark.escape inner % 2 = 0 := by
  rw [pending, decide_eq_false_iff_not, Nat.mod_two_not_eq_one]

theorem pending_concat : pending mark (inner ++ [c]) = (c = mark.escape && !pending mark inner) := by
  unfold pending
  rw [endRun_concat]
  by_cases hc : c = mark.escape
  · rcases Nat.mod_two_eq_zero_or_one (endRun mark.escape inner) with h | h <;>
      simp [hc, h, Nat.add_mod]
  · simp [hc]

/-- The first mark closes nothing. -/
theorem not_closes_nil : ¬ Closes mark [mark.char] rest := by
  cases mark with
  | double =>
    intro h
    exact not_endsDouble_nil ((closesDouble_cons [] rest).1 h)
  | single =>
    intro h
    exact not_endsSingle_nil ((closesSingle_cons [] rest).1 h)

/-- A token may end in a mark that is not literal and is not the first of two single quotes. -/
theorem closes_concat : Closes mark (mark.char :: (inner ++ [c])) rest ↔
    c = mark.char ∧ pending mark inner = false ∧ (mark = .single → rest.head? ≠ some '\'') := by
  rw [pending_eq_false_iff]
  cases mark with
  | double =>
    have hends : Closes .double ('"' :: (inner ++ [c])) rest ↔ EndsDouble (inner ++ [c]) rest :=
      closesDouble_cons _ _
    rw [QuoteMark.char, hends]
    constructor
    · rintro ⟨u, hu, heven⟩
      obtain ⟨rfl, hc⟩ := List.append_inj' hu rfl
      exact ⟨(List.cons.inj hc).1, heven, nofun⟩
    · rintro ⟨rfl, heven, -⟩
      exact ⟨inner, rfl, heven⟩
  | single =>
    have hends : Closes .single ('\'' :: (inner ++ [c])) rest ↔ EndsSingle (inner ++ [c]) rest :=
      closesSingle_cons _ _
    rw [QuoteMark.char, hends, EndsSingle, endRun_concat]
    by_cases hc : c = '\''
    · rcases Nat.mod_two_eq_zero_or_one (endRun '\'' inner) with h | h <;>
        simp [hc, h, QuoteMark.escape, Nat.add_mod]
    · simp [hc]

end Concat

end Token

/-- What a scalar goes on as past a character of it, told at once for both marks. -/
theorem Mode.afterQuoted_eq (mark : QuoteMark) (literal : Bool) (c : Char) (next : Option Char) :
    Mode.afterQuoted mark literal c next =
      if c = mark.char ∧ literal = false ∧ (mark = .single → next ≠ some '\'') then .plain
      else .quoted mark (c = mark.escape && !literal) := by
  unfold Mode.afterQuoted
  cases literal with
  | true => simp
  | false =>
    cases mark with
    | double =>
      by_cases hback : c = '\\'
      · simp [hback, QuoteMark.char, QuoteMark.escape]
      · simp [hback, QuoteMark.char, QuoteMark.escape]
    | single =>
      by_cases hc : c = '\''
      · by_cases hnext : next = some '\'' <;> simp [hc, hnext, QuoteMark.char, QuoteMark.escape]
      · simp [hc, QuoteMark.char, QuoteMark.escape]

/-! ## Through the scalar -/

section Through

variable {mark : QuoteMark} {text : List Char} {k : Nat}

/-- A quote mark that starts the line opens a scalar, past which no node may start. -/
theorem readerBefore_one (mark : QuoteMark) (text : List Char) :
    (readerBefore none (mark.char :: text) 1).mode = .quoted mark false ∧
      (readerBefore none (mark.char :: text) 1).atNode = false := by
  have hfirst : (mark.char :: text)[0]? = some mark.char := rfl
  rw [readerBefore_succ hfirst, Reader.read_of_opens rfl (Reader.opens?_char _ mark)]
  exact ⟨rfl, rfl⟩

/-- **Through the scalar.** As long as the token may not end, the reader is inside of the scalar,
and where the token may end first, it comes out of it. -/
theorem readerBefore_quoted (hk : k ≤ text.length)
    (hopen : ∀ j < k, ¬ Closes mark (mark.char :: text.take j) (text.drop j)) :
    (readerBefore none (mark.char :: text) (k + 1)).atNode = false ∧
    (Closes mark (mark.char :: text.take k) (text.drop k) →
      (readerBefore none (mark.char :: text) (k + 1)).mode = .plain) ∧
    (¬ Closes mark (mark.char :: text.take k) (text.drop k) →
      (readerBefore none (mark.char :: text) (k + 1)).mode =
        .quoted mark (pending mark (text.take k))) := by
  induction k with
  | zero =>
    obtain ⟨hmode, hnode⟩ := readerBefore_one mark text
    rw [List.take_zero, hmode]
    exact ⟨hnode, fun h => absurd h not_closes_nil, fun _ => rfl⟩
  | succ k ih =>
    -- nothing closes the scalar before `k`, so the reader is inside of it there
    obtain ⟨hnode, -, hmode⟩ := ih (by omega) fun j hj => hopen j (by omega)
    have hmode := hmode (hopen k (by omega))
    have hc : text[k]? = some text[k] := List.getElem?_eq_getElem (by omega)
    have hnext : (mark.char :: text)[k + 1]? = some text[k] := by rwa [List.getElem?_cons_succ]
    have htake : text.take (k + 1) = text.take k ++ [text[k]] := by
      rw [List.take_add_one, hc, Option.toList_some]
    rw [readerBefore_succ hnext, Reader.read_of_quoted hmode, htake, closes_concat,
      pending_concat, List.head?_drop, Mode.afterQuoted_eq, List.getElem?_cons_succ]
    exact ⟨hnode, fun h => if_pos h, fun h => if_neg h⟩

end Through

/-! ## Quoted tokens -/

namespace Token

/-- Each character of a beginning of the text is read as quoted. -/
def AllQuoted (token rest : List Char) : Prop :=
  ∀ k < token.length, classOfChar none (token ++ rest) k = .quoted

section Tokens

variable {mark : QuoteMark} {inner rest more : List Char}

/-- Of what follows a token no more than one character is looked at. -/
theorem Closes.append {d : Char} (h : Closes mark inner (d :: rest)) (more : List Char) :
    Closes mark inner (d :: (rest ++ more)) := by
  cases mark with
  | double => exact h
  | single =>
    obtain ⟨u, hu, hodd, hnext⟩ := h
    exact ⟨u, hu, hodd, hnext⟩

/-- A token that ends before more text ends at the end of the text, too. -/
theorem Closes.nil (h : Closes mark inner rest) : Closes mark inner [] := by
  cases mark with
  | double => exact h
  | single =>
    obtain ⟨u, hu, hodd, -⟩ := h
    exact ⟨u, hu, hodd, nofun⟩

/-- The search for the token cuts it off at the first place where it may end. -/
theorem exists_cutsFirst_closes (mark : QuoteMark) (text : List Char) : ∃ inner rest,
    leading? (mark.char :: text) = some (mark.char :: inner) ∧ inner ++ rest = text ∧
      CutsFirst (Closes mark) (mark.char :: inner) rest := by
  cases mark with
  | double =>
    obtain ⟨inner, happ, hcuts⟩ := leaves_pastDouble text
    have htoken : CutsFirst ClosesDouble ('"' :: inner) (pastDouble text) :=
      hcuts.cons not_closesDouble_nil closesDouble_cons
    exact ⟨inner, pastDouble text, leading?_of_append (by decide) happ, happ, htoken⟩
  | single =>
    obtain ⟨inner, happ, hcuts⟩ := leaves_pastSingle text
    have htoken : CutsFirst ClosesSingle ('\'' :: inner) (pastSingle text) :=
      hcuts.cons not_closesSingle_nil closesSingle_cons
    exact ⟨inner, pastSingle text, leading?_of_append (by decide) happ, happ, htoken⟩

variable (hcuts : CutsFirst (Closes mark) (mark.char :: inner) rest)

include hcuts

theorem not_closes_of_lt {j : Nat} (hj : j < inner.length) :
    ¬ Closes mark (mark.char :: (inner ++ rest).take j) ((inner ++ rest).drop j) := by
  intro h
  have hle := hcuts.first _ _ (by rw [List.cons_append, List.take_append_drop, List.cons_append]) h
  rw [List.length_cons, List.length_cons, List.length_take] at hle
  omega

/-- The reader at the end of the token is out of the scalar if the token may end there. -/
theorem readerBefore_token :
    (readerBefore none (mark.char :: (inner ++ rest)) (inner.length + 1)).atNode = false ∧
    (Closes mark (mark.char :: inner) rest →
      (readerBefore none (mark.char :: (inner ++ rest)) (inner.length + 1)).mode = .plain) ∧
    (¬ Closes mark (mark.char :: inner) rest →
      (readerBefore none (mark.char :: (inner ++ rest)) (inner.length + 1)).mode =
        .quoted mark (pending mark inner)) := by
  have hread := readerBefore_quoted (k := inner.length) (by simp)
    fun j hj => not_closes_of_lt hcuts hj
  rwa [List.take_left, List.drop_left] at hread

theorem closes_iff_mark? : Closes mark (mark.char :: inner) rest ↔
    (readerBefore none (mark.char :: (inner ++ rest)) (inner.length + 1)).mode.mark? = none := by
  obtain ⟨-, hcloses, hopen⟩ := readerBefore_token hcuts
  by_cases h : Closes mark (mark.char :: inner) rest
  · simp [h, hcloses h, Mode.mark?]
  · simp [h, hopen h, Mode.mark?]

/-- The token is cut off at the same place if nothing follows it. -/
theorem CutsFirst.closes_nil : CutsFirst (Closes mark) (mark.char :: inner) [] := by
  refine ⟨.inr rfl, fun u v heq hu => ?_⟩
  by_contra hlt
  obtain ⟨d, v, rfl⟩ : ∃ d w, v = d :: w := by
    cases v with
    | nil =>
      rw [List.append_nil, List.append_nil] at heq
      exact absurd (Nat.le_of_eq (congrArg List.length heq).symm) hlt
    | cons d w => exact ⟨d, w, rfl⟩
  have happ : u ++ d :: (v ++ rest) = mark.char :: inner ++ rest := by
    rw [← List.cons_append, ← List.append_assoc, heq, List.append_nil]
  exact hlt (hcuts.first u _ happ (Closes.append hu rest))

theorem closes_nil_iff : Closes mark (mark.char :: inner) [] ↔
    Closes mark (mark.char :: inner) rest := by
  rcases hcuts.ends with h | rfl
  · exact ⟨fun _ => h, fun _ => Closes.nil h⟩
  · exact Iff.rfl

/-- The quoting that the token by itself leaves behind. -/
theorem closes_iff_quotingAfter : Closes mark (mark.char :: inner) rest ↔
    quotingAfter none (mark.char :: inner) = none := by
  have hmark := closes_iff_mark? (CutsFirst.closes_nil hcuts)
  rw [List.append_nil] at hmark
  rw [← closes_nil_iff hcuts, hmark, quotingAfter_eq_readerBefore, List.length_cons]

theorem allQuoted_token : AllQuoted (mark.char :: inner) rest := by
  intro k hk
  cases k with
  | zero =>
    rw [classOfChar_eq rfl, Reader.classOf_of_plain rfl, Reader.opens?_char]
    rfl
  | succ k =>
    have hk : k < inner.length := by simpa using hk
    have hc : (inner ++ rest)[k]? = some inner[k] := by
      rw [List.getElem?_append_left hk, List.getElem?_eq_getElem hk]
    have hnext : (mark.char :: (inner ++ rest))[k + 1]? = some inner[k] := by
      rwa [List.getElem?_cons_succ]
    have hle : k ≤ (inner ++ rest).length := by
      rw [List.length_append]
      omega
    obtain ⟨-, -, hmode⟩ := readerBefore_quoted hle fun j hj => not_closes_of_lt hcuts (by omega)
    rw [List.cons_append, classOfChar_eq hnext, Reader.classOf,
      hmode (not_closes_of_lt hcuts hk)]
    rfl

/-- What follows the token is not read as quoted. -/
theorem longest_allQuoted : Longest AllQuoted (mark.char :: inner) rest := by
  refine ⟨allQuoted_token hcuts, fun u v heq hu => ?_⟩
  by_contra hlt
  have hlength := congrArg List.length heq
  rw [List.length_append, List.length_append, List.length_cons] at hlength
  rw [List.length_cons, Nat.not_le] at hlt
  cases rest with
  | nil =>
    rw [List.length_nil] at hlength
    omega
  | cons d rest =>
    obtain ⟨hnode, hcloses, -⟩ := readerBefore_token hcuts
    have hmode := hcloses (hcuts.ends.resolve_right (List.cons_ne_nil d rest))
    have hd : (mark.char :: (inner ++ d :: rest))[inner.length + 1]? = some d := by simp
    have hclass := hu (inner.length + 1) hlt
    rw [heq, List.cons_append, classOfChar_eq hd, Reader.classOf_of_plain hmode, Reader.opens?,
      hnode] at hclass
    split at hclass <;> cases hclass

end Tokens

/-- **A quoted token is a quoted scalar.** In a text that starts with a quote mark the token is
the longest beginning that is read as quoted, character by character. It is closed if and only if
the reader is outside of quotes right behind it, in the text and in the token by itself. If it is
not closed, it is all of the text, and the text leaves the scalar open. -/
theorem leading?_eq_scalar (mark : QuoteMark) (text : List Char) :
    ∃ token rest, leading? (mark.char :: text) = some token ∧ token ++ rest = mark.char :: text ∧
      Longest AllQuoted token rest ∧
      (Closes mark token rest ↔
        (readerBefore none (mark.char :: text) token.length).mode.mark? = none) ∧
      (Closes mark token rest ↔ quotingAfter none token = none) ∧
      (¬ Closes mark token rest →
        token = mark.char :: text ∧ quotingAfter none (mark.char :: text) = some mark) := by
  obtain ⟨inner, rest, hleading, rfl, hcuts⟩ := exists_cutsFirst_closes mark text
  refine ⟨mark.char :: inner, rest, hleading, rfl, longest_allQuoted hcuts,
    closes_iff_mark? hcuts, closes_iff_quotingAfter hcuts, fun hopen => ?_⟩
  obtain rfl : rest = [] := hcuts.ends.resolve_left hopen
  obtain ⟨-, -, hmode⟩ := readerBefore_token hcuts
  have hmode := hmode hopen
  rw [List.append_nil] at hmode ⊢
  rw [quotingAfter_eq_readerBefore, List.length_cons, hmode]
  exact ⟨rfl, rfl⟩

end Token

end Breadcrumb
