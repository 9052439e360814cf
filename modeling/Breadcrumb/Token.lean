import Breadcrumb.Arithmetic
import Breadcrumb.Indicator
import Breadcrumb.Text.Blank
import Breadcrumb.Text.Bytes

/-!
# Leading tokens

The token a text starts with, just as it is written: a quoted scalar with its
marks, a flow collection with its brackets, or a plain word. What is not closed
runs to the end of the text. Open brackets are counted in 32-bit words, which wrap;
where they are checked instead, there may be no answer.

* `read?_eq`: where there is one, it is the token.
* `exists_append_of_leading?`: the token is a beginning of the text.
* `past_suffix`: what follows a token is an end of the text.
* `leading?_eq_takeBytes?`: so the token is cut off at a place of the text.
-/

namespace Breadcrumb.Token

open Text

/-- What follows a double-quoted scalar whose first mark is read. A backslash
takes the next character along. -/
def pastDouble : List Char → List Char
  | [] => []
  | '\\' :: [] => []
  | '\\' :: _ :: text => pastDouble text
  | '"' :: text => text
  | _ :: text => pastDouble text

/-- What follows a single-quoted scalar whose first mark is read. Two marks stand
for one. -/
def pastSingle : List Char → List Char
  | [] => []
  | '\'' :: '\'' :: text => pastSingle text
  | '\'' :: text => text
  | _ :: text => pastSingle text

/-- What follows the bracket that closes the last of `depth` open collections.
All brackets count, wherever they stand. -/
def pastFlow : UInt32 → List Char → List Char
  | _, [] => []
  | depth, c :: text =>
    if opensFlow c then pastFlow (depth + 1) text
    -- the count is a 32-bit word: after wrapping to 0, any closing bracket ends the token
    else if closesFlow c then (if depth ≤ 1 then text else pastFlow (depth - 1) text)
    else pastFlow depth text

/-- A plain token ends at a blank, a flow indicator, and a colon before a blank. -/
def endsPlain (c : Char) (next : Option Char) : Bool :=
  isBlank c || isFlowIndicator c || c = ':' && isBlankOrEnd next

def pastPlain : List Char → List Char
  | [] => []
  | c :: text => if endsPlain c text.head? then c :: text else pastPlain text

/-- What follows the token that starts with `c`. -/
def past (c : Char) (text : List Char) : List Char :=
  if c = '"' then pastDouble text
  else if c = '\'' then pastSingle text
  else if opensFlow c then pastFlow 1 text
  else pastPlain (c :: text)

/-- The token a text starts with; none if it is empty or starts with a blank. An
indicator that cannot start a plain token is a token by itself. -/
def leading? : List Char → Option (List Char)
  | [] => none
  | c :: text =>
    if isBlank c then none
    -- what ends a plain token at once would leave the token empty
    else some ((c :: text).take (max 1 ((c :: text).length - (past c text).length)))

/-- What `pastFlow` comes to, if the count of the brackets does not stop before. -/
def pastFlow? (arithmetic : Arithmetic) : UInt32 → List Char → Option (List Char)
  | _, [] => some []
  | depth, c :: text =>
    if opensFlow c then do
      let deeper ← arithmetic.increment? depth
      pastFlow? arithmetic deeper text
    else if closesFlow c then
      (if depth ≤ 1 then some text else pastFlow? arithmetic (depth - 1) text)
    else pastFlow? arithmetic depth text

/-- What follows the token that starts with `c`, if the count does not stop before. -/
def past? (arithmetic : Arithmetic) (c : Char) (text : List Char) : Option (List Char) :=
  if opensFlow c then pastFlow? arithmetic 1 text else some (past c text)

/-- Reads the token a text starts with, unless the count of its brackets stops. -/
def read? (arithmetic : Arithmetic) : List Char → Option (Option (List Char))
  | [] => some none
  | c :: text =>
    if isBlank c then some none
    else (past? arithmetic c text).map fun rest =>
      some ((c :: text).take (max 1 ((c :: text).length - rest.length)))

example : leading? "a:b: c".toList = some "a:b".toList := by decide
example : leading? "- a".toList = some "-".toList := by decide
example : leading? ": a".toList = some ":".toList := by decide
example : leading? "'it''s' b".toList = some "'it''s'".toList := by decide
example : leading? "[a, [b]]: c".toList = some "[a, [b]]".toList := by decide
example : leading? "\"a".toList = some "\"a".toList := by decide
example : leading? " a".toList = none := by decide

/-- **A token is what the text starts with.** -/
theorem exists_append_of_leading? {text token : List Char} (h : leading? text = some token) :
    ∃ rest, text = token ++ rest := by
  cases text with
  | nil => simp [leading?] at h
  | cons c text =>
    simp only [leading?] at h
    split at h
    · simp at h
    · cases h
      exact ⟨_, (List.take_append_drop _ _).symm⟩

/-! ## Where the count stops -/

/-- **The brackets are counted to the end of the collection**, unless there are too many. -/
theorem pastFlow?_eq (arithmetic : Arithmetic) (depth : UInt32) (text : List Char) :
    pastFlow? arithmetic depth text = some (pastFlow depth text) ∨
      pastFlow? arithmetic depth text = none ∧
        arithmetic.Stops UInt32.size (depth.toNat + text.countP opensFlow) := by
  fun_induction pastFlow depth text with
  | case1 depth => exact .inl rfl
  | case2 depth c text hopens ih =>
    rw [pastFlow?, if_pos hopens, Arithmetic.increment?_eq, List.countP_cons_of_pos hopens]
    by_cases hstops : arithmetic.Stops UInt32.size (depth.toNat + 1)
    · rw [if_pos hstops]
      exact .inr ⟨rfl, hstops.mono (by omega)⟩
    · have hdeeper : (depth + 1).toNat ≤ depth.toNat + 1 := by
        rw [UInt32.toNat_add]
        exact Nat.mod_le _ _
      rw [if_neg hstops]
      exact ih.imp_right fun h => ⟨h.1, h.2.mono (by omega)⟩
  | case3 depth c text hopens hcloses hlast =>
    rw [pastFlow?, if_neg hopens, if_pos hcloses, if_pos hlast]
    exact .inl rfl
  | case4 depth c text hopens hcloses hlast ih =>
    have hless : (depth - 1).toNat ≤ depth.toNat := by
      rw [UInt32.toNat_sub_of_le _ _ (UInt32.le_of_lt (UInt32.not_le.1 hlast))]
      exact Nat.sub_le _ _
    rw [pastFlow?, if_neg hopens, if_pos hcloses, if_neg hlast, List.countP_cons_of_neg hopens]
    exact ih.imp_right fun h => ⟨h.1, h.2.mono (by omega)⟩
  | case5 depth c text hopens hcloses ih =>
    rw [pastFlow?, if_neg hopens, if_neg hcloses, List.countP_cons_of_neg hopens]
    exact ih

theorem past?_eq (arithmetic : Arithmetic) (c : Char) (text : List Char) :
    past? arithmetic c text = some (past c text) ∨
      past? arithmetic c text = none ∧
        arithmetic.Stops UInt32.size ((c :: text).countP opensFlow) := by
  unfold past?
  by_cases hopens : opensFlow c = true
  · have hquote : c ≠ '"' ∧ c ≠ '\'' := by
      constructor <;> rintro rfl <;> exact absurd hopens (by decide)
    have hpast : past c text = pastFlow 1 text := by
      rw [past, if_neg hquote.1, if_neg hquote.2, if_pos hopens]
    rw [if_pos hopens, hpast, List.countP_cons_of_pos hopens]
    exact (pastFlow?_eq arithmetic 1 text).imp_right fun h =>
      ⟨h.1, h.2.mono (Nat.le_of_eq (Nat.add_comm _ _))⟩
  · rw [if_neg hopens]
    exact .inl rfl

/-- **The token is read**, unless more brackets open than there are words. -/
theorem read?_eq (arithmetic : Arithmetic) (text : List Char) :
    read? arithmetic text = some (leading? text) ∨
      read? arithmetic text = none ∧ arithmetic.Stops UInt32.size (text.countP opensFlow) := by
  cases text with
  | nil => exact .inl rfl
  | cons c text =>
    rw [read?, leading?]
    by_cases hblank : isBlank c = true
    · rw [if_pos hblank, if_pos hblank]
      exact .inl rfl
    rw [if_neg hblank, if_neg hblank]
    rcases past?_eq arithmetic c text with hpast | ⟨hpast, hstops⟩
    · rw [hpast]
      exact .inl rfl
    · rw [hpast]
      exact .inr ⟨rfl, hstops⟩

/-! ## Where tokens end -/

theorem pastDouble_suffix (text : List Char) : pastDouble text <:+ text := by
  fun_induction pastDouble text with
  | case1 => exact List.suffix_refl []
  | case2 => exact List.suffix_cons_iff.2 (.inr (List.suffix_refl []))
  | case3 c text ih => exact ih.trans ((List.suffix_cons c text).trans (List.suffix_cons _ _))
  | case4 text => exact List.suffix_cons _ text
  | case5 c text _ _ _ ih => exact ih.trans (List.suffix_cons c text)

theorem pastSingle_suffix (text : List Char) : pastSingle text <:+ text := by
  fun_induction pastSingle text with
  | case1 => exact List.suffix_refl []
  | case2 text ih => exact ih.trans ((List.suffix_cons _ text).trans (List.suffix_cons _ _))
  | case3 text => exact List.suffix_cons _ text
  | case4 c text _ _ ih => exact ih.trans (List.suffix_cons c text)

theorem pastFlow_suffix (depth : UInt32) (text : List Char) : pastFlow depth text <:+ text := by
  fun_induction pastFlow depth text with
  | case1 => exact List.suffix_refl []
  | case2 depth c text _ ih => exact ih.trans (List.suffix_cons c text)
  | case3 depth c text => exact List.suffix_cons c text
  | case4 depth c text _ _ _ ih => exact ih.trans (List.suffix_cons c text)
  | case5 depth c text _ _ ih => exact ih.trans (List.suffix_cons c text)

theorem pastPlain_suffix (text : List Char) : pastPlain text <:+ text := by
  fun_induction pastPlain text with
  | case1 => exact List.suffix_refl []
  | case2 c text => exact List.suffix_refl (c :: text)
  | case3 c text _ ih => exact ih.trans (List.suffix_cons c text)

/-- **What follows a token is an end of the text.** -/
theorem past_suffix (c : Char) (text : List Char) : past c text <:+ c :: text := by
  unfold past
  split
  · exact (pastDouble_suffix text).trans (List.suffix_cons c text)
  · split
    · exact (pastSingle_suffix text).trans (List.suffix_cons c text)
    · split
      · exact (pastFlow_suffix 1 text).trans (List.suffix_cons c text)
      · exact pastPlain_suffix (c :: text)

/-- The offset in bytes that the search for the end of the token comes to. -/
def endOffset (c : Char) (text : List Char) : Nat := byteSize (c :: text) - byteSize (past c text)

/-- **A token is cut off at a place of the text**: where the search comes to, or after
the first character if the search ends at once. -/
theorem leading?_eq_takeBytes? {c : Char} (hc : isBlank c = false) (text : List Char) :
    leading? (c :: text) =
      takeBytes? (if endOffset c text = 0 then c.utf8Size else endOffset c text) (c :: text) := by
  obtain ⟨token, htoken⟩ := past_suffix c text
  have hoffset : endOffset c text = byteSize token := by
    rw [endOffset, ← htoken, byteSize_append, Nat.add_sub_cancel]
  have hlength : (c :: text).length - (past c text).length = token.length := by
    rw [← htoken, List.length_append, Nat.add_sub_cancel]
  have hblank : ¬ isBlank c = true := by rw [hc]; decide
  rw [leading?, if_neg hblank, hlength, hoffset]
  by_cases hnil : token = []
  · -- the search ends at once, and the first character is taken
    have htake := takeBytes?_byteSize_append [c] text
    rw [byteSize_cons, byteSize_nil, Nat.add_zero] at htake
    subst hnil
    exact htake.symm
  · have hsize : ¬ byteSize token = 0 := fun h => hnil (byteSize_eq_zero.1 h)
    have hpos : max 1 token.length = token.length :=
      Nat.max_eq_right (List.length_pos_iff.2 hnil)
    have htake := takeBytes?_byteSize_append token (past c text)
    rw [if_neg hsize, hpos, ← htoken, htake, List.take_left]

end Breadcrumb.Token
