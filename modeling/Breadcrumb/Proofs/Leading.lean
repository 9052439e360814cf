import Breadcrumb.Proofs.Grammar
import Mathlib.Algebra.Group.Nat.Defs

/-!
# Leading tokens follow their grammar

The scans that look for the end of a token go character by character, and an escape takes its
neighbour along. They come to the same places as the grammar, which looks at the text as a whole.

* `leaves_pastDouble`, `leaves_pastSingle`, `leaves_pastFlow`, `exists_longest_pastPlain`: what
  each scan comes to.
* `exists_isToken`: every text that does not start with a blank has a token.
* `leading?_eq_some_iff`: the leading token is the one of the grammar.
-/

namespace Breadcrumb.Token

open Text

/-! ## Runs -/

section Runs

variable {a c : Char} {text : List Char}

theorem endRun_le_length (a : Char) (text : List Char) : endRun a text ≤ text.length :=
  (List.rtakeWhile_suffix _ text).length_le

theorem endRun_cons :
    endRun a (c :: text) =
      if endRun a text = text.length ∧ c = a then text.length + 1 else endRun a text := by
  unfold endRun List.rtakeWhile
  rw [List.reverse_cons, List.takeWhile_append, List.length_reverse, List.length_reverse,
    List.length_reverse]
  by_cases hrun : (text.reverse.takeWhile (· = a)).length = text.length
  · by_cases hc : c = a <;> simp [hrun, hc]
  · simp [hrun]

theorem endRun_cons_of_ne (h : c ≠ a) : endRun a (c :: text) = endRun a text := by
  rw [endRun_cons, if_neg fun hrun => h hrun.2]

/-- A character `a` that takes its neighbour along leaves it open whether the run is odd. -/
theorem endRun_cons_cons (a c : Char) (text : List Char) :
    endRun a (a :: c :: text) % 2 = endRun a text % 2 := by
  have hle := endRun_le_length a text
  rw [endRun_cons, endRun_cons, List.length_cons]
  by_cases hrun : endRun a text = text.length ∧ c = a
  · simp only [hrun, and_self, if_true]
    omega
  · have hne : ¬ endRun a text = text.length + 1 := by omega
    simp [hrun, hne]

end Runs

/-! ## Cutting off a token -/

/-- What is left of a text is what follows the token that `P` cuts off first. -/
def Leaves (P : List Char → List Char → Prop) (text rest : List Char) : Prop :=
  ∃ token, token ++ rest = text ∧ CutsFirst P token rest

section Leaves

variable {P Q : List Char → List Char → Prop} {text token rest : List Char} {c : Char}

theorem Leaves.nil : Leaves P [] [] := ⟨[], rfl, .inr rfl, fun _ _ _ _ => Nat.zero_le _⟩

/-- The first character may end the token. -/
theorem Leaves.singleton (hP : P [c] rest) (hnil : ¬ P [] (c :: rest)) :
    Leaves P (c :: rest) rest := by
  refine ⟨[c], rfl, .inl hP, fun u v heq hu => ?_⟩
  cases u with
  | nil =>
    obtain rfl : v = c :: rest := heq
    exact absurd hu hnil
  | cons d u => simp

/-- The token goes on past its first character, and `Q` is asked of what follows. -/
theorem CutsFirst.cons (h : CutsFirst Q token rest) (hnil : ¬ P [] (c :: (token ++ rest)))
    (hcons : ∀ u v, P (c :: u) v ↔ Q u v) : CutsFirst P (c :: token) rest := by
  refine ⟨h.ends.imp_left (hcons token rest).2, fun u v heq hu => ?_⟩
  cases u with
  | nil =>
    obtain rfl : v = c :: (token ++ rest) := heq
    exact absurd hu hnil
  | cons d u =>
    rw [List.cons_append, List.cons_append, List.cons.injEq] at heq
    obtain ⟨rfl, heq⟩ := heq
    have hle := h.first u v heq ((hcons u v).1 hu)
    simpa using hle

/-- Every text is cut off somewhere. -/
theorem exists_cutsFirst (P : List Char → List Char → Prop) (text : List Char) :
    ∃ token rest, token ++ rest = text ∧ CutsFirst P token rest := by
  induction text generalizing P with
  | nil => exact ⟨[], [], rfl, .inr rfl, fun _ _ _ _ => Nat.zero_le _⟩
  | cons c text ih =>
    by_cases hnil : P [] (c :: text)
    · exact ⟨[], c :: text, rfl, .inl hnil, fun _ _ _ _ => Nat.zero_le _⟩
    · obtain ⟨token, rest, rfl, hcuts⟩ := ih fun u v => P (c :: u) v
      exact ⟨c :: token, rest, rfl, hcuts.cons hnil fun _ _ => Iff.rfl⟩

theorem Leaves.cons (h : Leaves Q text rest) (hnil : ¬ P [] (c :: text))
    (hcons : ∀ u v, P (c :: u) v ↔ Q u v) : Leaves P (c :: text) rest := by
  obtain ⟨token, rfl, hcuts⟩ := h
  exact ⟨c :: token, rfl, hcuts.cons hnil hcons⟩

theorem Longest.nil (h : P [] rest) (hne : ∀ c u v, rest = c :: (u ++ v) → ¬ P (c :: u) v) :
    Longest P [] rest := by
  refine ⟨h, fun u v heq hu => ?_⟩
  cases u with
  | nil => simp
  | cons c u => exact absurd hu (hne c u v heq.symm)

theorem Longest.cons (h : Longest P token rest)
    (hcons : ∀ u v, u ++ v = token ++ rest → (P (c :: u) v ↔ P u v)) :
    Longest P (c :: token) rest := by
  refine ⟨(hcons token rest rfl).2 h.holds, fun u v heq hu => ?_⟩
  cases u with
  | nil => simp
  | cons d u =>
    rw [List.cons_append, List.cons_append, List.cons.injEq] at heq
    obtain ⟨rfl, heq⟩ := heq
    have hle := h.longest u v heq ((hcons u v heq).1 hu)
    simpa using hle

end Leaves

/-! ## Scans -/

/-- Where a double-quoted scalar ends whose first mark is read. -/
def EndsDouble (token _rest : List Char) : Prop :=
  ∃ inner, token = inner ++ ['"'] ∧ endRun '\\' inner % 2 = 0

/-- Where a single-quoted scalar ends whose first mark is read. -/
def EndsSingle (token rest : List Char) : Prop :=
  endRun '\'' token % 2 = 1 ∧ rest.head? ≠ some '\''

/-- Where the last of `depth` open collections ends. -/
def EndsFlow (depth : Nat) (token _rest : List Char) : Prop :=
  token.countP closesFlow = token.countP opensFlow + depth

section Scans

variable {c : Char} {u v : List Char}

theorem closesDouble_cons (u v : List Char) : ClosesDouble ('"' :: u) v ↔ EndsDouble u v := by
  simp [ClosesDouble, EndsDouble]

theorem not_closesDouble_nil : ¬ ClosesDouble [] v := by
  rintro ⟨inner, hinner, -⟩
  simp at hinner

theorem closesSingle_cons (u v : List Char) : ClosesSingle ('\'' :: u) v ↔ EndsSingle u v := by
  simp [ClosesSingle, EndsSingle]

theorem not_closesSingle_nil : ¬ ClosesSingle [] v := by
  rintro ⟨inner, hinner, -⟩
  simp at hinner

theorem not_endsDouble_nil : ¬ EndsDouble [] v := by
  rintro ⟨inner, hinner, -⟩
  simp at hinner

theorem endsDouble_cons_of_ne (hback : c ≠ '\\') (hmark : c ≠ '"') :
    EndsDouble (c :: u) v ↔ EndsDouble u v := by
  constructor
  · rintro ⟨inner, hinner, heven⟩
    cases inner with
    | nil =>
      simp only [List.nil_append, List.cons.injEq] at hinner
      exact absurd hinner.1 hmark
    | cons d inner =>
      rw [List.cons_append, List.cons.injEq] at hinner
      obtain ⟨rfl, rfl⟩ := hinner
      rw [endRun_cons_of_ne hback] at heven
      exact ⟨inner, rfl, heven⟩
  · rintro ⟨inner, rfl, heven⟩
    exact ⟨c :: inner, rfl, by rwa [endRun_cons_of_ne hback]⟩

theorem not_endsDouble_backslash : ¬ EndsDouble ['\\'] v := by
  rintro ⟨inner, hinner, -⟩
  cases inner with
  | nil => simp at hinner
  | cons d inner => simp at hinner

/-- A backslash takes the next character along. -/
theorem endsDouble_backslash (c : Char) (u v : List Char) :
    EndsDouble ('\\' :: c :: u) v ↔ EndsDouble u v := by
  constructor
  · rintro ⟨inner, hinner, heven⟩
    match inner with
    | [] => simp at hinner
    | [d] =>
      simp only [List.cons_append, List.nil_append, List.cons.injEq] at hinner
      obtain ⟨rfl, -⟩ := hinner
      exact absurd heven (by decide)
    | d :: e :: inner =>
      simp only [List.cons_append, List.cons.injEq] at hinner
      obtain ⟨rfl, rfl, rfl⟩ := hinner
      rw [endRun_cons_cons] at heven
      exact ⟨inner, rfl, heven⟩
  · rintro ⟨inner, rfl, heven⟩
    exact ⟨'\\' :: c :: inner, rfl, by rwa [endRun_cons_cons]⟩

theorem leaves_pastDouble (text : List Char) : Leaves EndsDouble text (pastDouble text) := by
  fun_induction pastDouble text with
  | case1 => exact Leaves.nil
  | case2 =>
    exact Leaves.nil.cons (Q := fun u v => EndsDouble ('\\' :: u) v) not_endsDouble_nil
      fun u v => Iff.rfl
  | case3 c text ih =>
    have hnext : Leaves (fun u v => EndsDouble ('\\' :: u) v) (c :: text) (pastDouble text) :=
      ih.cons not_endsDouble_backslash (endsDouble_backslash c)
    exact hnext.cons not_endsDouble_nil fun u v => Iff.rfl
  | case4 text => exact Leaves.singleton ⟨[], rfl, by decide⟩ not_endsDouble_nil
  | case5 c text hlast hpair hmark ih =>
    have hback : c ≠ '\\' := by
      rintro rfl
      cases text with
      | nil => exact hlast rfl rfl
      | cons d text => exact hpair d text rfl rfl
    exact ih.cons not_endsDouble_nil fun u v => endsDouble_cons_of_ne hback hmark

theorem not_endsSingle_nil : ¬ EndsSingle [] v := by
  rintro ⟨hodd, -⟩
  exact absurd hodd (by decide)

theorem leaves_pastSingle (text : List Char) : Leaves EndsSingle text (pastSingle text) := by
  fun_induction pastSingle text with
  | case1 => exact Leaves.nil
  | case2 text ih =>
    -- the first of two marks ends nothing, since the other one follows
    have hfirst : ¬ EndsSingle ['\''] ('\'' :: text) := fun h => h.2 rfl
    have hnext : Leaves (fun u v => EndsSingle ('\'' :: u) v) ('\'' :: text) (pastSingle text) :=
      ih.cons hfirst fun u v => by rw [EndsSingle, EndsSingle, endRun_cons_cons]
    exact hnext.cons not_endsSingle_nil fun u v => Iff.rfl
  | case3 text hnext =>
    have hhead : text.head? ≠ some '\'' := by
      intro hhead
      obtain ⟨rest, rfl⟩ := List.head?_eq_some_iff.1 hhead
      exact hnext rest rfl
    exact Leaves.singleton ⟨by decide, hhead⟩ not_endsSingle_nil
  | case4 c text hpair hmark ih =>
    exact ih.cons not_endsSingle_nil fun u v => by
      rw [EndsSingle, EndsSingle, endRun_cons_of_ne hmark]

theorem closesFlow_of_opensFlow (h : opensFlow c = true) : closesFlow c = false := by
  unfold opensFlow at h
  rw [Bool.or_eq_true, decide_eq_true_eq, decide_eq_true_eq] at h
  rcases h with rfl | rfl <;> rfl

theorem not_endsFlow_nil {depth : Nat} (h : 0 < depth) : ¬ EndsFlow depth [] v := by
  intro hends
  have hends : 0 = 0 + depth := hends
  omega

theorem endsFlow_cons_of_opens {depth : Nat} (h : opensFlow c = true) :
    EndsFlow depth (c :: u) v ↔ EndsFlow (depth + 1) u v := by
  unfold EndsFlow
  rw [List.countP_cons_of_pos h, List.countP_cons_of_neg (by simp [closesFlow_of_opensFlow h])]
  omega

theorem endsFlow_cons_of_closes {depth : Nat} (hopens : ¬ opensFlow c = true)
    (hcloses : closesFlow c = true) (hpos : 0 < depth) :
    EndsFlow depth (c :: u) v ↔ EndsFlow (depth - 1) u v := by
  unfold EndsFlow
  rw [List.countP_cons_of_neg hopens, List.countP_cons_of_pos hcloses]
  omega

theorem endsFlow_cons_of_neither {depth : Nat} (hopens : ¬ opensFlow c = true)
    (hcloses : ¬ closesFlow c = true) : EndsFlow depth (c :: u) v ↔ EndsFlow depth u v := by
  unfold EndsFlow
  rw [List.countP_cons_of_neg hopens, List.countP_cons_of_neg hcloses]

theorem not_balanced_nil : ¬ Balanced [] v := fun h => h.1 rfl

theorem balanced_cons (h : opensFlow c = true) : Balanced (c :: u) v ↔ EndsFlow 1 u v := by
  unfold Balanced EndsFlow
  rw [List.countP_cons_of_pos h, List.countP_cons_of_neg (by simp [closesFlow_of_opensFlow h])]
  simp

/-- The scan counts in 32-bit words, which do not wrap if there are not too many brackets. -/
theorem leaves_pastFlow (depth : UInt32) (text : List Char) (hpos : 0 < depth.toNat)
    (hbound : depth.toNat + text.countP opensFlow < 2 ^ 32) :
    Leaves (EndsFlow depth.toNat) text (pastFlow depth text) := by
  fun_induction pastFlow depth text with
  | case1 => exact Leaves.nil
  | case2 depth c text hopens ih =>
    rw [List.countP_cons_of_pos hopens] at hbound
    have hdepth : (depth + 1).toNat = depth.toNat + 1 := by
      rw [UInt32.toNat_add]
      exact Nat.mod_eq_of_lt (by simp; omega)
    rw [hdepth] at ih
    have hrest := ih (by omega) (by omega)
    exact hrest.cons (not_endsFlow_nil hpos) fun u v => endsFlow_cons_of_opens hopens
  | case3 depth c text hopens hcloses hone =>
    have hle : depth.toNat ≤ 1 := UInt32.le_iff_toNat_le.1 hone
    have hdepth : depth.toNat = 1 := by omega
    refine Leaves.singleton ?_ (not_endsFlow_nil hpos)
    simp [EndsFlow, hopens, hcloses, hdepth]
  | case4 depth c text hopens hcloses hone ih =>
    rw [List.countP_cons_of_neg hopens] at hbound
    have hlt : 1 < depth.toNat := UInt32.lt_iff_toNat_lt.1 (UInt32.not_le.1 hone)
    have hdepth : (depth - 1).toNat = depth.toNat - 1 :=
      UInt32.toNat_sub_of_le _ _ (UInt32.le_iff_toNat_le.2 hpos)
    rw [hdepth] at ih
    have hrest := ih (by omega) (by omega)
    exact hrest.cons (not_endsFlow_nil hpos) fun u v => endsFlow_cons_of_closes hopens hcloses hpos
  | case5 depth c text hopens hcloses ih =>
    rw [List.countP_cons_of_neg hopens] at hbound
    have hrest := ih hpos hbound
    exact hrest.cons (not_endsFlow_nil hpos) fun u v => endsFlow_cons_of_neither hopens hcloses

theorem plain_nil (rest : List Char) : Plain [] rest := by
  refine ⟨by simp, fun a b h => ?_⟩
  simp at h

theorem endsPlain_eq_false_iff {next : Option Char} :
    endsPlain c next = false ↔ (isBlank c = false ∧ isFlowIndicator c = false) ∧
      (c = ':' → ∃ d, next = some d ∧ isBlank d = false) := by
  have hnext : isBlankOrEnd next = false ↔ ∃ d, next = some d ∧ isBlank d = false := by
    cases next <;> simp
  unfold endsPlain
  rw [Bool.or_eq_false_iff, Bool.or_eq_false_iff, Bool.and_eq_false_iff, decide_eq_false_iff_not,
    hnext]
  tauto

/-- A word is read character by character. -/
theorem plain_cons : Plain (c :: u) v ↔ endsPlain c (u ++ v).head? = false ∧ Plain u v := by
  rw [endsPlain_eq_false_iff]
  constructor
  · rintro ⟨hchars, hcolons⟩
    refine ⟨⟨hchars c List.mem_cons_self, ?_⟩, fun d hd => hchars d (List.mem_cons_of_mem c hd), ?_⟩
    · rintro rfl
      exact hcolons [] u rfl
    · rintro a b rfl
      exact hcolons (c :: a) b rfl
  · rintro ⟨⟨hc, hcolon⟩, hchars, hcolons⟩
    refine ⟨fun d hd => ?_, fun a b heq => ?_⟩
    · rcases List.mem_cons.1 hd with rfl | hd
      · exact hc
      · exact hchars d hd
    · cases a with
      | nil =>
        rw [List.nil_append, List.cons.injEq] at heq
        obtain ⟨rfl, rfl⟩ := heq
        exact hcolon rfl
      | cons d a =>
        rw [List.cons_append, List.cons.injEq] at heq
        exact hcolons a b heq.2

theorem exists_longest_pastPlain (text : List Char) : ∃ word,
    word ++ pastPlain text = text ∧ Longest Plain word (pastPlain text) := by
  fun_induction pastPlain text with
  | case1 => exact ⟨[], rfl, Longest.nil (plain_nil []) (by simp)⟩
  | case2 c text hends =>
    refine ⟨[], rfl, Longest.nil (plain_nil _) fun d u v heq hword => ?_⟩
    rw [List.cons.injEq] at heq
    obtain ⟨rfl, rfl⟩ := heq
    rw [(plain_cons.1 hword).1] at hends
    cases hends
  | case3 c text hends ih =>
    obtain ⟨word, htext, hlong⟩ := ih
    have hcons : ∀ u v, u ++ v = word ++ pastPlain text → (Plain (c :: u) v ↔ Plain u v) := by
      intro u v heq
      rw [plain_cons, heq, htext, Bool.eq_false_iff.2 hends]
      simp
    exact ⟨c :: word, by rw [List.cons_append, htext], hlong.cons hcons⟩

end Scans

/-! ## The leading token -/

section Leading

variable {c : Char} {inner text : List Char}

/-- What is not past the token is the token. -/
theorem leading?_of_append (hc : isBlank c = false) (h : inner ++ past c text = text) :
    leading? (c :: text) = some (c :: inner) := by
  have hlength : (c :: text).length - (past c text).length = (c :: inner).length := by
    have htext := congrArg List.length h
    rw [List.length_append] at htext
    simp only [List.length_cons]
    omega
  have hblank : ¬ isBlank c = true := by rw [hc]; decide
  have hpos : max 1 (c :: inner).length = (c :: inner).length := Nat.max_eq_right (by simp)
  have htake : (c :: text).take (c :: inner).length = c :: inner := by
    rw [← h, ← List.cons_append, List.take_left]
  rw [leading?, if_neg hblank, hlength, hpos, htake]

/-- Where the search ends at once, the first character is the token. -/
theorem leading?_of_past_eq (hc : isBlank c = false) (h : past c text = c :: text) :
    leading? (c :: text) = some [c] := by
  have hblank : ¬ isBlank c = true := by rw [hc]; decide
  rw [leading?, if_neg hblank, h, Nat.sub_self]
  simp

theorem past_of_opensFlow (h : opensFlow c = true) (text : List Char) :
    past c text = pastFlow 1 text := by
  have hdouble : c ≠ '"' := by rintro rfl; exact absurd h (by decide)
  have hsingle : c ≠ '\'' := by rintro rfl; exact absurd h (by decide)
  rw [past, if_neg hdouble, if_neg hsingle, if_pos h]

theorem past_of_startsPlain (h : StartsPlain c) (text : List Char) :
    past c text = pastPlain (c :: text) := by
  rw [past, if_neg h.not_quote.1, if_neg h.not_quote.2,
    if_neg (Bool.eq_false_iff.1 h.not_opensFlow)]

theorem leading?_eq_none_iff {text : List Char} :
    leading? text = none ↔ text = [] ∨ ∃ c rest, text = c :: rest ∧ isBlank c = true := by
  cases text with
  | nil => simp [leading?]
  | cons c text => cases hc : isBlank c <;> simp [leading?, hc]

theorem exists_isToken_of_append (hc : isBlank c = false) (h : inner ++ past c text = text)
    (htoken : IsToken (c :: inner) (past c text)) : ∃ token rest,
    leading? (c :: text) = some token ∧ token ++ rest = c :: text ∧ IsToken token rest :=
  ⟨c :: inner, past c text, leading?_of_append hc h, by rw [List.cons_append, h], htoken⟩

/-- **The search finds a token** of the grammar in every text that does not start with a
blank. -/
theorem exists_isToken (hc : isBlank c = false)
    (hbound : (c :: text).countP opensFlow < 2 ^ 32) : ∃ token rest,
    leading? (c :: text) = some token ∧ token ++ rest = c :: text ∧ IsToken token rest := by
  rcases startsPlain_or hc with rfl | rfl | hopens | hstarts
  · obtain ⟨inner, happ, hcuts⟩ := leaves_pastDouble text
    have htoken := hcuts.cons not_closesDouble_nil closesDouble_cons
    exact exists_isToken_of_append hc happ (.double htoken)
  · obtain ⟨inner, happ, hcuts⟩ := leaves_pastSingle text
    have htoken := hcuts.cons not_closesSingle_nil closesSingle_cons
    exact exists_isToken_of_append hc happ (.single htoken)
  · rw [List.countP_cons_of_pos hopens] at hbound
    have hdepth : (1 : UInt32).toNat + text.countP opensFlow < 2 ^ 32 := by
      rw [UInt32.toNat_one]
      omega
    obtain ⟨inner, happ, hcuts⟩ := leaves_pastFlow 1 text (by decide) hdepth
    rw [← past_of_opensFlow hopens text] at happ hcuts
    have htoken := hcuts.cons not_balanced_nil fun u v => balanced_cons hopens
    exact exists_isToken_of_append hc happ (.flow hopens htoken)
  · obtain ⟨word, happ, hlong⟩ := exists_longest_pastPlain (c :: text)
    rw [← past_of_startsPlain hstarts text] at happ hlong
    cases word with
    | nil =>
      -- the character ends a word at once, and is an indicator
      have hpast : past c text = c :: text := happ
      rw [hpast] at hlong
      exact ⟨[c], text, leading?_of_past_eq hc hpast, rfl, .indicator hstarts hlong⟩
    | cons d inner =>
      rw [List.cons_append, List.cons.injEq] at happ
      obtain ⟨rfl, happ⟩ := happ
      exact exists_isToken_of_append hc happ (.plain hstarts hlong)

/-- **The leading token is the one of the grammar.** In a text with fewer than 2 ^ 32 brackets, no
token leads if and only if the text is empty or starts with a blank. Else a token leads
if and only if it is the beginning of the text that the grammar tells: a quoted scalar up to its
closing mark, a flow collection up to the bracket that balances it, each all of the text if it
is not closed, or the longest plain word, or a lone indicator. It is not empty. -/
theorem leading?_eq_some_iff {text : List Char}
    (hbrackets : (text.countP fun c => opensFlow c || closesFlow c) < 2 ^ 32) :
    (leading? text = none ↔ text = [] ∨ ∃ c rest, text = c :: rest ∧ isBlank c = true) ∧
    ∀ token, leading? text = some token ↔
      token ≠ [] ∧ ∃ rest, text = token ++ rest ∧ IsToken token rest := by
  have hbound : text.countP opensFlow < 2 ^ 32 := by
    refine Nat.lt_of_le_of_lt (List.countP_mono_left fun c _ hc => ?_) hbrackets
    rw [hc, Bool.true_or]
  refine ⟨leading?_eq_none_iff, fun token => ⟨fun hsome => ?_, ?_⟩⟩
  · have hnone : ¬ (text = [] ∨ ∃ c rest, text = c :: rest ∧ isBlank c = true) := by
      rw [← leading?_eq_none_iff, hsome]
      exact Option.some_ne_none token
    cases text with
    | nil => exact absurd (.inl rfl) hnone
    | cons c text =>
      have hc : isBlank c = false := Bool.eq_false_iff.2 fun hc => hnone (.inr ⟨c, text, rfl, hc⟩)
      obtain ⟨other, rest, hother, happ, htoken⟩ := exists_isToken hc hbound
      obtain rfl : other = token := Option.some.inj (hother.symm.trans hsome)
      exact ⟨htoken.ne_nil, rest, happ.symm, htoken⟩
  · rintro ⟨-, more, rfl, hgrammar⟩
    obtain ⟨c, inner, rfl, hc⟩ := hgrammar.exists_cons
    rw [List.cons_append] at hbound ⊢
    obtain ⟨token, rest, hsome, happ, htoken⟩ := exists_isToken hc hbound
    rw [hsome, htoken.eq hgrammar happ]

/-- A bracket between quotes closes a collection of the other kind. -/
theorem leading?_eq_some_iff_quoted_bracket :
    let text := "\x7ba: ']'\x7d: b".toList
    let token := "\x7ba: ']".toList
    (text.countP fun c => opensFlow c || closesFlow c) < 2 ^ 32 ∧
      leading? text = some token ∧
      token ≠ [] ∧ ∃ rest, text = token ++ rest ∧ IsToken token rest := by
  intro text token
  have hbrackets : (text.countP fun c => opensFlow c || closesFlow c) < 2 ^ 32 := by decide
  have hsome : leading? text = some token := by decide
  exact ⟨hbrackets, hsome, ((leading?_eq_some_iff hbrackets).2 token).1 hsome⟩

end Leading

end Breadcrumb.Token
