import Breadcrumb.Proofs.Leading
import Breadcrumb.Proofs.Opening

/-!
# Flow collections

The token of a flow collection ends at the bracket that balances the first one, wherever the
brackets stand. The reader counts on its own, and only brackets of code: not those in quoted
scalars and comments. Each of the two ends at the first place where its own brackets balance, so
they end at the same place if no bracket of the token is quoted or in a comment.

* `depth_add_codeCount`: up to there, the reader is as deep as brackets of code are open.
* `cutsFirst_returns_iff`: it is outside again where the brackets of code balance first.
* `leading?_eq_collection`: the token ends there if all its brackets are code.
-/

namespace Breadcrumb

open Text Token

/-! ## One character -/

namespace Reader

variable {r : Reader} {c : Char} {next : Option Char}

/-- Brackets are indicators of no other kind. -/
theorem ne_of_bracket (h : opensFlow c = true ∨ closesFlow c = true) :
    isBlank c = false ∧ c ≠ ':' ∧ c ≠ '-' ∧ c ≠ '?' ∧ c ≠ ',' := by
  unfold opensFlow closesFlow at h
  rw [Bool.or_eq_true, Bool.or_eq_true] at h
  simp only [decide_eq_true_eq] at h
  rcases h with (rfl | rfl) | rfl | rfl <;> decide

/-- In a collection, or where one may start, brackets of code count. -/
theorem depth_readCode (h : r.atNode = true ∨ 0 < r.depth) : (r.readCode c next).depth =
    if opensFlow c then r.depth + 1 else if closesFlow c then r.depth - 1 else r.depth := by
  obtain ⟨mode, afterBlank, atNode, depth⟩ := r
  have hopen : (atNode || decide (0 < depth)) = true := by simpa using h
  by_cases hopens : opensFlow c = true
  · obtain ⟨hblank, hcolon, hdash, hquery, -⟩ := ne_of_bracket (.inl hopens)
    simp [readCode, hblank, hcolon, hdash, hquery, hopens, hopen]
  · by_cases hcloses : closesFlow c = true
    · obtain ⟨hblank, hcolon, hdash, hquery, hcomma⟩ := ne_of_bracket (.inr hcloses)
      rcases Nat.eq_zero_or_pos depth with rfl | hdepth
      · simp [readCode, hblank, hcolon, hdash, hquery, hcomma, hopens, hcloses]
      · simp [readCode, hblank, hcolon, hdash, hquery, hopens, hcloses, hdepth]
    · rw [if_neg hopens, if_neg hcloses]
      unfold readCode
      repeat' split
      all_goals simp_all

/-- Quoted characters and comments leave the depth as it is. -/
theorem depth_read_of_not_code (h : r.classOf c ≠ .code) : (r.read c next).depth = r.depth := by
  cases hmode : r.mode with
  | plain =>
    cases hopens : r.opens? c with
    | none => exact absurd (classOf_eq_code_iff.2 ⟨hmode, hopens⟩) h
    | some mode => rw [read_of_opens hmode hopens]
  | quoted mark literal => rw [read_of_quoted hmode]
  | comment => rw [read_of_comment hmode]

end Reader

/-! ## Brackets of code -/

/-- How many of the first `k` characters are code and as `p` asks. -/
def codeCount (p : Char → Bool) (text : List Char) (k : Nat) : Nat :=
  (List.range k).countP fun j => isCode text j && text[j]?.any p

section Count

variable {p : Char → Bool} {text : List Char} {k : Nat} {c : Char}

theorem codeCount_succ : codeCount p text (k + 1) =
    codeCount p text k + if isCode text k && text[k]?.any p then 1 else 0 := by
  unfold codeCount
  rw [List.range_succ, List.countP_append, List.countP_singleton]

/-- If they all are code, they are counted as in any text. -/
theorem codeCount_eq_countP
    (h : ∀ j < k, ∀ c, text[j]? = some c → p c = true → isCode text j = true) :
    codeCount p text k = (text.take k).countP p := by
  induction k with
  | zero => rfl
  | succ k ih =>
    rw [codeCount_succ, ih fun j hj => h j (by omega), List.take_add_one, List.countP_append]
    cases hc : text[k]? with
    | none => simp
    | some c =>
      by_cases hp : p c = true
      · simp [h k (Nat.lt_succ_self k) c hc hp, hp]
      · simp [hp]

/-- **One character on**, in a collection or where one may start. -/
theorem depth_readerBefore_succ (hc : text[k]? = some c)
    (hin : (readerBefore none text k).atNode = true ∨ 0 < (readerBefore none text k).depth) :
    (readerBefore none text (k + 1)).depth =
      if isCode text k && opensFlow c then (readerBefore none text k).depth + 1
      else if isCode text k && closesFlow c then (readerBefore none text k).depth - 1
      else (readerBefore none text k).depth := by
  rw [readerBefore_succ hc]
  cases hcode : isCode text k with
  | true =>
    obtain ⟨hmode, hopens⟩ := (isCode_iff hc).1 hcode
    rw [Reader.read_of_code hmode hopens, Reader.depth_readCode hin, Bool.true_and, Bool.true_and]
  | false =>
    have hclass : (readerBefore none text k).classOf c ≠ .code := by
      rw [Ne, Reader.classOf_eq_code_iff, ← isCode_iff hc, hcode]
      decide
    simp [Reader.depth_read_of_not_code hclass]

end Count

/-! ## Through a collection -/

section Through

variable {c : Char} {text : List Char} (hopens : opensFlow c = true)

include hopens

/-- **Through a collection.** The reader is as deep as brackets of code are open, up to the first
place where it is outside again, which is the first place where they balance. -/
theorem depth_add_codeCount {k : Nat} (hk : k ≤ (c :: text).length)
    (hin : ∀ j, 0 < j → j < k → (readerBefore none (c :: text) j).depth ≠ 0 ∨
      codeCount closesFlow (c :: text) j ≠ codeCount opensFlow (c :: text) j) :
    (readerBefore none (c :: text) k).depth + codeCount closesFlow (c :: text) k =
      codeCount opensFlow (c :: text) k := by
  induction k with
  | zero => rfl
  | succ k ih =>
    have ih := ih (by omega) fun j hj hjk => hin j hj (by omega)
    obtain ⟨d, hd⟩ : ∃ d, (c :: text)[k]? = some d := ⟨_, List.getElem?_eq_getElem (by omega)⟩
    -- the first bracket opens a collection, and all that follows up to `k` is inside of it
    have hdepth : (readerBefore none (c :: text) k).atNode = true ∧ closesFlow d = false ∨
        0 < (readerBefore none (c :: text) k).depth := by
      cases k with
      | zero =>
        obtain rfl : c = d := Option.some.inj hd
        exact .inl ⟨rfl, closesFlow_of_opensFlow hopens⟩
      | succ k =>
        have hin := hin (k + 1) (by omega) (by omega)
        exact .inr (by omega)
    rw [depth_readerBefore_succ hd (hdepth.imp_left And.left), codeCount_succ, codeCount_succ, hd,
      Option.any_some, Option.any_some]
    have hboth : opensFlow d = true → closesFlow d = false := closesFlow_of_opensFlow
    cases isCode (c :: text) k <;> cases ho : opensFlow d <;> cases hc : closesFlow d <;>
      simp_all <;> omega

end Through

namespace Token

/-- Behind the token the reader is outside of flow collections. -/
def Returns (token rest : List Char) : Prop :=
  token ≠ [] ∧ (readerBefore none (token ++ rest) token.length).depth = 0

/-- As many brackets of code close as open. -/
def BalancedCode (token rest : List Char) : Prop :=
  token ≠ [] ∧ codeCount closesFlow (token ++ rest) token.length =
    codeCount opensFlow (token ++ rest) token.length

/-- No bracket of the token is quoted or in a comment. -/
def BracketsCode (token rest : List Char) : Prop :=
  ∀ k < token.length, (token ++ rest)[k]?.any (fun c => opensFlow c || closesFlow c) = true →
    isCode (token ++ rest) k = true

instance (token rest : List Char) : Decidable (BracketsCode token rest) :=
  inferInstanceAs (Decidable (∀ k < token.length,
    (token ++ rest)[k]?.any (fun c => opensFlow c || closesFlow c) = true →
      isCode (token ++ rest) k = true))

section Cuts

variable {P Q : List Char → List Char → Prop} {token rest : List Char}

/-- What is the same at the first place is cut off at the same place. -/
theorem CutsFirst.of_iff (h : CutsFirst P token rest)
    (hiff : ∀ u v, u ++ v = token ++ rest → u.length ≤ token.length →
      (∀ a b, a ++ b = token ++ rest → a.length < u.length → ¬ P a b) → (P u v ↔ Q u v)) :
    CutsFirst Q token rest := by
  have hbefore : ∀ u : List Char, u.length ≤ token.length →
      ∀ a b, a ++ b = token ++ rest → a.length < u.length → ¬ P a b := by
    intro u hu a b heq hlt hP
    have hle := h.first a b heq hP
    omega
  refine ⟨h.ends.imp_left (hiff token rest rfl (Nat.le_refl _) (hbefore token (Nat.le_refl _))).1,
    fun u v heq hQ => ?_⟩
  by_contra hlt
  have hle : u.length ≤ token.length := by omega
  exact hlt (h.first u v heq ((hiff u v heq hle (hbefore u hle)).2 hQ))

end Cuts

/-- If all brackets of the token are code, those of code balance first where all do. -/
theorem cutsFirst_balancedCode {token rest : List Char} (hcode : BracketsCode token rest)
    (h : CutsFirst Balanced token rest) : CutsFirst BalancedCode token rest := by
  refine h.of_iff fun u v huv hle _ => ?_
  have htake : (u ++ v).take u.length = u := List.take_left
  have hcount : ∀ p : Char → Bool, (∀ d, p d = true → (opensFlow d || closesFlow d) = true) →
      codeCount p (u ++ v) u.length = u.countP p := by
    intro p hp
    rw [codeCount_eq_countP, htake]
    intro j hj d hd hpd
    rw [huv] at hd ⊢
    exact hcode j (by omega) (by rw [hd, Option.any_some, hp d hpd])
  have hcloses := hcount closesFlow fun d hd => by rw [hd, Bool.or_true]
  have hopens := hcount opensFlow fun d hd => by rw [hd, Bool.true_or]
  rw [Balanced, BalancedCode, hcloses, hopens]

section Flow

variable {c : Char} {text token rest : List Char} (hopens : opensFlow c = true)

include hopens

/-- The first place where the reader is outside is the first where brackets of code balance. -/
theorem returns_iff_of_first {u v : List Char} (heq : u ++ v = c :: text)
    (hfirst : ∀ a b, a ++ b = c :: text → a.length < u.length →
      ¬ (Returns a b ∧ BalancedCode a b)) : Returns u v ↔ BalancedCode u v := by
  have hlength : u.length ≤ (c :: text).length := by
    rw [← heq, List.length_append]
    omega
  have hcount := depth_add_codeCount hopens hlength fun j hj hju => ?_
  · unfold Returns BalancedCode
    rw [heq]
    exact and_congr_right fun _ => by omega
  · have hne := hfirst ((c :: text).take j) ((c :: text).drop j) (List.take_append_drop _ _)
      (by rw [List.length_take]; omega)
    have htake : (c :: text).take j ≠ [] := by
      rw [Ne, List.take_eq_nil_iff]
      rintro (h | h)
      · omega
      · cases h
    have hmin : ((c :: text).take j).length = j := by
      rw [List.length_take]
      omega
    unfold Returns BalancedCode at hne
    rw [List.take_append_drop, hmin] at hne
    by_contra hboth
    rw [not_or, not_not, not_not] at hboth
    exact hne ⟨⟨htake, hboth.1⟩, htake, hboth.2⟩

/-- **The reader is outside again where the brackets of code balance first.** -/
theorem cutsFirst_returns_iff (heq : token ++ rest = c :: text) :
    CutsFirst Returns token rest ↔ CutsFirst BalancedCode token rest := by
  constructor
  · intro h
    refine h.of_iff fun u v huv _ hfirst => ?_
    rw [heq] at huv hfirst
    exact returns_iff_of_first hopens huv fun a b hab hlt hboth => hfirst a b hab hlt hboth.1
  · intro h
    refine h.of_iff fun u v huv _ hfirst => ?_
    rw [heq] at huv hfirst
    exact (returns_iff_of_first hopens huv fun a b hab hlt hboth => hfirst a b hab hlt hboth.2).symm

theorem exists_cutsFirst_balanced (hbound : (c :: text).countP opensFlow < 2 ^ 32) :
    ∃ token rest, leading? (c :: text) = some token ∧ token ++ rest = c :: text ∧
      CutsFirst Balanced token rest := by
  obtain ⟨token, rest, hleading, happ, htoken⟩ :=
    exists_isToken (Reader.ne_of_bracket (.inl hopens)).1 hbound
  obtain ⟨d, inner, rfl, -⟩ := htoken.exists_cons
  obtain rfl : d = c := (List.cons.inj happ).1
  exact ⟨d :: inner, rest, hleading, happ, (isToken_flow_iff hopens).1 htoken⟩

/-- **A flow collection ends where its brackets balance.** In a text with fewer than 2 ^ 32 opening
brackets that starts with one, the token ends where as many brackets close as open, quoted and in
comments or not. The reader is outside of collections again where as many brackets of code close
as open. So if all brackets of the token are code, it ends right behind the character at which the
reader first is outside again, and is all of the text if the reader never is. -/
theorem leading?_eq_collection (hbound : (c :: text).countP opensFlow < 2 ^ 32) :
    ∃ token rest, leading? (c :: text) = some token ∧ token ++ rest = c :: text ∧
      CutsFirst Balanced token rest ∧
      (CutsFirst Returns token rest ↔ CutsFirst BalancedCode token rest) ∧
      (BracketsCode token rest → CutsFirst Returns token rest) := by
  obtain ⟨token, rest, hleading, heq, hcuts⟩ := exists_cutsFirst_balanced hopens hbound
  have hreturns := cutsFirst_returns_iff hopens heq
  exact ⟨token, rest, hleading, heq, hcuts, hreturns,
    fun hcode => hreturns.2 (cutsFirst_balancedCode hcode hcuts)⟩

end Flow

/-- A collection with a quoted key, inside of another one. -/
theorem leading?_eq_collection_nested :
    let text := "a: [\"b\", \x7bc: d\x7d]\x7d: e".toList
    let token := "\x7ba: [\"b\", \x7bc: d\x7d]\x7d".toList
    opensFlow '\x7b' = true ∧ ('\x7b' :: text).countP opensFlow < 2 ^ 32 ∧
      leading? ('\x7b' :: text) = some token ∧ CutsFirst Returns token ": e".toList := by
  intro text token
  have hopens : opensFlow '\x7b' = true := by decide
  have hbound : ('\x7b' :: text).countP opensFlow < 2 ^ 32 := by decide
  have hleading : leading? ('\x7b' :: text) = some token := by decide
  obtain ⟨other, rest, hother, heq, -, -, hreturns⟩ := leading?_eq_collection hopens hbound
  obtain rfl : other = token := Option.some.inj (hother.symm.trans hleading)
  obtain rfl : rest = ": e".toList := List.append_cancel_left heq
  exact ⟨hopens, hbound, hleading, hreturns (by decide)⟩

/-- **A quoted bracket ends the token**, and leaves the reader inside of the collection. -/
theorem not_forall_cutsFirst_returns :
    ¬ ∀ (c : Char) (text : List Char), opensFlow c = true → ∃ token rest,
      leading? (c :: text) = some token ∧ token ++ rest = c :: text ∧
        CutsFirst Returns token rest := by
  intro h
  obtain ⟨token, rest, hleading, heq, hcuts⟩ := h '\x7b' "a: ']'\x7d".toList (by decide)
  obtain rfl : "\x7ba: ']".toList = token := Option.some.inj hleading
  obtain rfl : rest = "'\x7d".toList := List.append_cancel_left heq
  rcases hcuts.ends with ⟨-, hdepth⟩ | hnil
  · exact absurd hdepth (by decide)
  · exact absurd hnil (by decide)

end Token

end Breadcrumb
