import Breadcrumb.Token
import Mathlib.Data.List.DropRight
import Mathlib.Tactic.Common

/-!
# The grammar of leading tokens

A quoted scalar or a flow collection is cut off at the first place where it may end, and is all
of the text if there is none; a word is the longest beginning of its kind. Where they may end
is said of the text as a whole, by the length of runs and the number of brackets.

* `CutsFirst.eq`, `Longest.eq`: a text has one beginning at most of each kind.
* `IsToken`: the grammar.
* `isToken_double_iff`, `isToken_single_iff`, `isToken_flow_iff`, `isToken_plain_iff`: the first
  character tells the kind.
* `IsToken.eq`: so a text starts with one token at most.
-/

namespace Breadcrumb.Token

open Text

/-! ## Where tokens end -/

/-- The token with `rest` behind it ends where `P` allows it or at the end of the text, and `P`
allows it at no earlier place of the text. -/
structure CutsFirst (P : List Char → List Char → Prop) (token rest : List Char) : Prop where
  ends : P token rest ∨ rest = []
  first : ∀ u v, u ++ v = token ++ rest → P u v → token.length ≤ u.length

/-- The token with `rest` behind it is the longest beginning of the text that is as `P` asks. -/
structure Longest (P : List Char → List Char → Prop) (token rest : List Char) : Prop where
  holds : P token rest
  longest : ∀ u v, u ++ v = token ++ rest → P u v → u.length ≤ token.length

section Cuts

variable {P Q : List Char → List Char → Prop} {token rest other more : List Char}

/-- What may end where `P` allows it is cut off there at the latest. -/
theorem CutsFirst.length_le (h : CutsFirst P token rest) (h' : CutsFirst Q other more)
    (himp : P token rest → Q token rest) (heq : other ++ more = token ++ rest) :
    other.length ≤ token.length := by
  rcases h.ends with hP | rfl
  · exact h'.first token rest heq.symm (himp hP)
  · have hlength := congrArg List.length heq
    rw [List.length_append, List.length_append, List.length_nil] at hlength
    omega

/-- A text is cut at one place only. -/
theorem CutsFirst.eq (h : CutsFirst P token rest) (h' : CutsFirst P other more)
    (heq : token ++ rest = other ++ more) : token = other :=
  (List.append_inj heq (Nat.le_antisymm (h'.length_le h id heq) (h.length_le h' id heq.symm))).1

theorem Longest.eq (h : Longest P token rest) (h' : Longest P other more)
    (heq : token ++ rest = other ++ more) : token = other := by
  have hle := h'.longest token rest heq h.holds
  have hge := h.longest other more heq.symm h'.holds
  exact (List.append_inj heq (Nat.le_antisymm hle hge)).1

end Cuts

/-- The number of characters `a` at the end of a text, with nothing else between. -/
def endRun (a : Char) (text : List Char) : Nat := (text.rtakeWhile (· = a)).length

/-- A double-quoted scalar ends in a mark after an even number of backslashes, all of them
behind the first mark. -/
def ClosesDouble (token _rest : List Char) : Prop :=
  ∃ inner, token = '"' :: inner ++ ['"'] ∧ endRun '\\' inner % 2 = 0

/-- A single-quoted scalar ends with a run of marks of odd length that is not part of a
longer one, behind the first mark. -/
def ClosesSingle (token rest : List Char) : Prop :=
  ∃ inner, token = '\'' :: inner ∧ endRun '\'' inner % 2 = 1 ∧ rest.head? ≠ some '\''

/-- As many brackets close as open, whichever they are. -/
def Balanced (token _rest : List Char) : Prop :=
  token ≠ [] ∧ token.countP closesFlow = token.countP opensFlow

/-- Words hold no blank, no flow indicator, and no colon with a blank or the end of the text
after it. -/
def Plain (word rest : List Char) : Prop :=
  (∀ c ∈ word, isBlank c = false ∧ isFlowIndicator c = false) ∧
    ∀ a b, word = a ++ ':' :: b → ∃ d, (b ++ rest).head? = some d ∧ isBlank d = false

/-- A character that starts no quoted scalar and no flow collection. -/
structure StartsPlain (c : Char) : Prop where
  not_blank : isBlank c = false
  not_quote : c ≠ '"' ∧ c ≠ '\''
  not_opensFlow : opensFlow c = false

/-- **The grammar of tokens**: what a token is, with `rest` behind it in the text. -/
inductive IsToken : (token rest : List Char) → Prop
  | double {inner rest} : CutsFirst ClosesDouble ('"' :: inner) rest → IsToken ('"' :: inner) rest
  | single {inner rest} :
    CutsFirst ClosesSingle ('\'' :: inner) rest → IsToken ('\'' :: inner) rest
  | flow {c inner rest} :
    opensFlow c = true → CutsFirst Balanced (c :: inner) rest → IsToken (c :: inner) rest
  | plain {c word rest} : StartsPlain c → Longest Plain (c :: word) rest → IsToken (c :: word) rest
  /-- An indicator that can start no word is a token by itself. -/
  | indicator {c rest} : StartsPlain c → Longest Plain [] (c :: rest) → IsToken [c] rest

/-! ## Tokens by their first characters -/

section Tokens

variable {c : Char} {inner token rest other more : List Char}

theorem startsPlain_or (hc : isBlank c = false) :
    c = '"' ∨ c = '\'' ∨ opensFlow c = true ∨ StartsPlain c := by
  by_cases hdouble : c = '"'
  · exact .inl hdouble
  · by_cases hsingle : c = '\''
    · exact .inr (.inl hsingle)
    · cases hopens : opensFlow c with
      | true => exact .inr (.inr (.inl rfl))
      | false => exact .inr (.inr (.inr ⟨hc, ⟨hdouble, hsingle⟩, hopens⟩))

theorem isToken_double_iff :
    IsToken ('"' :: inner) rest ↔ CutsFirst ClosesDouble ('"' :: inner) rest := by
  refine ⟨fun h => ?_, .double⟩
  cases h with
  | double hcuts => exact hcuts
  | flow hopens => exact absurd hopens (by decide)
  | plain hstarts => exact absurd rfl hstarts.not_quote.1
  | indicator hstarts => exact absurd rfl hstarts.not_quote.1

theorem isToken_single_iff :
    IsToken ('\'' :: inner) rest ↔ CutsFirst ClosesSingle ('\'' :: inner) rest := by
  refine ⟨fun h => ?_, .single⟩
  cases h with
  | single hcuts => exact hcuts
  | flow hopens => exact absurd hopens (by decide)
  | plain hstarts => exact absurd rfl hstarts.not_quote.2
  | indicator hstarts => exact absurd rfl hstarts.not_quote.2

theorem isToken_flow_iff (h : opensFlow c = true) :
    IsToken (c :: inner) rest ↔ CutsFirst Balanced (c :: inner) rest := by
  refine ⟨fun htoken => ?_, .flow h⟩
  cases htoken with
  | double => exact absurd h (by decide)
  | single => exact absurd h (by decide)
  | flow _ hcuts => exact hcuts
  | plain hstarts => rw [hstarts.not_opensFlow] at h; cases h
  | indicator hstarts => rw [hstarts.not_opensFlow] at h; cases h

theorem isToken_plain_iff (h : StartsPlain c) : IsToken (c :: inner) rest ↔
    Longest Plain (c :: inner) rest ∨ inner = [] ∧ Longest Plain [] (c :: rest) := by
  constructor
  · intro htoken
    cases htoken with
    | double => exact absurd rfl h.not_quote.1
    | single => exact absurd rfl h.not_quote.2
    | flow hopens => rw [h.not_opensFlow] at hopens; cases hopens
    | plain _ hlong => exact .inl hlong
    | indicator _ hlong => exact .inr ⟨rfl, hlong⟩
  · rintro (hlong | ⟨rfl, hlong⟩)
    · exact .plain h hlong
    · exact .indicator h hlong

/-- A token has a first character, and it is not blank. -/
theorem IsToken.exists_cons (h : IsToken token rest) :
    ∃ c inner, token = c :: inner ∧ isBlank c = false := by
  cases h with
  | double => exact ⟨_, _, rfl, by decide⟩
  | single => exact ⟨_, _, rfl, by decide⟩
  | flow hopens =>
    refine ⟨_, _, rfl, ?_⟩
    unfold opensFlow at hopens
    rw [Bool.or_eq_true, decide_eq_true_eq, decide_eq_true_eq] at hopens
    rcases hopens with rfl | rfl <;> decide
  | plain hstarts => exact ⟨_, _, rfl, hstarts.not_blank⟩
  | indicator hstarts => exact ⟨_, _, rfl, hstarts.not_blank⟩

theorem IsToken.ne_nil (h : IsToken token rest) : token ≠ [] := by
  obtain ⟨c, inner, rfl, -⟩ := h.exists_cons
  exact List.cons_ne_nil c inner

/-- **A text starts with one token at most.** -/
theorem IsToken.eq (h : IsToken token rest) (h' : IsToken other more)
    (heq : token ++ rest = other ++ more) : token = other := by
  obtain ⟨c, inner, rfl, hc⟩ := h.exists_cons
  obtain ⟨d, inner', rfl, -⟩ := h'.exists_cons
  obtain rfl : c = d := (List.cons.inj heq).1
  rcases startsPlain_or hc with rfl | rfl | hopens | hstarts
  · exact (isToken_double_iff.1 h).eq (isToken_double_iff.1 h') heq
  · exact (isToken_single_iff.1 h).eq (isToken_single_iff.1 h') heq
  · exact ((isToken_flow_iff hopens).1 h).eq ((isToken_flow_iff hopens).1 h') heq
  · rcases (isToken_plain_iff hstarts).1 h with hlong | ⟨rfl, hlong⟩ <;>
      rcases (isToken_plain_iff hstarts).1 h' with hlong' | ⟨rfl, hlong'⟩
    · exact hlong.eq hlong' heq
    · cases hlong.eq hlong' heq
    · cases hlong.eq hlong' heq
    · rfl

end Tokens

end Breadcrumb.Token
