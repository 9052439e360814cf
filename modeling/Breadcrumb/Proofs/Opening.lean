import Breadcrumb.Proofs.Midline

/-!
# Where quoted scalars open

A quote mark in the middle of a line may open a scalar or be plain text, as in `Rock 'n roll`.
The reader tells the two apart by what it keeps track of on its way to the mark. Here it is
told by looking back from the mark, as far as is needed.

* `startsNode_iff`: a node may start where the way back, over blanks and indicators of block
  entries alone, comes to the start of the line or to a marker.
* `follows_readerBefore`: the reader keeps track of just this, character by character.
* `opens_scalar_iff`: so quote marks open scalars where nodes may start.
-/

namespace Breadcrumb

open Text

/-! ## Looking back -/

section Back

variable (text : List Char)

/-- The character at `k` of a line that starts outside of quotes is code. -/
def isCode (k : Nat) : Bool := classOfChar none text k = .code

/-- A blank follows the character at `k`. -/
def blankFollows (k : Nat) : Bool := text[k + 1]?.any isBlank

/-- What is passed over on the way back: blanks, and the indicators of block entries with a
blank after them. -/
def passedOver (k : Nat) : Bool :=
  text[k]?.any fun c => isBlank c || (c = '-' || c = '?') && blankFollows text k

/-- The character at `k` opens a flow collection: a bracket outside of quotes, where a node
may start or inside of another collection. -/
def opensCollection (k : Nat) (node : Bool) (depth : Nat) : Bool :=
  isCode text k && text[k]?.any opensFlow && (node || 0 < depth)

def closesCollection (k : Nat) : Bool := isCode text k && text[k]?.any closesFlow

/-- Past the character at `k` a node may start: it opens a flow collection, or separates a key
from its value or two entries of a collection. -/
def marksNode (k : Nat) (node : Bool) (depth : Nat) : Bool :=
  opensCollection text k node depth ||
    isCode text k && (text[k]? = some ':' && blankFollows text k ||
      text[k]? = some ',' && 0 < depth)

mutual

/-- A node may start at `i`: the way back comes to the start of the line or to a marker. -/
def startsNode : Nat → Bool
  | 0 => true
  | k + 1 =>
    if passedOver text k then startsNode k else marksNode text k (startsNode k) (flowDepth k)

/-- The number of flow collections open before `i`: the brackets that open one, less those
that close one. -/
def flowDepth : Nat → Nat
  | 0 => 0
  | k + 1 =>
    if opensCollection text k (startsNode k) (flowDepth k) then flowDepth k + 1
    -- outside of collections, a closing bracket closes none
    else if closesCollection text k then flowDepth k - 1
    else flowDepth k

end

/-- The markers past which a node may start, all outside of quotes: a colon with a blank after
it, a bracket where a node may start or inside of a flow collection, and a comma inside of one. -/
def Marker (k : Nat) : Prop :=
  isCode text k = true ∧ (text[k]? = some ':' ∧ blankFollows text k = true ∨
    (text[k]? = some '[' ∨ text[k]? = some '{') ∧
      (startsNode text k = true ∨ 0 < flowDepth text k) ∨
    text[k]? = some ',' ∧ 0 < flowDepth text k)

variable {text} {k : Nat}

theorem marker_iff :
    Marker text k ↔ marksNode text k (startsNode text k) (flowDepth text k) = true := by
  unfold Marker marksNode opensCollection opensFlow
  cases text[k]? with
  | none => simp
  | some c =>
    simp only [Option.any_some, Option.some.injEq, Bool.or_eq_true, Bool.and_eq_true,
      decide_eq_true_eq]
    tauto

/-- Markers are not passed over. -/
theorem Marker.passedOver (h : Marker text k) : passedOver text k = false := by
  unfold Breadcrumb.passedOver
  rcases h.2 with ⟨hc, -⟩ | ⟨hc | hc, -⟩ | ⟨hc, -⟩ <;> rw [hc] <;> rfl

/-- **Where a node may start.** The way back from there goes over blanks and indicators of
block entries alone, and comes to the start of the line or to a marker. -/
theorem startsNode_iff {i : Nat} :
    startsNode text i = true ↔ ∃ j ≤ i, (∀ k, j ≤ k → k < i → passedOver text k = true) ∧
      (j = 0 ∨ ∃ k, j = k + 1 ∧ Marker text k) := by
  induction i with
  | zero =>
    have hzero : startsNode text 0 = true := by rw [startsNode]
    exact ⟨fun _ => ⟨0, Nat.le_refl 0, fun k _ hk => absurd hk (Nat.not_lt_zero k), .inl rfl⟩,
      fun _ => hzero⟩
  | succ i ih =>
    cases hpass : passedOver text i with
    | true =>
      rw [startsNode, if_pos hpass, ih]
      constructor
      · rintro ⟨j, hj, hover, hstop⟩
        refine ⟨j, by omega, fun k hjk hk => ?_, hstop⟩
        rcases Nat.lt_succ_iff_lt_or_eq.1 hk with hlt | rfl
        · exact hover k hjk hlt
        · exact hpass
      · rintro ⟨j, hj, hover, hstop⟩
        refine ⟨j, ?_, fun k hjk hk => hover k hjk (by omega), hstop⟩
        -- what is passed over is no marker, so the way back does not end at `i`
        by_contra hlt
        rcases hstop with rfl | ⟨k, rfl, hmarker⟩
        · omega
        · obtain rfl : k = i := by omega
          rw [hmarker.passedOver] at hpass
          cases hpass
    | false =>
      rw [startsNode, if_neg (Bool.eq_false_iff.1 hpass), ← marker_iff]
      constructor
      · intro hmarker
        exact ⟨i + 1, Nat.le_refl _, fun k hik hk => absurd hk (Nat.not_lt.2 hik),
          .inr ⟨i, rfl, hmarker⟩⟩
      · rintro ⟨j, hj, hover, hstop⟩
        by_cases hji : j ≤ i
        · rw [hover i hji (Nat.lt_succ_self i)] at hpass
          cases hpass
        · rcases hstop with rfl | ⟨k, rfl, hmarker⟩
          · omega
          · obtain rfl : k = i := by omega
            exact hmarker

end Back

/-! ## Reading on -/

variable {text : List Char} {k : Nat} {c d : Char}

/-- Past a character of code, the reader knows what is known by looking back at it. -/
theorem Reader.readCode_eq (r : Reader) (hc : text[k]? = some c) (hd : text[k + 1]? = some d)
    (hcode : isCode text k = true) : r.readCode c (some d) =
      { r with
        atNode := if passedOver text k then r.atNode else marksNode text k r.atNode r.depth
        depth :=
          if opensCollection text k r.atNode r.depth then r.depth + 1
          else if closesCollection text k then r.depth - 1 else r.depth } := by
  obtain ⟨mode, afterBlank, atNode, depth⟩ := r
  unfold readCode passedOver marksNode opensCollection closesCollection blankFollows
  simp only [hc, hd, hcode, Option.any_some, isBlankOrEnd_some, Bool.true_and]
  by_cases hmem : c ∈ [':', '-', '?', '[', '{', ']', '}', ',']
  · have hblank : isBlank c = false := by
      simp only [List.mem_cons, List.not_mem_nil, or_false] at hmem
      rcases hmem with rfl | rfl | rfl | rfl | rfl | rfl | rfl | rfl <;> decide
    simp only [List.mem_cons, List.not_mem_nil, or_false] at hmem
    rcases hmem with rfl | rfl | rfl | rfl | rfl | rfl | rfl | rfl <;>
      rcases Nat.eq_zero_or_pos depth with rfl | hdepth <;> cases atNode <;> cases isBlank d <;>
      simp [*, opensFlow, closesFlow]
  · simp only [List.mem_cons, List.not_mem_nil, or_false, not_or] at hmem
    cases isBlank c <;> simp [hmem, opensFlow, closesFlow]

theorem isCode_iff (hc : text[k]? = some c) : isCode text k = true ↔
    (readerBefore none text k).mode = .plain ∧ (readerBefore none text k).opens? c = none := by
  rw [isCode, classOfChar_eq hc, decide_eq_true_eq, Reader.classOf_eq_code_iff]

theorem flowDepth_succ_of_not_isCode (h : isCode text k = false) :
    flowDepth text (k + 1) = flowDepth text k := by
  simp [flowDepth, opensCollection, closesCollection, h]

theorem startsNode_succ_of_not_isCode (h : isCode text k = false)
    (hpass : passedOver text k = false) : startsNode text (k + 1) = false := by
  simp [startsNode, marksNode, opensCollection, h, hpass]

/-- A reader at `k` that knows what is known by looking back, as far as it makes use of it:
in a comment it keeps track of nothing, and inside of a scalar no node may start. -/
structure Follows (text : List Char) (k : Nat) (r : Reader) : Prop where
  depth : r.mode ≠ .comment → r.depth = flowDepth text k
  atNode : r.mode = .plain → r.atNode = startsNode text k
  offNode : r.OffNode

theorem passedOver_of_char {mark : QuoteMark} (hc : text[k]? = some mark.char) :
    passedOver text k = false := by
  unfold passedOver
  rw [hc]
  cases mark <;> rfl

/-- **One character on**, the reader knows what is known by looking back from there. -/
theorem Follows.read {r : Reader} (h : Follows text k r) (hc : text[k]? = some c)
    (hd : text[k + 1]? = some d)
    (hcode : isCode text k = true ↔ r.mode = .plain ∧ r.opens? c = none) :
    Follows text (k + 1) (r.read c (some d)) := by
  cases hmode : r.mode with
  | plain =>
    have hdepth : r.depth = flowDepth text k := h.depth (by rw [hmode]; nofun)
    have hnode : r.atNode = startsNode text k := h.atNode hmode
    cases hopens : r.opens? c with
    | none =>
      have hcode : isCode text k = true := hcode.2 ⟨hmode, hopens⟩
      refine ⟨fun _ => ?_, fun _ => ?_, h.offNode.read c (some d)⟩
      · rw [Reader.read_of_code hmode hopens, r.readCode_eq hc hd hcode, flowDepth, hdepth, hnode]
      · rw [Reader.read_of_code hmode hopens, r.readCode_eq hc hd hcode, startsNode, hdepth, hnode]
    | some mode =>
      have hcode : isCode text k = false :=
        Bool.eq_false_iff.2 fun h => nomatch hopens.symm.trans (hcode.1 h).2
      have hread : r.read c (some d) = _ := Reader.read_of_opens hmode hopens
      refine ⟨fun _ => ?_, fun hplain => ?_, h.offNode.read c (some d)⟩
      · rw [hread, flowDepth_succ_of_not_isCode hcode]
        exact hdepth
      · rw [hread] at hplain
        have hplain : mode = .plain := hplain
        exact absurd hopens (hplain ▸ Reader.opens?_ne_plain)
  | quoted mark literal =>
    have hcode : isCode text k = false :=
      Bool.eq_false_iff.2 fun h => nomatch hmode.symm.trans (hcode.1 h).1
    have hread : r.read c (some d) = _ := Reader.read_of_quoted hmode
    refine ⟨fun _ => ?_, fun hplain => ?_, h.offNode.read c (some d)⟩
    · rw [hread, flowDepth_succ_of_not_isCode hcode]
      exact h.depth (by rw [hmode]; nofun)
    · -- the mark that closes the scalar is no marker, and is not passed over
      rw [hread] at hplain ⊢
      have hchar : c = mark.char := Reader.eq_char_of_afterQuoted hplain
      have hpass : passedOver text k = false := passedOver_of_char (hchar ▸ hc)
      rw [startsNode_succ_of_not_isCode hcode hpass]
      exact h.offNode mark literal hmode
  | comment =>
    have hread : (r.read c (some d)).mode = .comment := by
      rw [Reader.read_of_comment hmode]
      exact hmode
    exact ⟨fun hne => absurd hread hne, fun hplain => (by cases hread.symm.trans hplain),
      h.offNode.read c (some d)⟩

theorem follows_readerBefore : ∀ k < text.length, Follows text k (readerBefore none text k) := by
  intro k
  induction k with
  | zero =>
    intro _
    have hdepth : flowDepth text 0 = 0 := by rw [flowDepth]
    have hnode : startsNode text 0 = true := by rw [startsNode]
    exact ⟨fun _ => hdepth.symm, fun _ => hnode.symm, Reader.offNode_start⟩
  | succ k ih =>
    intro hk
    have hc : text[k]? = some text[k] := List.getElem?_eq_getElem (by omega)
    have hd : text[k + 1]? = some text[k + 1] := List.getElem?_eq_getElem hk
    rw [readerBefore_succ hc, hd]
    exact (ih (by omega)).read hc hd (isCode_iff hc)

/-! ## Quote marks -/

/-- **Quote marks open scalars where nodes may start.** On a line that starts outside of quotes,
a quote mark met outside of quotes and comments opens a scalar if and only if the way back
from it, over blanks and indicators of block entries with a blank after them, comes to the start
of the line or to a marker. It is read as part of the scalar just then. -/
theorem opens_scalar_iff {text : List Char} {i : Nat} {mark : QuoteMark}
    (hmark : text[i]? = some mark.char) (hplain : (readerBefore none text i).mode = .plain) :
    ((readerBefore none text (i + 1)).mode = .quoted mark false ↔
      ∃ j ≤ i, (∀ k, j ≤ k → k < i → passedOver text k = true) ∧
        (j = 0 ∨ ∃ k, j = k + 1 ∧ Marker text k)) ∧
    (classOfChar none text i = .quoted ↔
      (readerBefore none text (i + 1)).mode = .quoted mark false) := by
  have hi : i < text.length := (List.getElem?_eq_some_iff.1 hmark).1
  have hnode := (follows_readerBefore i hi).atNode hplain
  rw [← startsNode_iff, classOfChar_eq hmark, Reader.classOf_of_plain hplain,
    readerBefore_succ hmark, Reader.opens?_char, hnode]
  have hopens := Reader.opens?_char (readerBefore none text i) mark
  rw [hnode] at hopens
  cases hstarts : startsNode text i with
  | true =>
    rw [hstarts, if_pos rfl] at hopens
    rw [Reader.read_of_opens hplain hopens]
    simp [Mode.charClass]
  | false =>
    rw [hstarts, if_neg Bool.false_ne_true] at hopens
    rw [Reader.read_of_code hplain hopens, Reader.mode_readCode, hplain]
    simp [Mode.charClass]

/-- A scalar past an indicator inside of a collection, and none past the end of the collection. -/
theorem opens_scalar_iff_collection :
    let text := "k: [a, - 'b'] - 'c".toList
    (text[9]? = some QuoteMark.single.char ∧ (readerBefore none text 9).mode = .plain ∧
      (readerBefore none text 10).mode = .quoted .single false ∧
      ∃ j ≤ 9, (∀ k, j ≤ k → k < 9 → passedOver text k = true) ∧
        (j = 0 ∨ ∃ k, j = k + 1 ∧ Marker text k)) ∧
    text[16]? = some QuoteMark.single.char ∧ (readerBefore none text 16).mode = .plain ∧
      (readerBefore none text 17).mode ≠ .quoted .single false ∧
      ¬ ∃ j ≤ 16, (∀ k, j ≤ k → k < 16 → passedOver text k = true) ∧
        (j = 0 ∨ ∃ k, j = k + 1 ∧ Marker text k) := by
  intro text
  have hmark : text[9]? = some QuoteMark.single.char := by decide
  have hplain : (readerBefore none text 9).mode = .plain := by decide
  have hopens : (readerBefore none text 10).mode = .quoted .single false := by decide
  have hmark' : text[16]? = some QuoteMark.single.char := by decide
  have hplain' : (readerBefore none text 16).mode = .plain := by decide
  have hopens' : (readerBefore none text 17).mode ≠ .quoted .single false := by decide
  exact ⟨⟨hmark, hplain, hopens, (opens_scalar_iff hmark hplain).1.1 hopens⟩,
    hmark', hplain', hopens', fun h => hopens' ((opens_scalar_iff hmark' hplain').1.2 h)⟩

end Breadcrumb
