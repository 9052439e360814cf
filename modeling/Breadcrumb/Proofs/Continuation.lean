import Breadcrumb.Proofs.Reading

/-!
# Scalars that run on over a line end

A scalar still open at the end of a line runs on over the next line. Where the scalar ends, no
node may start before a character that allows one. A line that starts inside of a scalar is
read otherwise: behind the end of the scalar a node may start as at the start of any line. So
a quote there opens another scalar, and a bracket a flow collection. With anything else there,
two lines are read as they would be read in one.

* `Reader.run_append`, `Reader.classAt_append`: a text that starts with an unfinished scalar.
* `Reader.alike_of_pastScalar`: where a node that may start makes no difference.
* `append_read_as_resumed`: two lines read in one, and one after the other.
-/

namespace Breadcrumb

open Text

namespace Reader

/-! ## Reading on -/

theorem classAt_cons (r : Reader) (c : Char) (text : List Char) (offset : Nat) :
    r.classAt (c.utf8Size + offset) (c :: text) = (r.read c text.head?).classAt offset text := by
  have hpos := c.utf8Size_pos
  rw [classAt, if_neg (by omega), Nat.add_sub_cancel_left]

/-- A character that leaves a reader inside of a scalar does so whatever follows it: only a
single quote depends on its neighbour, and closes the scalar if it has none. -/
theorem read_eq_of_quoted {r : Reader} {c : Char} {mark : QuoteMark} {literal : Bool}
    (h : (r.read c none).mode = .quoted mark literal) (next : Option Char) :
    r.read c next = r.read c none := by
  cases hmode : r.mode with
  | plain =>
    cases hopens : r.opens? c with
    | some opened => rw [read_of_opens hmode hopens, read_of_opens hmode hopens]
    | none =>
      rw [read_of_code hmode hopens] at h
      cases hmode.symm.trans (mode_readCode.symm.trans h)
  | quoted outer taken =>
    have hnext : Mode.afterQuoted outer taken c next = Mode.afterQuoted outer taken c none := by
      rw [read_of_quoted hmode] at h
      have h : Mode.afterQuoted outer taken c none = .quoted mark literal := h
      unfold Mode.afterQuoted at h ⊢
      cases taken with
      | true => rfl
      | false =>
        cases outer with
        | double => rfl
        | single =>
          by_cases hc : c = '\''
          · simp [hc] at h
          · simp [hc]
    rw [read_of_quoted hmode, read_of_quoted hmode, hnext]
  | comment => rw [read_of_comment hmode, read_of_comment hmode]

/-- **A text that starts with an unfinished scalar** is read on from inside of it. -/
theorem run_append {r : Reader} {text : List Char} {mark : QuoteMark} {literal : Bool}
    (h : (r.run text).mode = .quoted mark literal) (more : List Char) :
    r.run (text ++ more) = (r.run text).run more := by
  induction text generalizing r with
  | nil => rfl
  | cons c text ih =>
    rw [List.cons_append, run, run]
    cases text with
    | nil => rw [List.nil_append, List.head?_nil, read_eq_of_quoted h more.head?]; rfl
    | cons d text => exact ih h

theorem classAt_append {r : Reader} {text : List Char} {mark : QuoteMark} {literal : Bool}
    (h : (r.run text).mode = .quoted mark literal) (more : List Char) (offset : Nat) :
    r.classAt (byteSize text + offset) (text ++ more) = (r.run text).classAt offset more := by
  induction text generalizing r with
  | nil => rw [byteSize_nil, Nat.zero_add]; rfl
  | cons c text ih =>
    rw [List.cons_append, byteSize_cons, Nat.add_assoc, classAt_cons, run]
    cases text with
    | nil =>
      rw [List.nil_append, List.head?_nil, read_eq_of_quoted h more.head?, byteSize_nil,
        Nat.zero_add]
      rfl
    | cons d text => exact ih h

/-! ## No node starts inside of a scalar -/

/-- Inside of a scalar that was opened on the line, no node may start any more. -/
def OffNode (r : Reader) : Prop :=
  ∀ mark literal, r.mode = .quoted mark literal → r.atNode = false

theorem OffNode.read {r : Reader} (h : r.OffNode) (c : Char) (next : Option Char) :
    (r.read c next).OffNode := by
  intro mark literal hafter
  cases hmode : r.mode with
  | plain =>
    cases hopens : r.opens? c with
    | some opened => rw [read_of_opens hmode hopens]
    | none =>
      rw [read_of_code hmode hopens] at hafter
      cases hmode.symm.trans (mode_readCode.symm.trans hafter)
  | quoted outer taken =>
    rw [read_of_quoted hmode]
    exact h outer taken hmode
  | comment =>
    rw [read_of_comment hmode] at hafter
    cases hmode.symm.trans hafter

theorem OffNode.run {r : Reader} (h : r.OffNode) (text : List Char) : (r.run text).OffNode := by
  induction text generalizing r with
  | nil => exact h
  | cons c text ih => exact ih (h.read c text.head?)

theorem offNode_start : (start none).OffNode := by
  intro mark literal h
  cases h

/-- A reader inside of a scalar, past which no node may start. -/
def resume (mark : QuoteMark) : Reader := { mode := .quoted mark false, atNode := false }

/-! ## Readers that read a text the same -/

/-- Two readers that find each character of a text of one class and end in one mode. -/
structure Alike (r r' : Reader) (text : List Char) : Prop where
  mode : (r.run text).mode = (r'.run text).mode
  classAt : ∀ offset, r.classAt offset text = r'.classAt offset text

variable {r r' : Reader} {text : List Char}

theorem Alike.refl (r : Reader) (text : List Char) : r.Alike r text := ⟨rfl, fun _ => rfl⟩

theorem Alike.nil (h : r.mode = r'.mode) : r.Alike r' [] :=
  ⟨h, fun _ => congrArg Mode.charClass h⟩

theorem Alike.cons {c : Char} (hclass : r.classOf c = r'.classOf c)
    (h : (r.read c text.head?).Alike (r'.read c text.head?) text) : r.Alike r' (c :: text) := by
  refine ⟨h.mode, fun offset => ?_⟩
  rw [Reader.classAt, Reader.classAt, hclass, h.classAt]

theorem classOf_of_plain (h : r.mode = .plain) (c : Char) :
    r.classOf c = ((r.opens? c).getD .plain).charClass := by
  unfold classOf
  rw [h]

/-- In a comment nothing else is known of any use. -/
theorem alike_of_comment (h : r.mode = .comment) (h' : r'.mode = .comment) :
    r.Alike r' text := by
  induction text generalizing r r' with
  | nil => exact .nil (h.trans h'.symm)
  | cons c text ih =>
    refine .cons ?_ (ih ?_ ?_)
    · unfold classOf
      rw [h, h']
    · rw [read_of_comment h]
      exact h
    · rw [read_of_comment h']
      exact h'

/-- Inside of a scalar it is not known whether a blank came last, and not needed. -/
theorem alike_resume {mark : QuoteMark} (hmode : r.mode = .quoted mark false)
    (hnode : r.atNode = false) (hdepth : r.depth = 0) : r.Alike (resume mark) text := by
  obtain ⟨mode, afterBlank, atNode, depth⟩ := r
  obtain rfl : mode = .quoted mark false := hmode
  obtain rfl : atNode = false := hnode
  obtain rfl : depth = 0 := hdepth
  cases text with
  | nil => exact .nil rfl
  | cons c text => exact .cons rfl (Alike.refl _ text)

/-! ## What stands where a node may start -/

/-- Blanks and the indicators of block entries leave it open whether a node starts. -/
def leavesOpen (c : Char) (next : Option Char) : Bool :=
  isBlank c || (c = '-' || c = '?') && isBlankOrEnd next

/-- What stands where a node may start, and what follows. -/
def toNode : List Char → List Char
  | [] => []
  | c :: text => if leavesOpen c text.head? then toNode text else c :: text

theorem afterQuoted_ne_comment (mark : QuoteMark) (literal : Bool) (c : Char)
    (next : Option Char) : Mode.afterQuoted mark literal c next ≠ .comment := by
  unfold Mode.afterQuoted
  repeat' split
  all_goals nofun

/-- A character that opens something only where a node may start: a scalar or a flow
collection. -/
def opensNode (c : Char) : Bool := (QuoteMark.ofChar? c).isSome || opensFlow c

/-- The text past the scalar that a reader is inside of, empty if the scalar is not closed. -/
def pastScalar : Mode → List Char → List Char
  | .quoted mark literal, c :: text => pastScalar (.afterQuoted mark literal c text.head?) text
  | _, text => text

section LeavesOpen

variable {c : Char} {next : Option Char}

theorem leavesOpen_iff : leavesOpen c next = true ↔
    isBlank c = true ∨ (c = '-' ∨ c = '?') ∧ isBlankOrEnd next = true := by
  simp [leavesOpen]

theorem opens?_of_leavesOpen (h : leavesOpen c next = true) (r : Reader) : r.opens? c = none := by
  rcases leavesOpen_iff.1 h with hblank | ⟨rfl | rfl, -⟩
  · exact opens?_of_isBlank r hblank
  · cases hnode : r.atNode <;> simp [opens?, hnode, QuoteMark.ofChar?]
  · cases hnode : r.atNode <;> simp [opens?, hnode, QuoteMark.ofChar?]

theorem readCode_of_leavesOpen (h : leavesOpen c next = true) (afterBlank atNode : Bool) :
    readCode ⟨.plain, afterBlank, atNode, 0⟩ c next = ⟨.plain, afterBlank, atNode, 0⟩ := by
  rcases leavesOpen_iff.1 h with hblank | ⟨rfl | rfl, hnext⟩
  · simp [readCode, hblank]
  · cases atNode <;> simp [readCode, hnext, opensFlow]
  · cases atNode <;> simp [readCode, hnext, opensFlow]

variable (afterBlank : Bool) (h : leavesOpen c next = false) (hopens : opensNode c = false)

include hopens

theorem opens?_of_not_opensNode :
    opens? ⟨.plain, afterBlank, false, 0⟩ c = opens? ⟨.plain, afterBlank, true, 0⟩ c := by
  unfold opensNode at hopens
  rw [Bool.or_eq_false_iff, Option.isSome_eq_false_iff, Option.isNone_iff_eq_none] at hopens
  unfold opens?
  simp [hopens.1]

include h

/-- Whether a node may start makes no difference to a character that opens none. -/
theorem readCode_of_not_opensNode :
    readCode ⟨.plain, afterBlank, false, 0⟩ c next =
      readCode ⟨.plain, afterBlank, true, 0⟩ c next := by
  unfold opensNode at hopens
  rw [Bool.or_eq_false_iff] at hopens
  unfold leavesOpen at h
  rw [Bool.or_eq_false_iff] at h
  -- neither an indicator of an entry nor a bracket, so the node is asked for in vain
  simp [readCode, h.1, h.2, hopens.2]

end LeavesOpen

theorem alike_of_toNode {text : List Char}
    (h : ∀ c ∈ (toNode text).head?, opensNode c = false) (afterBlank : Bool) :
    Alike ⟨.plain, afterBlank, false, 0⟩ ⟨.plain, afterBlank, true, 0⟩ text := by
  induction text generalizing afterBlank with
  | nil => exact .nil rfl
  | cons c text ih =>
    cases hopen : leavesOpen c text.head? with
    | true =>
      have hnone := opens?_of_leavesOpen hopen
      rw [toNode, if_pos hopen] at h
      refine .cons ?_ ?_
      · rw [classOf_of_plain rfl, classOf_of_plain rfl, hnone, hnone]
      · rw [read_of_code rfl (hnone _), read_of_code rfl (hnone _),
          readCode_of_leavesOpen hopen, readCode_of_leavesOpen hopen]
        exact ih h (isBlank c)
    | false =>
      rw [toNode, if_neg (Bool.eq_false_iff.1 hopen)] at h
      have hc : opensNode c = false := h c rfl
      have hsame := opens?_of_not_opensNode afterBlank hc
      refine .cons ?_ ?_
      · rw [classOf_of_plain rfl, classOf_of_plain rfl, hsame]
      · cases hopens : opens? ⟨.plain, afterBlank, true, 0⟩ c with
        | some mode =>
          rw [read_of_opens rfl (hsame.trans hopens), read_of_opens rfl hopens]
          exact Alike.refl _ text
        | none =>
          rw [read_of_code rfl (hsame.trans hopens), read_of_code rfl hopens,
            readCode_of_not_opensNode afterBlank hopen hc]
          exact Alike.refl _ text

/-- **Where a node that may start makes no difference**: what stands there past the scalar
opens none. -/
theorem alike_of_pastScalar {mode : Mode} {text : List Char}
    (h : ∀ c ∈ (toNode (pastScalar mode text)).head?, opensNode c = false) (afterBlank : Bool) :
    Alike ⟨mode, afterBlank, false, 0⟩ ⟨mode, afterBlank, true, 0⟩ text := by
  induction text generalizing mode afterBlank with
  | nil => exact .nil rfl
  | cons c text ih =>
    cases mode with
    | plain => exact alike_of_toNode h afterBlank
    | comment => exact alike_of_comment rfl rfl
    | quoted mark literal => exact .cons rfl (ih h (isBlank c))

/-! ## Where it does make a difference -/

variable {c : Char} {rest : List Char} (hquote : (QuoteMark.ofChar? c).isSome = true)

include hquote

theorem classOf_of_quote (afterBlank : Bool) :
    classOf ⟨.plain, afterBlank, false, 0⟩ c = .code ∧
      classOf ⟨.plain, afterBlank, true, 0⟩ c = .quoted := by
  obtain ⟨mark, hmark⟩ := Option.isSome_iff_exists.1 hquote
  have hhash : c ≠ '#' := by
    rintro rfl
    cases hmark
  rw [classOf_of_plain rfl, classOf_of_plain rfl]
  simp [opens?, hhash, hmark, Mode.charClass]

theorem exists_classAt_of_toNode {text : List Char} (h : toNode text = c :: rest)
    (afterBlank : Bool) : ∃ before, text = before ++ c :: rest ∧
      classAt ⟨.plain, afterBlank, false, 0⟩ (byteSize before) text = .code ∧
      classAt ⟨.plain, afterBlank, true, 0⟩ (byteSize before) text = .quoted := by
  induction text generalizing afterBlank with
  | nil => cases h
  | cons d text ih =>
    cases hopen : leavesOpen d text.head? with
    | true =>
      have hnone := opens?_of_leavesOpen hopen
      rw [toNode, if_pos hopen] at h
      obtain ⟨before, rfl, hcode, hquoted⟩ := ih h (isBlank d)
      refine ⟨d :: before, rfl, ?_, ?_⟩
      · rw [byteSize_cons, classAt_cons, read_of_code rfl (hnone _), readCode_of_leavesOpen hopen]
        exact hcode
      · rw [byteSize_cons, classAt_cons, read_of_code rfl (hnone _), readCode_of_leavesOpen hopen]
        exact hquoted
    | false =>
      rw [toNode, if_neg (Bool.eq_false_iff.1 hopen)] at h
      cases h
      exact ⟨[], rfl, classOf_of_quote hquote afterBlank⟩

/-- **Where a node that may start does make a difference**: at a quote that stands there. -/
theorem exists_classAt_of_pastScalar {mode : Mode} {text : List Char} (hmode : mode ≠ .comment)
    (h : toNode (pastScalar mode text) = c :: rest) (afterBlank : Bool) :
    ∃ before, text = before ++ c :: rest ∧
      classAt ⟨mode, afterBlank, false, 0⟩ (byteSize before) text = .code ∧
      classAt ⟨mode, afterBlank, true, 0⟩ (byteSize before) text = .quoted := by
  induction text generalizing mode afterBlank with
  | nil => cases mode <;> cases h
  | cons d text ih =>
    cases mode with
    | plain => exact exists_classAt_of_toNode hquote h afterBlank
    | comment => exact absurd rfl hmode
    | quoted mark literal =>
      obtain ⟨before, rfl, hcode, hquoted⟩ :=
        ih (afterQuoted_ne_comment mark literal d text.head?) h (isBlank d)
      refine ⟨d :: before, rfl, ?_, ?_⟩
      · rw [byteSize_cons, classAt_cons]
        exact hcode
      · rw [byteSize_cons, classAt_cons]
        exact hquoted

end Reader

/-! ## Two lines in one -/

/-- **Scalars that run on.** Where a text `u` ends inside of a scalar and outside of brackets,
`u` and `v` in one line are read as `v` by a reader that resumes the scalar, past which no node
may start. After a line end `v` is read the same if what stands past the scalar opens nothing,
blanks and indicators of block entries aside. If a quote stands there, it is code on the one
line, and opens another scalar after a line end. -/
theorem append_read_as_resumed {u : List Char} {mark : QuoteMark}
    (hmode : ((Reader.start none).run u).mode = .quoted mark false)
    (hdepth : ((Reader.start none).run u).depth = 0) (v : List Char) :
    let past := Reader.toNode (Reader.pastScalar (.quoted mark false) v)
    (quotingAfter none (u ++ v) = ((Reader.resume mark).run v).mode.mark? ∧
      ∀ offset, classAt none (u ++ v) (byteSize u + offset) =
        (Reader.resume mark).classAt offset v) ∧
    ((∀ c ∈ past.head?, Reader.opensNode c = false) →
      quotingAfter none (u ++ v) = quotingAfter (some mark) v ∧
        ∀ offset, classAt none (u ++ v) (byteSize u + offset) = classAt (some mark) v offset) ∧
    ∀ c rest, past = c :: rest → (QuoteMark.ofChar? c).isSome = true →
      ∃ before, v = before ++ c :: rest ∧
        classAt none (u ++ v) (byteSize u + byteSize before) = .code ∧
        classAt (some mark) v (byteSize before) = .quoted := by
  intro past
  have hnode := Reader.offNode_start.run u mark false hmode
  have hresume : Reader.Alike ((Reader.start none).run u) (Reader.resume mark) v :=
    Reader.alike_resume hmode hnode hdepth
  have hquoting : quotingAfter none (u ++ v) = ((Reader.resume mark).run v).mode.mark? := by
    rw [quotingAfter, Reader.run_append hmode, hresume.mode]
  have hclass : ∀ offset, classAt none (u ++ v) (byteSize u + offset) =
      (Reader.resume mark).classAt offset v := by
    intro offset
    rw [classAt, Reader.classAt_append hmode, hresume.classAt]
  refine ⟨⟨hquoting, hclass⟩, fun hpast => ?_, fun c rest hpast hquote => ?_⟩
  · have hsame : Reader.Alike (Reader.resume mark) (Reader.start (some mark)) v :=
      Reader.alike_of_pastScalar hpast true
    refine ⟨?_, fun offset => (hclass offset).trans (hsame.classAt offset)⟩
    rw [hquoting, hsame.mode, quotingAfter]
  · obtain ⟨before, hv, hcode, hquoted⟩ :=
      Reader.exists_classAt_of_pastScalar hquote (by nofun) hpast true
    exact ⟨before, hv, (hclass _).trans hcode, hquoted⟩

/-- A scalar that runs on over a line end, with a value or with another quote behind it. -/
theorem append_read_as_resumed_mapping :
    let u := "a: \"b".toList
    let v := "c\" : 'd".toList
    let v' := "c\" - 'd".toList
    (((Reader.start none).run u).mode = .quoted .double false ∧
        ((Reader.start none).run u).depth = 0) ∧
      (quotingAfter none (u ++ v) = quotingAfter (some .double) v ∧
        ∀ offset, classAt none (u ++ v) (byteSize u + offset) = classAt (some .double) v offset) ∧
      ∃ before, v' = before ++ "'d".toList ∧
        classAt none (u ++ v') (byteSize u + byteSize before) = .code ∧
        classAt (some .double) v' (byteSize before) = .quoted := by
  intro u v v'
  have hmode : ((Reader.start none).run u).mode = .quoted .double false := by decide
  have hdepth : ((Reader.start none).run u).depth = 0 := by decide
  obtain ⟨-, hsame, -⟩ := append_read_as_resumed hmode hdepth v
  obtain ⟨-, -, hquote⟩ := append_read_as_resumed hmode hdepth v'
  have hpast : (Reader.toNode (Reader.pastScalar (.quoted .double false) v)).head? = some ':' := by
    decide
  have hcolon : ∀ c ∈ some ':', Reader.opensNode c = false := by
    intro c hc
    cases hc
    decide
  exact ⟨⟨hmode, hdepth⟩, hsame (hpast ▸ hcolon), hquote '\'' ['d'] (by decide) (by decide)⟩

/-- **A line end inside of a scalar matters**: it lets another scalar open behind it. -/
theorem not_forall_quotingAfter_append :
    ¬ ∀ (u v : List Char) (mark : QuoteMark),
      ((Reader.start none).run u).mode = .quoted mark false →
      ((Reader.start none).run u).depth = 0 →
      quotingAfter none (u ++ v) = quotingAfter (some mark) v := by
  intro h
  have hbreak := h "\"x".toList "\" 'y".toList .double (by decide) (by decide)
  exact absurd hbreak (by decide)

end Breadcrumb
