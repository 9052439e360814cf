import Breadcrumb.Proofs.Midline

/-!
# Comments on a line

A line is read twice: to its end, for the quoting it leaves to the next line, and up to an
offset, for the class of what is there. Both agree on comments and on scalars left open.

* `afterBlank_readerBefore`: the reader knows whether a blank came last.
* `exists_comment_of_mode`: a reader inside of a comment has read a character of it.
* `classAt_of_comment`: a comment lasts past the end of the line.
* `comment_coherent`: where comments start, and what they leave to the next line.
-/

namespace Breadcrumb

open Text

variable {opening : Option QuoteMark} {text : List Char} {i : Nat}

namespace Reader

theorem classAt_of_comment {r : Reader} (h : r.mode = .comment) (offset : Nat)
    (rest : List Char) : r.classAt offset rest = .comment := by
  induction rest generalizing r offset with
  | nil => rw [classAt, h]; rfl
  | cons c rest ih =>
    rw [classAt]
    by_cases hoffset : offset = 0
    · rw [if_pos hoffset, classOf, h]
      rfl
    · rw [if_neg hoffset]
      apply ih
      rw [read_of_comment h]
      exact h

end Reader

/-- A `#` outside of quotes that is the first character of the line or follows a blank. -/
structure CommentStart (opening : Option QuoteMark) (text : List Char) (i : Nat) : Prop where
  char : text[i]? = some '#'
  outside : (readerBefore opening text i).mode.mark? = none
  blank : i = 0 ∨ ∃ k c, i = k + 1 ∧ text[k]? = some c ∧ isBlank c = true

theorem afterBlank_readerBefore (hi : i ≤ text.length) :
    (readerBefore opening text i).afterBlank = true ↔
      i = 0 ∨ ∃ k c, i = k + 1 ∧ text[k]? = some c ∧ isBlank c = true := by
  cases i with
  | zero =>
    have hstart := (Reader.settled_start opening).afterBlank
    exact ⟨fun _ => .inl rfl, fun _ => hstart⟩
  | succ k =>
    have hc : text[k]? = some text[k] := List.getElem?_eq_getElem hi
    rw [readerBefore_succ hc]
    constructor
    · intro hblank
      exact .inr ⟨k, text[k], rfl, hc, hblank⟩
    · rintro (h | ⟨m, c, hm, hmc, hblank⟩)
      · omega
      · obtain rfl : k = m := by omega
        obtain rfl : text[k] = c := Option.some.inj (hc.symm.trans hmc)
        exact hblank

/-- A reader inside of a comment has read a character of it. -/
theorem exists_comment_of_mode (h : (readerBefore opening text i).mode = .comment) :
    ∃ j < i, classOfChar opening text j = .comment := by
  induction i with
  | zero =>
    have hstart : (Reader.start opening).mode ≠ .comment := by cases opening <;> nofun
    exact absurd h hstart
  | succ i ih =>
    cases hc : text[i]? with
    | none =>
      rw [readerBefore_succ_of_none hc] at h
      obtain ⟨j, hj, hclass⟩ := ih h
      exact ⟨j, by omega, hclass⟩
    | some c =>
      rw [readerBefore_succ hc, ← Reader.classOf_eq_comment_iff] at h
      exact ⟨i, by omega, (classOfChar_eq hc).trans h⟩

/-- The first character of a comment is a `#` that starts it. -/
theorem commentStart_of_first (hi : i < text.length) (h : classOfChar opening text i = .comment)
    (hfirst : ∀ j < i, classOfChar opening text j ≠ .comment) : CommentStart opening text i := by
  have hc : text[i]? = some text[i] := List.getElem?_eq_getElem hi
  rw [classOfChar_eq hc] at h
  have hplain : (readerBefore opening text i).mode = .plain := by
    cases hmode : (readerBefore opening text i).mode with
    | plain => rfl
    | quoted mark literal => simp [Reader.classOf, hmode, Mode.charClass] at h
    | comment =>
      obtain ⟨j, hj, hclass⟩ := exists_comment_of_mode hmode
      exact absurd hclass (hfirst j hj)
  have hopens : (readerBefore opening text i).opens? text[i] = some .comment := by
    rw [Reader.classOf_of_plain hplain] at h
    cases hmode : (readerBefore opening text i).opens? text[i] with
    | none => simp [hmode, Mode.charClass] at h
    | some mode => cases mode <;> simp [hmode, Mode.charClass] at h ⊢
  obtain ⟨hhash, hblank⟩ := Reader.opens?_eq_comment_iff.1 hopens
  have houtside : (readerBefore opening text i).mode.mark? = none := by rw [hplain]; rfl
  exact ⟨by rw [hc, hhash], houtside, (afterBlank_readerBefore (Nat.le_of_lt hi)).1 hblank⟩

theorem CommentStart.inComment (h : CommentStart opening text i) :
    classOfChar opening text i = .comment := by
  have hi : i < text.length := (List.getElem?_eq_some_iff.1 h.char).1
  have hblank : (readerBefore opening text i).afterBlank = true :=
    (afterBlank_readerBefore (Nat.le_of_lt hi)).2 h.blank
  have hopens := Reader.opens?_eq_comment_iff.2 ⟨rfl, hblank⟩
  have houtside := h.outside
  rw [classOfChar_eq h.char]
  cases hmode : (readerBefore opening text i).mode with
  | plain => rw [Reader.classOf_of_plain hmode, hopens]; rfl
  | quoted mark literal => simp [hmode, Mode.mark?] at houtside
  | comment => simp [Reader.classOf, hmode, Mode.charClass]

/-- **Comments last** to the end of the line and past it. -/
theorem classAt_of_comment (hi : i < text.length) (h : classOfChar opening text i = .comment)
    {offset : Nat} (hoffset : byteSize (text.take i) ≤ offset) :
    classAt opening text offset = .comment := by
  have hc : text[i]? = some text[i] := List.getElem?_eq_getElem hi
  rw [classOfChar_eq hc] at h
  obtain ⟨more, rfl⟩ := Nat.exists_eq_add_of_le hoffset
  rw [← classAt_drop, drop_eq_cons hc, Reader.classAt]
  by_cases hmore : more = 0
  · rw [if_pos hmore]
    exact h
  · rw [if_neg hmore]
    exact Reader.classAt_of_comment (Reader.classOf_eq_comment_iff.1 h) _ _

/-- Past the end, what is still open is a scalar just if the line leaves its quoting behind. -/
theorem classAt_eq_quoted_iff {offset : Nat} (h : byteSize text ≤ offset) :
    classAt opening text offset = .quoted ↔ quotingAfter opening text ≠ none := by
  rw [classAt_of_le h, quotingAfter]
  cases ((Reader.start opening).run text).mode <;> simp [Mode.charClass, Mode.mark?]

/-- **The two readings of a line agree.** The first character that is in a comment is a `#`
outside of quotes, at the start of the line or after a blank, and every such `#` is in a comment.
From a character of a comment on all is comment, at every offset, also at the end of the
line and past it, and the line ends outside of quotes. Past its end there is a scalar if and
only if the line leaves one open. -/
theorem comment_coherent (opening : Option QuoteMark) (text : List Char) :
    (∀ i < text.length, classOfChar opening text i = .comment →
      (∀ j < i, classOfChar opening text j ≠ .comment) → CommentStart opening text i) ∧
    (∀ i, CommentStart opening text i → classOfChar opening text i = .comment) ∧
    (∀ i < text.length, classOfChar opening text i = .comment →
      ∀ offset, byteSize (text.take i) ≤ offset → classAt opening text offset = .comment) ∧
    ((∃ i < text.length, classOfChar opening text i = .comment) →
      quotingAfter opening text = none) ∧
    ∀ offset, byteSize text ≤ offset →
      (classAt opening text offset = .quoted ↔ quotingAfter opening text ≠ none) := by
  refine ⟨fun i hi h hfirst => commentStart_of_first hi h hfirst, fun i h => h.inComment,
    fun i hi h offset hoffset => classAt_of_comment hi h hoffset, ?_,
    fun offset hoffset => classAt_eq_quoted_iff hoffset⟩
  rintro ⟨i, hi, h⟩
  have hsize : byteSize (text.take i) ≤ byteSize text := by
    have hsplit := congrArg byteSize (List.take_append_drop i text)
    rw [byteSize_append] at hsplit
    omega
  have hend := classAt_of_comment hi h hsize
  by_contra hquoting
  rw [(classAt_eq_quoted_iff (Nat.le_refl _)).2 hquoting] at hend
  cases hend

end Breadcrumb
