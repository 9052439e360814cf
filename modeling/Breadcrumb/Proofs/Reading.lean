import Breadcrumb.Document
import Mathlib.Tactic.Common

/-!
# How blanks and comments are read

At the start of a line nothing but the quoting is known, and blanks do not change
that: a line of blanks ends in the quoting it starts in. Outside of quotes a `#`
after blanks starts a comment, which lasts to the end of the line.

* `quotingAfter_of_blank`, `quotingAfter_comment`: blank lines and comments keep the
  quoting.
* `Line.role_eq_comment_iff`: comments are the lines outside of quotes that start
  with `#` after their indent.
* `Document.line?_eq`: a document is made of its texts, each read from the quoting
  that the texts before it end in.
-/

namespace Breadcrumb

open Text

/-! ## Blanks -/

theorem isBlank_of_indents {c : Char} (h : indents c = true) : isBlank c = true := by
  rcases indents_iff.1 h with rfl | rfl <;> decide

theorem isBlank_of_mem_indent {chars : List Char} {c : Char} (h : c ∈ indent chars) :
    isBlank c = true :=
  isBlank_of_indents (indents_of_mem_indent h)

theorem ne_of_isBlank {c d : Char} (hc : isBlank c = true) (hd : isBlank d = false) : c ≠ d := by
  rintro rfl
  rw [hc] at hd
  cases hd

namespace Reader

/-! ## One character -/

section Read

variable {r : Reader} {c : Char} {next : Option Char}

theorem mode_readCode : (r.readCode c next).mode = r.mode := by
  unfold readCode
  repeat' split
  all_goals rfl

theorem read_of_opens {mode : Mode} (h : r.mode = .plain) (hopens : r.opens? c = some mode) :
    r.read c next = { r with mode := mode, atNode := false, afterBlank := isBlank c } := by
  unfold read
  rw [h]
  simp only [hopens]

theorem read_of_code (h : r.mode = .plain) (hopens : r.opens? c = none) :
    r.read c next = { r.readCode c next with afterBlank := isBlank c } := by
  unfold read
  rw [h]
  simp only [hopens]

theorem read_of_quoted {mark : QuoteMark} {literal : Bool} (h : r.mode = .quoted mark literal) :
    r.read c next =
      { r with mode := .afterQuoted mark literal c next, afterBlank := isBlank c } := by
  unfold read
  rw [h]

theorem read_of_comment (h : r.mode = .comment) :
    r.read c next = { r with afterBlank := isBlank c } := by
  obtain ⟨mode, afterBlank, atNode, depth⟩ := r
  obtain rfl : mode = .comment := h
  rfl

end Read

/-- A reader that blanks do not change: it comes from a blank or from nowhere, and no
character is pending in a quoted scalar. -/
structure Settled (r : Reader) : Prop where
  afterBlank : r.afterBlank = true
  mode : r.mode = .plain ∨ ∃ mark, r.mode = .quoted mark false

theorem settled_start (opening : Option QuoteMark) : (start opening).Settled := by
  cases opening with
  | none => exact ⟨rfl, Or.inl rfl⟩
  | some mark => exact ⟨rfl, Or.inr ⟨mark, rfl⟩⟩

theorem opens?_of_isBlank (r : Reader) {c : Char} (hc : isBlank c = true) : r.opens? c = none := by
  have hhash : c ≠ '#' := ne_of_isBlank hc (by decide)
  have hsingle : c ≠ '\'' := ne_of_isBlank hc (by decide)
  have hdouble : c ≠ '"' := ne_of_isBlank hc (by decide)
  unfold opens? QuoteMark.ofChar?
  simp [hhash, hsingle, hdouble]

theorem afterQuoted_of_isBlank (mark : QuoteMark) {c : Char} (hc : isBlank c = true)
    (next : Option Char) : Mode.afterQuoted mark false c next = .quoted mark false := by
  have hsingle : c ≠ '\'' := ne_of_isBlank hc (by decide)
  have hdouble : c ≠ '"' := ne_of_isBlank hc (by decide)
  have hback : c ≠ '\\' := ne_of_isBlank hc (by decide)
  unfold Mode.afterQuoted
  cases mark <;> simp [hsingle, hdouble, hback]

/-- **A blank changes nothing.** -/
theorem Settled.read_blank {r : Reader} (h : r.Settled) {c : Char} (hc : isBlank c = true)
    (next : Option Char) : r.read c next = r := by
  obtain ⟨mode, afterBlank, atNode, depth⟩ := r
  obtain ⟨hafter, hmode⟩ := h
  obtain rfl : afterBlank = true := hafter
  rcases hmode with hmode | ⟨mark, hmode⟩
  · obtain rfl : mode = .plain := hmode
    unfold read
    simp only [opens?_of_isBlank _ hc, hc]
    unfold readCode
    rw [if_pos hc]
  · obtain rfl : mode = .quoted mark false := hmode
    unfold read
    simp only [afterQuoted_of_isBlank mark hc next, hc]

theorem Settled.run_blank_append {r : Reader} (h : r.Settled) {blanks : List Char}
    (hblank : ∀ c ∈ blanks, isBlank c = true) (text : List Char) :
    r.run (blanks ++ text) = r.run text := by
  induction blanks with
  | nil => rfl
  | cons c blanks ih =>
    rw [List.cons_append, run, h.read_blank (hblank c List.mem_cons_self)]
    exact ih fun d hd => hblank d (List.mem_cons_of_mem c hd)

/-- The class of what follows some blanks is found as if they were not there. -/
theorem Settled.classAt_blank_append {r : Reader} (h : r.Settled) {blanks : List Char}
    (hblank : ∀ c ∈ blanks, isBlank c = true) (text : List Char) :
    r.classAt (byteSize blanks) (blanks ++ text) = r.classAt 0 text := by
  induction blanks with
  | nil => rfl
  | cons c blanks ih =>
    have hsize : byteSize (c :: blanks) ≠ 0 := by
      rw [byteSize_cons]
      have := c.utf8Size_pos
      omega
    have hrest : byteSize (c :: blanks) - c.utf8Size = byteSize blanks := by
      rw [byteSize_cons]
      omega
    rw [List.cons_append, classAt, if_neg hsize, hrest,
      h.read_blank (hblank c List.mem_cons_self)]
    exact ih fun d hd => hblank d (List.mem_cons_of_mem c hd)

/-! ## Comments -/

theorem classOf_start_eq_comment_iff {opening : Option QuoteMark} {c : Char} :
    (start opening).classOf c = .comment ↔ opening = none ∧ c = '#' := by
  cases opening with
  | some mark => simp [start, classOf, Mode.charClass]
  | none =>
    by_cases hc : c = '#'
    · subst hc
      decide
    · have hopens : (start none).opens? c = (QuoteMark.ofChar? c).map (Mode.quoted · false) := by
        simp [start, opens?, hc]
      have hmode : (start none).mode = .plain := rfl
      unfold classOf
      rw [hmode]
      simp only [hopens]
      cases QuoteMark.ofChar? c <;> simp [Mode.charClass, hc]

/-- A comment lasts to the end of the line. -/
theorem mode_run_of_comment {r : Reader} (h : r.mode = .comment) (text : List Char) :
    (r.run text).mode = .comment := by
  induction text generalizing r with
  | nil => exact h
  | cons c text ih =>
    rw [run]
    apply ih
    rw [read_of_comment h]
    exact h

end Reader

/-- **Blanks keep the quoting**, inside of quotes and outside. -/
theorem quotingAfter_of_blank (opening : Option QuoteMark) {chars : List Char}
    (h : ∀ c ∈ chars, isBlank c = true) : quotingAfter opening chars = opening := by
  have hrun := (Reader.settled_start opening).run_blank_append h []
  rw [List.append_nil] at hrun
  unfold quotingAfter
  rw [hrun]
  cases opening <;> rfl

/-- **Comments open no quote**, whatever they say. -/
theorem quotingAfter_comment {blanks : List Char} (h : ∀ c ∈ blanks, isBlank c = true)
    (text : List Char) : quotingAfter none (blanks ++ '#' :: text) = none := by
  have hmode : ((Reader.start none).read '#' text.head?).mode = .comment := rfl
  unfold quotingAfter
  rw [(Reader.settled_start none).run_blank_append h, Reader.run,
    Reader.mode_run_of_comment hmode]
  rfl

namespace Line

theorem role_eq_blank_iff {line : Line} :
    line.role = .blank ↔ ∀ c ∈ line.chars, isBlank c = true := by
  unfold role
  rw [← List.all_eq_true]
  by_cases h : line.chars.all isBlank = true
  · rw [if_pos h]
    exact ⟨fun _ => h, fun _ => rfl⟩
  · rw [if_neg h]
    refine ⟨fun hrole => ?_, fun hall => absurd hall h⟩
    split at hrole <;> cases hrole

/-- The class of the character after the indent does not depend on the indent. -/
theorem classAt_indentSize (line : Line) :
    classAt line.opening line.chars line.indentSize =
      (Reader.start line.opening).classAt 0 (unindent line.chars) := by
  have hindent : ∀ c ∈ indent line.chars, isBlank c = true := fun c hc =>
    isBlank_of_mem_indent hc
  have hread := (Reader.settled_start line.opening).classAt_blank_append hindent
    (unindent line.chars)
  rw [indent_append_unindent] at hread
  exact hread

/-- **Comments** are the lines outside of quotes that start with `#` after their indent. -/
theorem role_eq_comment_iff {line : Line} :
    line.role = .comment ↔ line.opening = none ∧ (unindent line.chars).head? = some '#' := by
  unfold role
  rw [classAt_indentSize]
  by_cases hall : line.chars.all isBlank = true
  · rw [if_pos hall]
    refine ⟨fun hrole => absurd hrole (by decide), fun ⟨_, hhead⟩ => ?_⟩
    have hmem : '#' ∈ line.chars :=
      (List.dropWhile_sublist indents).subset (List.mem_of_mem_head? hhead)
    exact absurd (List.all_eq_true.1 hall '#' hmem) (by decide)
  · rw [if_neg hall]
    cases hrest : unindent line.chars with
    | nil =>
      -- a line that is all indent is blank
      refine absurd (List.all_eq_true.2 fun c hc => ?_) hall
      rw [← indent_append_unindent line.chars, hrest, List.append_nil] at hc
      exact isBlank_of_mem_indent hc
    | cons c rest =>
      rw [Reader.classAt, if_pos rfl, List.head?_cons, Option.some.injEq,
        ← Reader.classOf_start_eq_comment_iff]
      by_cases h : (Reader.start line.opening).classOf c = .comment
      · rw [if_pos h]
        exact ⟨fun _ => h, fun _ => rfl⟩
      · rw [if_neg h]
        exact ⟨fun hrole => absurd hrole (by decide), fun hclass => absurd hclass h⟩

end Line

namespace Document

variable (doc : Document)

/-! ## Documents and their texts -/

/-- The texts of the lines of a document. -/
def texts : List (List Char) := doc.lines.toList.map Line.chars

/-- The quoting that a line at `i` starts in: the one the lines before it end in. -/
def openingAt (i : Nat) : Option QuoteMark := (doc.texts.take i).foldl quotingAfter none

theorem length_texts : doc.texts.length = doc.lines.size := by simp [texts]

theorem openingAt_succ (i : Nat) :
    doc.openingAt (i + 1) = doc.texts[i]?.elim (doc.openingAt i) (quotingAfter (doc.openingAt i)) := by
  unfold openingAt
  rw [List.take_add_one, List.foldl_append]
  cases doc.texts[i]? <;> rfl

/-- **A document is made of its texts**, each read from the quoting before it. -/
theorem line?_eq (i : Nat) :
    doc.line? i = doc.texts[i]?.map fun chars => ⟨chars, doc.openingAt i⟩ := by
  have htexts : doc.texts[i]? = (doc.line? i).map Line.chars := by
    unfold texts line?
    rw [List.getElem?_map, Array.getElem?_toList]
  rw [htexts]
  cases hline : doc.line? i with
  | none => rfl
  | some line =>
    have hopening : line.opening = doc.openingAt i := by
      rw [doc.opening_eq hline, openingAt, texts, List.map_take]
    rw [Option.map_some, Option.map_some, ← hopening]

theorem exists_text_of_isStructural {doc : Document} {i : Nat} (h : doc.isStructural i = true) :
    ∃ chars, doc.texts[i]? = some chars := by
  unfold isStructural at h
  rw [line?_eq] at h
  cases hi : doc.texts[i]? with
  | none =>
    rw [hi] at h
    cases h
  | some chars => exact ⟨chars, rfl⟩

theorem texts_ne_nil : doc.texts ≠ [] := by
  have hpos := doc.lines_size_pos
  rw [← length_texts] at hpos
  exact List.length_pos_iff.1 hpos

theorem texts_ofLines {texts : List (List Char)} (h : texts ≠ []) (tabWidth : UInt64) (size : Nat) :
    (ofLines texts tabWidth size).texts = texts :=
  chars_ofLines h tabWidth size

theorem tabWidth_ofLines {tabWidth : UInt64} (h : 0 < tabWidth) (texts : List (List Char))
    (size : Nat) : (ofLines texts tabWidth size).tabWidth = tabWidth :=
  if_neg (UInt64.pos_iff_ne_zero.1 h)

end Document

end Breadcrumb
