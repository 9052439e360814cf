import Breadcrumb.Proofs.Locality
import Mathlib.Data.List.Infix

/-!
# Line ends

A text is its lines and the newlines between them, and nothing is lost by taking it apart unless
carriage returns belong to its line ends. A text whose lines end in newlines only may as well be
written with a carriage return before each of them: its document is the same but for its size.

* `Text.lines_of_not_mem`, `Text.lines_append_newline`: lines from the first newline on.
* `Text.joinLines_lines_iff`: which texts can be put together again.
* `Text.lines_withReturns`: the lines do not show how they ended.
* `Document.line_ends`: both for documents, and all answers with the second.
-/

namespace Breadcrumb

namespace Text

variable {line rest text : List Char}

/-! ## Lines from the first newline on -/

/-- A text without newlines is one line. -/
theorem lines_of_not_mem (h : '\n' ∉ line) : lines line = [line] := by
  unfold lines
  rw [List.splitOn_eq_singleton h]
  cases line with
  | nil => rfl
  | cons c line => rfl

/-- The pieces between newlines are lines, but for an empty one at the end. -/
theorem lines_of_ne_nil (h : text ≠ []) :
    lines text = (text.splitOn '\n').dropLast.map dropReturn ++
      (text.splitOn '\n').getLast?.toList.filter fun piece => !piece.isEmpty := by
  unfold lines
  simp only
  apply if_neg
  by_cases hmem : '\n' ∈ text
  · -- the piece before the first newline is not the last one
    obtain ⟨line, rest, rfl, hline⟩ := List.eq_append_cons_of_mem hmem
    rw [List.splitOn_append_cons_self_of_not_mem hline,
      List.dropLast_cons_of_ne_nil (List.splitOn_ne_nil '\n' rest), List.map_cons, List.cons_append]
    exact List.cons_ne_nil _ _
  · rw [List.splitOn_eq_singleton hmem]
    simp [h]

/-- **The first newline ends the first line.** If it is the last character too, there is no
other line. -/
theorem lines_append_newline (h : '\n' ∉ line) (rest : List Char) :
    lines (line ++ '\n' :: rest) = dropReturn line :: if rest = [] then [] else lines rest := by
  have hne : line ++ '\n' :: rest ≠ [] :=
    List.append_ne_nil_of_right_ne_nil line (List.cons_ne_nil '\n' rest)
  have hpieces := List.splitOn_ne_nil '\n' rest
  rw [lines_of_ne_nil hne, List.splitOn_append_cons_self_of_not_mem h,
    List.dropLast_cons_of_ne_nil hpieces, List.map_cons, List.cons_append,
    List.getLast?_cons_of_ne_nil hpieces]
  by_cases hrest : rest = []
  · rw [if_pos hrest, hrest]
    rfl
  · rw [if_neg hrest, lines_of_ne_nil hrest]

/-- Texts are made line by line, from the last one, which no newline ends. -/
theorem newline_induction {motive : List Char → Prop} (last : ∀ line, '\n' ∉ line → motive line)
    (ended : ∀ line rest, '\n' ∉ line → motive rest → motive (line ++ '\n' :: rest))
    (text : List Char) : motive text := by
  induction hlength : text.length using Nat.strong_induction_on generalizing text with
  | _ n ih =>
    by_cases hmem : '\n' ∈ text
    · obtain ⟨line, rest, rfl, hline⟩ := List.eq_append_cons_of_mem hmem
      have hlt : rest.length < n := by
        rw [← hlength, List.length_append, List.length_cons]
        omega
      exact ended line rest hline (ih rest.length hlt rest rfl)
    · exact last text hmem

/-! ## Joining lines -/

/-- Lines with newlines between them. -/
def joinLines (lines : List (List Char)) : List Char := ['\n'].intercalate lines

/-- The newline that a text ends with, if it does. -/
def lastNewline (text : List Char) : List Char := if text.getLast? = some '\n' then ['\n'] else []

/-- A carriage return stands right before a newline. -/
def HasReturn (text : List Char) : Prop := ['\r', '\n'] <:+: text

instance (text : List Char) : Decidable (HasReturn text) :=
  inferInstanceAs (Decidable (['\r', '\n'] <:+: text))

theorem not_hasReturn_of_not_mem (h : '\n' ∉ line) : ¬ HasReturn line := by
  intro hreturn
  exact h (hreturn.subset (by simp))

/-- The first newlines of two texts are at the same place, if the texts are the same. -/
theorem append_newline_inj {line' rest' : List Char} (h : '\n' ∉ line) (h' : '\n' ∉ line') :
    line ++ '\n' :: rest = line' ++ '\n' :: rest' ↔ line = line' ∧ rest = rest' := by
  constructor
  · intro heq
    have hpieces := congrArg (List.splitOn '\n') heq
    rw [List.splitOn_append_cons_self_of_not_mem h, List.splitOn_append_cons_self_of_not_mem h']
      at hpieces
    obtain rfl : line = line' := (List.cons.inj hpieces).1
    exact ⟨rfl, (List.cons.inj (List.append_cancel_left heq)).2⟩
  · rintro ⟨rfl, rfl⟩
    rfl

theorem dropReturn_eq_self_iff : dropReturn line = line ↔ line.getLast? ≠ some '\r' := by
  unfold dropReturn
  split
  next hlast =>
    obtain ⟨before, rfl⟩ := List.getLast?_eq_some_iff.1 hlast
    simp
  next hlast => exact ⟨fun _ => hlast, fun _ => rfl⟩

theorem dropReturn_append_return (line : List Char) : dropReturn (line ++ ['\r']) = line := by
  unfold dropReturn
  rw [List.getLast?_concat, if_pos rfl, List.dropLast_concat]

theorem newline_not_mem_dropReturn (h : '\n' ∉ line) : '\n' ∉ dropReturn line :=
  fun hmem => h (mem_of_mem_dropReturn hmem)

theorem hasReturn_append_newline (h : '\n' ∉ line) :
    HasReturn (line ++ '\n' :: rest) ↔ line.getLast? = some '\r' ∨ HasReturn rest := by
  constructor
  · rintro ⟨before, after, htext⟩
    by_cases hmem : '\n' ∈ before
    · -- the newline of the pair is not the first one
      obtain ⟨first, more, rfl, hfirst⟩ := List.eq_append_cons_of_mem hmem
      have hsplit : first ++ '\n' :: (more ++ ['\r', '\n'] ++ after) = line ++ '\n' :: rest := by
        rw [← htext]
        simp
      obtain ⟨-, rfl⟩ := (append_newline_inj hfirst h).1 hsplit
      exact Or.inr ⟨more, after, rfl⟩
    · have hpair : '\n' ∉ before ++ ['\r'] := by simp [hmem]
      have hsplit : (before ++ ['\r']) ++ '\n' :: after = line ++ '\n' :: rest := by
        rw [← htext]
        simp
      obtain ⟨rfl, -⟩ := (append_newline_inj hpair h).1 hsplit
      exact Or.inl List.getLast?_concat
  · rintro (hlast | hrest)
    · obtain ⟨before, rfl⟩ := List.getLast?_eq_some_iff.1 hlast
      exact ⟨before, rest, by simp⟩
    · have hsuffix : rest <:+ line ++ '\n' :: rest := ⟨line ++ ['\n'], by simp⟩
      exact hrest.trans hsuffix.isInfix

theorem joinLines_lines_append_newline (h : '\n' ∉ line) (rest : List Char) :
    joinLines (lines (line ++ '\n' :: rest)) ++ lastNewline (line ++ '\n' :: rest) =
      dropReturn line ++ '\n' :: (joinLines (lines rest) ++ lastNewline rest) := by
  rw [lines_append_newline h]
  by_cases hrest : rest = []
  · subst hrest
    rw [if_pos rfl, lastNewline, List.getLast?_concat, if_pos rfl]
    simp [joinLines, lines_of_not_mem, lastNewline]
  · have hlast : (line ++ '\n' :: rest).getLast? = rest.getLast? := by
      rw [List.getLast?_append_cons, List.getLast?_cons_of_ne_nil hrest]
    rw [if_neg hrest, joinLines, List.intercalate_cons_of_ne_nil (lines_ne_nil rest), lastNewline,
      hlast]
    simp [joinLines, lastNewline]

/-- **Nothing is lost** by taking a text apart, just if no line ends in a carriage return and a
newline. -/
theorem joinLines_lines_iff (text : List Char) :
    joinLines (lines text) ++ lastNewline text = text ↔ ¬ HasReturn text := by
  induction text using newline_induction with
  | last line h =>
    have hlast : line.getLast? ≠ some '\n' := fun hlast => h (List.mem_of_getLast? hlast)
    rw [lines_of_not_mem h, joinLines, List.intercalate_singleton, lastNewline, if_neg hlast,
      List.append_nil]
    exact ⟨fun _ => not_hasReturn_of_not_mem h, fun _ => rfl⟩
  | ended line rest h ih =>
    rw [joinLines_lines_append_newline h, append_newline_inj (newline_not_mem_dropReturn h) h, ih,
      dropReturn_eq_self_iff, hasReturn_append_newline h, not_or]

/-! ## Lines that end in a carriage return and a newline -/

/-- The text with a carriage return put before every newline. -/
def withReturns (text : List Char) : List Char :=
  text.flatMap fun c => if c = '\n' then ['\r', '\n'] else [c]

theorem withReturns_of_not_mem (h : '\n' ∉ line) : withReturns line = line := by
  have hsame : ∀ c ∈ line, (if c = '\n' then ['\r', '\n'] else [c]) = [c] := by
    intro c hc
    apply if_neg
    rintro rfl
    exact h hc
  unfold withReturns
  rw [List.flatMap_congr hsame]
  exact List.flatMap_singleton' line

theorem withReturns_append_newline (h : '\n' ∉ line) (rest : List Char) :
    withReturns (line ++ '\n' :: rest) = (line ++ ['\r']) ++ '\n' :: withReturns rest := by
  have hline := withReturns_of_not_mem h
  unfold withReturns at hline ⊢
  rw [List.flatMap_append, List.flatMap_cons, hline, if_pos rfl]
  simp

theorem withReturns_eq_nil_iff : withReturns text = [] ↔ text = [] := by
  unfold withReturns
  rw [List.flatMap_eq_nil_iff]
  constructor
  · intro h
    rw [List.eq_nil_iff_forall_not_mem]
    intro c hc
    have hnil := h c hc
    split at hnil <;> cases hnil
  · rintro rfl c hc
    cases hc

theorem byteSize_withReturns (text : List Char) :
    byteSize (withReturns text) = byteSize text + text.count '\n' := by
  induction text with
  | nil => rfl
  | cons c text ih =>
    have hcons : withReturns (c :: text) =
        (if c = '\n' then ['\r', '\n'] else [c]) ++ withReturns text := rfl
    rw [hcons, byteSize_append, ih, byteSize_cons, List.count_cons]
    by_cases hc : c = '\n'
    · subst hc
      have hreturn : byteSize ['\r', '\n'] = '\n'.utf8Size + 1 := by decide
      rw [if_pos rfl, if_pos (beq_self_eq_true _), hreturn]
      omega
    · rw [if_neg hc, if_neg (by simpa using hc), byteSize_cons, byteSize_nil]
      omega

/-- **The lines do not show how they ended.** -/
theorem lines_withReturns (h : ¬ HasReturn text) : lines (withReturns text) = lines text := by
  induction text using newline_induction with
  | last line hline => rw [withReturns_of_not_mem hline]
  | ended line rest hline ih =>
    rw [hasReturn_append_newline hline, not_or] at h
    have hreturn : '\n' ∉ line ++ ['\r'] := by simp [hline]
    rw [withReturns_append_newline hline, lines_append_newline hreturn, lines_append_newline hline,
      dropReturn_append_return, dropReturn_eq_self_iff.2 h.1, ih h.2]
    simp only [withReturns_eq_nil_iff]

end Text

/-! ## Documents -/

namespace Document

open Text

variable {text : List Char} {tabWidth : UInt64}

theorem texts_ofText (text : List Char) (tabWidth : UInt64) :
    (ofText text tabWidth).texts = Text.lines text :=
  texts_ofLines (lines_ne_nil text) _ _

/-- The document with another size told of it. -/
def withSize (doc : Document) (size : Nat) : Document := { doc with size := size }

/-- **Only the size tells how lines ended.** -/
theorem ofText_withReturns (h : ¬ HasReturn text) :
    ofText (withReturns text) tabWidth =
      (ofText text tabWidth).withSize (byteSize text + text.count '\n') := by
  unfold ofText
  rw [lines_withReturns h, byteSize_withReturns]
  rfl

section WithSize

variable (doc : Document) (size i : Nat)

/-- No trail depends on the size. -/
theorem trail?_withSize : (doc.withSize size).trail? i = doc.trail? i := by
  have hagree : doc.AgreeOn (doc.withSize size) 0 0 i := ⟨rfl, rfl, fun _ _ => rfl⟩
  exact trail?_eq_of_agreeOn_zero hagree

theorem keys?_withSize : (doc.withSize size).keys? i = doc.keys? i := by
  unfold keys?
  rw [trail?_withSize]

end WithSize

/-- **Taking a text apart loses nothing, and does not show how the lines ended.** A document has
at least one line. Its lines with newlines between them, and one more if the text ends with one,
are the text, just if no carriage return stands right before a newline. If none does, one may be
put before every newline: all lines have the texts that they had and start in the same quoting, so
they keep their roles, columns, tags, trails, keys, paths and subscripts, and the document differs
in its size only, by one for every newline. -/
theorem line_ends (text : List Char) (tabWidth : UInt64) :
    let doc := ofText text tabWidth
    0 < doc.lines.size ∧
    (joinLines doc.texts ++ lastNewline text = text ↔ ¬ HasReturn text) ∧
    (¬ HasReturn text →
      let doc' := ofText (withReturns text) tabWidth
      doc' = { doc with size := doc.size + text.count '\n' } ∧
      ∀ i, doc'.line? i = doc.line? i ∧
        (doc'.line? i).map Line.role = (doc.line? i).map Line.role ∧
        doc'.indentation i = doc.indentation i ∧
        doc'.tag i = doc.tag i ∧
        doc'.trail? i = doc.trail? i ∧
        doc'.keys? i = doc.keys? i ∧
        (∀ settings, doc'.path? settings i = doc.path? settings i) ∧
        ∀ mark, doc'.subscript? mark i = doc.subscript? mark i) := by
  intro doc
  refine ⟨doc.lines_size_pos, ?_, fun h => ?_⟩
  · rw [texts_ofText]
    exact joinLines_lines_iff text
  · intro doc'
    have hsame : doc' = doc.withSize (doc.size + text.count '\n') := ofText_withReturns h
    refine ⟨hsame, fun i => ?_⟩
    rw [hsame]
    have hkeys := keys?_withSize doc (doc.size + text.count '\n') i
    exact ⟨rfl, rfl, rfl, rfl, trail?_withSize doc _ i, hkeys, path?_eq_of_keys? hkeys,
      subscript?_eq_of_keys? hkeys⟩

/-- A scalar over an empty line, a carriage return between lines and one at the very end. -/
theorem line_ends_lone_returns :
    let text := "a:\n b: 'x\n\n# y'\n\td: z\re\r".toList
    let doc := ofText text 4
    let doc' := ofText (withReturns text) 4
    ¬ HasReturn text ∧ joinLines doc.texts ++ lastNewline text = text ∧
      doc' = { doc with size := doc.size + 4 } ∧
      doc'.line? 3 = some ⟨"# y'".toList, some .single⟩ ∧
      doc'.trail? 4 = some [⟨3, 0, "#"⟩, ⟨4, 4, "d"⟩] := by
  intro text doc doc'
  have hreturn : ¬ HasReturn text := by decide
  obtain ⟨-, hjoin, hsame⟩ := line_ends text 4
  obtain ⟨hsize, hanswers⟩ := hsame hreturn
  obtain ⟨hline, -⟩ := hanswers 3
  obtain ⟨-, -, -, -, htrail, -⟩ := hanswers 4
  refine ⟨hreturn, hjoin.2 hreturn, hsize, ?_, ?_⟩
  · rw [hline]
    decide
  · rw [htrail]
    decide +kernel

end Document

end Breadcrumb
