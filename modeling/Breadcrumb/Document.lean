import Breadcrumb.Failure
import Breadcrumb.Line
import Breadcrumb.Text.Lines

/-!
# Documents

A document is its lines, each with the quoting it starts in, and the tab width
its columns are counted with. Lines are found by their index, from 0; people
number them from 1.

* `Document.opening_eq`: every line starts in the quoting the lines before it end in.
* `Document.chars_ofLines`: a document has the lines it is made of.
-/

namespace Breadcrumb

open Text

/-- Lines read so far, and the quoting the next one starts in, past one more line. -/
def readLine (past : Array Line × Option QuoteMark) (chars : List Char) :
    Array Line × Option QuoteMark :=
  (past.1.push ⟨chars, past.2⟩, quotingAfter past.2 chars)

/-- Lines, each with the quoting it starts in. -/
def readLines (texts : List (List Char)) : Array Line := (texts.foldl readLine (#[], none)).1

/-- The lines of a text and what is needed to read them. -/
structure Document where
  lines : Array Line
  /-- The columns from one tab stop to the next. -/
  tabWidth : UInt64
  /-- The size in bytes of the text the document was made from. -/
  size : Nat
  lines_ne_empty : lines ≠ #[]
  tabWidth_pos : 0 < tabWidth
  /-- Quoted scalars run on from line to line. -/
  openings_eq : lines.toList.map Line.opening = openings none (lines.toList.map Line.chars)

section readLines

variable (texts : List (List Char))

theorem readLines_fold (before : Array Line) (opening : Option QuoteMark) :
    let lines := (texts.foldl readLine (before, opening)).1
    lines.toList.map Line.chars = before.toList.map Line.chars ++ texts ∧
      lines.toList.map Line.opening = before.toList.map Line.opening ++ openings opening texts := by
  induction texts generalizing before opening with
  | nil => simp [openings]
  | cons chars texts ih =>
    simpa [openings, readLine] using ih (before.push ⟨chars, opening⟩) (quotingAfter opening chars)

theorem chars_readLines : (readLines texts).toList.map Line.chars = texts := by
  simpa [readLines] using (readLines_fold texts #[] none).1

theorem opening_readLines : (readLines texts).toList.map Line.opening = openings none texts := by
  simpa [readLines] using (readLines_fold texts #[] none).2

end readLines

namespace Document

/-- The document with the given lines; no lines are one empty line, and a tab is
at least one column wide. -/
def ofLines (texts : List (List Char)) (tabWidth : UInt64) (size : Nat) : Document where
  lines := readLines (if texts = [] then [[]] else texts)
  tabWidth := if tabWidth = 0 then 1 else tabWidth
  size := size
  lines_ne_empty := by
    intro h
    have := chars_readLines (if texts = [] then [[]] else texts)
    rw [h] at this
    split at this <;> simp_all
  tabWidth_pos := by
    split
    · decide
    · rename_i h
      exact UInt64.pos_iff_ne_zero.2 h
  openings_eq := by rw [opening_readLines, chars_readLines]

def ofText (text : List Char) (tabWidth : UInt64) : Document :=
  ofLines (Text.lines text) tabWidth (byteSize text)

/-- The document of a text given by its bytes. -/
def ofBytes (bytes : ByteArray) (tabWidth : UInt64) : Except Failure Document :=
  match String.fromUTF8? bytes with
  | some text => .ok (ofText text.toList tabWidth)
  | none => .error .notUnicode

variable (doc : Document)

def line? (i : Nat) : Option Line := doc.lines[i]?

/-- The index of the line with a number. -/
def index? (number : Nat) : Except Failure Nat :=
  if 0 < number ∧ number ≤ doc.lines.size then .ok (number - 1)
  else .error (.lineOutOfRange number doc.lines.size)

/-- The line at `i` takes part in the structure of the document. -/
def isStructural (i : Nat) : Bool := (doc.line? i).any fun line => line.role = .structural

/-- The column that the indent of the line at `i` reaches. -/
def indentation (i : Nat) : UInt64 := (doc.line? i).elim 0 (Line.indentation doc.tabWidth)

/-- The column of the first character after the indent of the line at `i`; none where
there is no such line, or where the count stops. -/
def indentation? (arithmetic : Arithmetic) (i : Nat) : Option UInt64 :=
  (doc.line? i).bind fun line => line.columnAt? arithmetic doc.tabWidth line.indentSize

def tag (i : Nat) : String := (doc.line? i).elim "" (Line.tag doc.tabWidth)

theorem indentation?_eq (arithmetic : Arithmetic) (i : Nat) :
    doc.indentation? arithmetic i = (doc.line? i).bind fun line =>
      columnAfter? arithmetic doc.tabWidth (indent line.chars) := by
  unfold indentation?
  cases doc.line? i with
  | none => rfl
  | some line => rw [Option.bind_some, Option.bind_some, Line.columnAt?_indentSize]

theorem lines_size_pos : 0 < doc.lines.size := Array.size_pos_iff.2 doc.lines_ne_empty

theorem exists_line?_iff {i : Nat} : (∃ line, doc.line? i = some line) ↔ i < doc.lines.size := by
  rw [← Option.isSome_iff_exists, line?, isSome_getElem?]

/-- The numbers of lines are those from 1 to their count. -/
theorem index?_eq_ok {number i : Nat} :
    doc.index? number = .ok i ↔ number = i + 1 ∧ i < doc.lines.size := by
  unfold index?
  split
  · simp only [Except.ok.injEq]; omega
  · simp only [reduceCtorEq, false_iff]; omega

theorem ofBytes_toUTF8 (text : String) (tabWidth : UInt64) :
    ofBytes text.toUTF8 tabWidth = .ok (ofText text.toList tabWidth) := by
  have hvalid : text.toUTF8.IsValidUTF8 := text.isValidUTF8
  unfold ofBytes String.fromUTF8?
  rw [dif_pos hvalid]
  rfl

theorem chars_ofLines {texts : List (List Char)} (h : texts ≠ []) (tabWidth : UInt64) (size : Nat) :
    (ofLines texts tabWidth size).lines.toList.map Line.chars = texts := by
  simp [ofLines, chars_readLines, h]

/-- **Quoting runs on.** The first line starts outside of quotes, and each later one
in the quoting that the line before it ends in. -/
theorem opening_eq {i : Nat} {line : Line} (h : doc.line? i = some line) :
    line.opening = (((doc.lines.toList.take i).map Line.chars).foldl quotingAfter none) := by
  have key : ∀ (lines : List Line) (q : Option QuoteMark) (i : Nat),
      lines.map Line.opening = openings q (lines.map Line.chars) → lines[i]? = some line →
      line.opening = ((lines.take i).map Line.chars).foldl quotingAfter q := by
    intro lines
    induction lines with
    | nil => simp
    | cons l lines ih =>
      intro q i hopen hline
      simp only [List.map_cons, openings, List.cons.injEq] at hopen
      cases i with
      | zero => simp_all
      | succ i =>
        have := ih _ i hopen.2 (by simpa using hline)
        simpa using this
  exact key _ _ _ doc.openings_eq (by simpa [line?] using h)

end Document

end Breadcrumb
