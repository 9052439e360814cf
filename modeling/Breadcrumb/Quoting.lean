import Breadcrumb.Indicator
import Breadcrumb.Text.Blank

/-!
# Quoted scalars and comments

A reader goes through a line character by character and knows of each one
whether it is code, belongs to a quoted scalar or to a comment. Quoted scalars
run on over line ends, so a line is read from the quoting it starts in; all
else starts anew on every line. Block scalars are not tracked.

* A scalar opens where a node may start: at the start of the line, after `:`, `-`
  or `?` with a blank after it, after the opening bracket of a flow collection,
  and after a comma inside one.
* A comment opens at a `#` that starts the line or follows a blank.
-/

namespace Breadcrumb

open Text

inductive QuoteMark where
  | single
  | double
  deriving DecidableEq, Repr

namespace QuoteMark

def char : QuoteMark → Char
  | single => '\''
  | double => '"'

def ofChar? (c : Char) : Option QuoteMark :=
  if c = '\'' then some single else if c = '"' then some double else none

@[simp] theorem ofChar?_char (mark : QuoteMark) : ofChar? mark.char = some mark := by
  cases mark <;> rfl

end QuoteMark

/-- What a character belongs to. -/
inductive CharClass where
  | code
  | quoted
  | comment
  deriving DecidableEq, Repr

/-- What a reader is inside of. In a quoted scalar, a literal character is one that
can neither close the scalar nor escape its neighbour. -/
inductive Mode where
  | plain
  | quoted (mark : QuoteMark) (literal : Bool)
  | comment
  deriving DecidableEq, Repr

namespace Mode

def charClass : Mode → CharClass
  | plain => .code
  | quoted _ _ => .quoted
  | comment => .comment

/-- The mark of the scalar that is open. -/
def mark? : Mode → Option QuoteMark
  | quoted mark _ => some mark
  | _ => none

/-- The mode after a character of a scalar. Between double quotes a backslash makes
the next character literal; between single quotes a mark before another does. -/
def afterQuoted (mark : QuoteMark) (literal : Bool) (c : Char) (next : Option Char) : Mode :=
  if literal then quoted mark false
  else match mark with
    | .double =>
      if c = '\\' then quoted mark true else if c = '"' then plain else quoted mark false
    | .single =>
      if c = '\'' then (if next = some '\'' then quoted mark true else plain)
      else quoted mark false

end Mode

/-- What is known between two characters of a line. -/
structure Reader where
  /-- What the next character is inside of. -/
  mode : Mode := .plain
  /-- The last character was blank, or there is none. -/
  afterBlank : Bool := true
  /-- A node may start here. -/
  atNode : Bool := true
  /-- The number of flow collections open on this line. -/
  depth : Nat := 0
  deriving DecidableEq, Repr

namespace Reader

def start (opening : Option QuoteMark) : Reader :=
  match opening with
  | none => {}
  | some mark => { mode := .quoted mark false }

/-- The mode that a character of plain text opens, if any. -/
def opens? (r : Reader) (c : Char) : Option Mode :=
  if c = '#' && r.afterBlank then some .comment
  else if r.atNode then (QuoteMark.ofChar? c).map (Mode.quoted · false)
  else none

def classOf (r : Reader) (c : Char) : CharClass :=
  match r.mode with
  | .plain => ((r.opens? c).getD .plain).charClass
  | mode => mode.charClass

/-- Keeps track of nodes and flow collections past a character of code. -/
def readCode (r : Reader) (c : Char) (next : Option Char) : Reader :=
  if isBlank c then r
  else if c = ':' && isBlankOrEnd next then { r with atNode := true }
  -- a block entry may hold another one right after its indicator
  else if (c = '-' || c = '?') && isBlankOrEnd next && r.atNode then r
  -- outside of flow collections, a bracket inside a word is part of the word
  else if opensFlow c && (r.atNode || 0 < r.depth) then
    { r with atNode := true, depth := r.depth + 1 }
  else if closesFlow c && 0 < r.depth then { r with atNode := false, depth := r.depth - 1 }
  else if c = ',' && 0 < r.depth then { r with atNode := true }
  else { r with atNode := false }

/-- The reader past `c`, with `next` the character after it. -/
def read (r : Reader) (c : Char) (next : Option Char) : Reader :=
  let past := match r.mode with
    | .plain =>
      match r.opens? c with
      | some mode => { r with mode := mode, atNode := false }
      | none => r.readCode c next
    | .quoted mark literal => { r with mode := Mode.afterQuoted mark literal c next }
    | .comment => r
  { past with afterBlank := isBlank c }

/-- The reader past a text that ends the line. -/
def run (r : Reader) : List Char → Reader
  | [] => r
  | c :: text => (r.read c text.head?).run text

/-- The class of the first character that starts at the offset in bytes or after
it; past them all, the class of what is still open. -/
def classAt (r : Reader) : Nat → List Char → CharClass
  | _, [] => r.mode.charClass
  | offset, c :: text =>
    if offset = 0 then r.classOf c else (r.read c text.head?).classAt (offset - c.utf8Size) text

end Reader

/-- The quoting a line ends in. -/
def quotingAfter (opening : Option QuoteMark) (line : List Char) : Option QuoteMark :=
  ((Reader.start opening).run line).mode.mark?

/-- The quoting each line starts in, when the first one starts in `opening`. -/
def openings (opening : Option QuoteMark) : List (List Char) → List (Option QuoteMark)
  | [] => []
  | line :: lines => opening :: openings (quotingAfter opening line) lines

/-- The class of the character at an offset in bytes. -/
def classAt (opening : Option QuoteMark) (line : List Char) (offset : Nat) : CharClass :=
  (Reader.start opening).classAt offset line

example : quotingAfter none "a: 'b".toList = some .single := by decide
example : quotingAfter none "a: b 'c".toList = none := by decide
example : quotingAfter none "a: [b,\"c".toList = some .double := by decide
example : quotingAfter none "a: b,\"c".toList = none := by decide
example : quotingAfter (some .single) "it''s".toList = some .single := by decide
example : classAt none "a: b#c".toList 4 = .code := by decide
example : classAt none "a: b #c".toList 5 = .comment := by decide

end Breadcrumb
