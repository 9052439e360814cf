/-!
# Words

The words of a command line by their form, and the numbers that they write.
-/

namespace Breadcrumb.CommandLine

/-- A 64-bit number in decimal digits, with or without a plus sign. -/
def number? (word : String) : Option Nat :=
  let digits := match word.toList with
    | '+' :: digits => digits
    | digits => digits
  if digits.isEmpty || !digits.all Char.isDigit then none
  else
    let n := digits.foldl (fun n d => 10 * n + (d.toNat - '0'.toNat)) 0
    if n < UInt64.size then some n else none

/-- A word of the command line, by its form. -/
inductive Word where
  /-- The word `--`. -/
  | dashes
  /-- A long option, and its value if it has one. -/
  | long (name : String) (value : Option String)
  /-- Short options. -/
  | short (letters : List Char)
  | plain (text : String)
  deriving DecidableEq, Repr

namespace Word

/-- The form of a word. A dash by itself is plain. -/
def ofString (word : String) : Word :=
  match word.toList with
  | ['-', '-'] => dashes
  | '-' :: '-' :: rest =>
    let name := rest.takeWhile (· != '=')
    let value := match rest.dropWhile (· != '=') with
      | [] => none
      | _ :: value => some (String.ofList value)
    long (String.ofList name) value
  | '-' :: c :: rest => short (c :: rest)
  | _ => plain word

end Word

end Breadcrumb.CommandLine
