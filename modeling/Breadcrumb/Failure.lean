/-!
# Failures

What can go wrong on the side of the host: the input cannot be read, a line
number lies outside the document, or the settings are of no use. That a line has
no parent or no path is not a failure.
-/

namespace Breadcrumb

/-- An error of the operating system, by its number. -/
structure SystemError where
  code : Nat
  deriving DecidableEq, Repr

namespace SystemError

def descriptions : List (Nat × String) :=
  [(1, "Operation not permitted"), (2, "No such file or directory"), (4, "Interrupted system call"),
    (5, "Input/output error"), (6, "No such device or address"), (9, "Bad file descriptor"),
    (11, "Resource temporarily unavailable"), (12, "Cannot allocate memory"),
    (13, "Permission denied"), (16, "Device or resource busy"), (19, "No such device"),
    (20, "Not a directory"), (21, "Is a directory"), (22, "Invalid argument"),
    (23, "Too many open files in system"), (24, "Too many open files"), (26, "Text file busy"),
    (27, "File too large"), (36, "File name too long"), (40, "Too many levels of symbolic links")]

/-- The description followed by the number. -/
def message (error : SystemError) : String :=
  (descriptions.lookup error.code).getD ("Unknown error " ++ toString error.code) ++
    " (os error " ++ toString error.code ++ ")"

end SystemError

/-- What a failure is about. -/
inductive Subject where
  | input
  | line
  | settings
  | general
  deriving DecidableEq, Repr

/-- The causes of failure. -/
inductive Failure where
  /-- The file cannot be opened. -/
  | notOpened (name : String) (cause : SystemError)
  /-- A name with a NUL character in it names no file. -/
  | nulInName (name : String)
  /-- The open input cannot be read. -/
  | notRead (cause : SystemError)
  /-- The bytes of the input are not UTF-8. -/
  | notUnicode
  /-- There is no line of that number among `count` lines. -/
  | lineOutOfRange (number count : Nat)
  | emptySeparator
  | zeroTabWidth
  /-- A failure that a host reports in its own words. -/
  | reported (subject : Subject) (text : String)
  deriving DecidableEq, Repr

namespace Failure

/-- What a failure is about. -/
def subject : Failure → Subject
  | notOpened .. | nulInName _ | notRead _ | notUnicode => .input
  | lineOutOfRange .. => .line
  | emptySeparator | zeroTabWidth => .settings
  | reported subject _ => subject

def text : Failure → String
  | notOpened name cause => "cannot open '" ++ name ++ "': " ++ cause.message
  | nulInName name =>
    "cannot open '" ++ name ++ "': file name contained an unexpected NUL byte"
  | notRead cause => cause.message
  | notUnicode => "stream did not contain valid UTF-8"
  | lineOutOfRange number count =>
    "line " ++ toString number ++ " is out of range (" ++ toString count ++ " lines in document)."
  | emptySeparator => "separator must not be empty"
  | zeroTabWidth => "tab width must be at least 1"
  | reported _ text => text

/-- The message shown: failures of the settings say so first. -/
def message (failure : Failure) : String :=
  if failure.subject = .settings then "invalid configuration: " ++ failure.text else failure.text

end Failure

end Breadcrumb
