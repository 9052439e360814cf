/-!
# Key paths

A path is the keys on the way to a line, joined by a separator. Keys may hold the
separator themselves. An escaped key has a backslash before every backslash and
every separator in it; splitting takes the character after a backslash as it is,
and drops a backslash that ends the path.

* `splitChars_ne_nil`: splitting gives at least one key.
* `join_cons`: one more key in front goes before a separator.
-/

namespace Breadcrumb.KeyPath

/-- An empty separator separates nothing. -/
def separates (separator text : List Char) : Bool :=
  !separator.isEmpty && separator.isPrefixOf text

theorem length_pos_of_separates {separator text : List Char} (h : separates separator text = true) :
    0 < separator.length := by
  cases separator with
  | nil => simp [separates] at h
  | cons c separator => simp

/-- A key with its backslashes and separators escaped. -/
def escapeChars (separator : List Char) : List Char → List Char
  | [] => []
  | c :: key =>
    if c = '\\' then '\\' :: '\\' :: escapeChars separator key
    else if _h : separates separator (c :: key) = true then
      '\\' :: (separator ++ escapeChars separator ((c :: key).drop separator.length))
    else c :: escapeChars separator key
termination_by key => key.length
decreasing_by
  · simp
  · have := length_pos_of_separates ‹_›
    simp only [List.length_drop, List.length_cons]; omega
  · simp

/-- The keys of a path. -/
def splitChars (separator : List Char) : List Char → List (List Char)
  | [] => [[]]
  | ['\\'] => [[]]
  | '\\' :: c :: path => (splitChars separator path).modifyHead (c :: ·)
  | c :: path =>
    if _h : separates separator (c :: path) = true then
      [] :: splitChars separator ((c :: path).drop separator.length)
    else (splitChars separator path).modifyHead (c :: ·)
termination_by path => path.length
decreasing_by
  · simp only [List.length_cons]; omega
  · have := length_pos_of_separates ‹_›
    simp only [List.length_drop, List.length_cons]; omega
  · simp

theorem splitChars_ne_nil (separator path : List Char) : splitChars separator path ≠ [] := by
  fun_induction splitChars separator path with
  | case1 => simp
  | case2 => simp
  | case3 c path ih => cases h : splitChars separator path <;> simp_all
  | case4 => simp
  | case5 c path _ _ _ ih => cases h : splitChars separator path <;> simp_all

/-- Keys joined by a separator, each one escaped first if `escapes` is set. -/
def joinChars (separator : List Char) (escapes : Bool) (keys : List (List Char)) : List Char :=
  separator.intercalate (if escapes then keys.map (escapeChars separator) else keys)

def escape (separator key : String) : String :=
  String.ofList (escapeChars separator.toList key.toList)

def split (separator path : String) : List String :=
  (splitChars separator.toList path.toList).map String.ofList

def join (separator : String) (escapes : Bool) (keys : List String) : String :=
  String.ofList (joinChars separator.toList escapes (keys.map String.toList))

/-- One more key in front of others goes before a separator. -/
theorem join_cons (separator : String) (escapes : Bool) (key : String) {keys : List String}
    (h : keys ≠ []) :
    join separator escapes (key :: keys) =
      (if escapes then escape separator key else key) ++ separator ++ join separator escapes keys := by
  cases escapes with
  | false =>
    have hne : keys.map String.toList ≠ [] := by simpa using h
    simp only [join, joinChars, Bool.false_eq_true, if_false, List.map_cons,
      List.intercalate_cons_of_ne_nil hne, String.ofList_append, String.ofList_toList]
  | true =>
    have hne : (keys.map String.toList).map (escapeChars separator.toList) ≠ [] := by simpa using h
    simp only [join, joinChars, escape, if_true, List.map_cons,
      List.intercalate_cons_of_ne_nil hne, String.ofList_append, String.ofList_toList]

end Breadcrumb.KeyPath
