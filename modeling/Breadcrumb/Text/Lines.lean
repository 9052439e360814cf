/-!
# The lines of a text

A line feed ends a line, and a carriage return right before it belongs to the
line end. A text that does not end in a line feed has one more line, kept as it
stands. The empty text is one empty line.

* `lines_ne_nil`: every text has a line.
* `newline_not_mem_of_mem_lines`: no line holds a line feed.
-/

namespace Breadcrumb.Text

/-- A line without the carriage return that belongs to its end. -/
def dropReturn (line : List Char) : List Char :=
  if line.getLast? = some '\r' then line.dropLast else line

/-- The lines of a text, without their ends. -/
def lines (text : List Char) : List (List Char) :=
  let pieces := text.splitOn '\n'
  -- only the last piece has no line feed after it, so it keeps its carriage return
  let ended := pieces.dropLast.map dropReturn
  let unended := pieces.getLast?.toList.filter fun piece => !piece.isEmpty
  if ended ++ unended = [] then [[]] else ended ++ unended

theorem lines_ne_nil (text : List Char) : lines text ≠ [] := by
  simp only [lines]
  split <;> simp_all

theorem mem_of_mem_dropReturn {c : Char} {line : List Char} (h : c ∈ dropReturn line) :
    c ∈ line := by
  unfold dropReturn at h
  split at h
  · exact (List.dropLast_sublist line).subset h
  · exact h

/-- No piece of a split contains the character that was split on. -/
theorem not_mem_of_mem_splitOn {c : Char} {text piece : List Char} (h : piece ∈ text.splitOn c) :
    c ∉ piece := by
  induction text generalizing piece with
  | nil => simp_all [List.splitOn_nil]
  | cons d text ih =>
    rw [List.splitOn_cons_eq_if_modifyHead] at h
    obtain ⟨first, later, hpieces⟩ := List.exists_cons_of_ne_nil (List.splitOn_ne_nil c text)
    rw [hpieces] at h ih
    split at h
    · rcases List.mem_cons.1 h with rfl | h
      · simp
      · exact ih h
    · rename_i hne
      rw [List.modifyHead_cons] at h
      rcases List.mem_cons.1 h with rfl | h
      · have hc : c ≠ d := fun e => hne (by simp [e])
        simp [hc, ih List.mem_cons_self]
      · exact ih (List.mem_cons_of_mem _ h)

/-- **Lines hold no line feed.** -/
theorem newline_not_mem_of_mem_lines {text line : List Char} (h : line ∈ lines text) :
    '\n' ∉ line := by
  simp only [lines] at h
  split at h
  · simp_all
  · rcases List.mem_append.1 h with h | h
    · obtain ⟨piece, hpiece, rfl⟩ := List.mem_map.1 h
      exact fun hc => not_mem_of_mem_splitOn ((List.dropLast_sublist _).subset hpiece)
        (mem_of_mem_dropReturn hc)
    · have hlast := Option.mem_toList.1 (List.mem_filter.1 h).1
      exact not_mem_of_mem_splitOn (List.mem_of_getLast? hlast)

example : lines "a\r\n\r\nb\r".toList = ["a".toList, [], "b\r".toList] := by decide
example : lines [] = [[]] := by decide
example : lines ['\n'] = [[]] := by decide

end Breadcrumb.Text
