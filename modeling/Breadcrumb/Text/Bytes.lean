/-!
# Sizes and offsets in bytes

Offsets into a line count the bytes of its UTF-8 form. An offset that falls
inside a character, or past the end, marks no place in the text.

* `dropBytes?_byteSize_append`: skipping the size of a beginning leaves the rest.
* `dropBytes?_eq_some`: every place in a text splits it in two.
* `takeBytes?_eq_some`: what stands before a place is the other part.
* `isValid_iff`: places are the valid positions in the text as a string.
-/

namespace Breadcrumb.Text

/-- The number of bytes of a text. -/
def byteSize : List Char → Nat
  | [] => 0
  | c :: text => c.utf8Size + byteSize text

@[simp] theorem byteSize_nil : byteSize [] = 0 := rfl

@[simp] theorem byteSize_cons (c : Char) (text : List Char) :
    byteSize (c :: text) = c.utf8Size + byteSize text := rfl

@[simp] theorem byteSize_append (u v : List Char) :
    byteSize (u ++ v) = byteSize u + byteSize v := by
  induction u with
  | nil => simp
  | cons c u ih => rw [List.cons_append, byteSize_cons, ih, byteSize_cons, Nat.add_assoc]

theorem byteSize_eq_zero {text : List Char} : byteSize text = 0 ↔ text = [] := by
  cases text with
  | nil => simp
  | cons c text => have := c.utf8Size_pos; simp; omega

theorem byteSize_eq_utf8ByteSize (text : List Char) :
    byteSize text = (String.ofList text).utf8ByteSize := by
  induction text with
  | nil => rfl
  | cons c text ih =>
    rw [String.ofList_cons, String.utf8ByteSize_append, String.utf8ByteSize_singleton, ← ih,
      byteSize_cons]

/-- What follows the first `n` bytes, if a character starts or the text ends there. -/
def dropBytes? : Nat → List Char → Option (List Char)
  | 0, text => some text
  | _ + 1, [] => none
  | n + 1, c :: text => if c.utf8Size ≤ n + 1 then dropBytes? (n + 1 - c.utf8Size) text else none

@[simp] theorem dropBytes?_zero (text : List Char) : dropBytes? 0 text = some text := by
  cases text <;> rfl

theorem dropBytes?_byteSize_append (u v : List Char) :
    dropBytes? (byteSize u) (u ++ v) = some v := by
  induction u with
  | nil => simp
  | cons c u ih =>
    have hc := c.utf8Size_pos
    obtain ⟨n, hn⟩ : ∃ n, byteSize (c :: u) = n + 1 := ⟨c.utf8Size + byteSize u - 1, by simp; omega⟩
    have hle : c.utf8Size ≤ n + 1 := by simp at hn; omega
    have hrest : n + 1 - c.utf8Size = byteSize u := by simp at hn; omega
    rw [hn, List.cons_append, dropBytes?, if_pos hle, hrest, ih]

/-- **Places split a text.** The offset is the size of what stands before it. -/
theorem dropBytes?_eq_some {n : Nat} {text rest : List Char} :
    dropBytes? n text = some rest ↔ ∃ before, text = before ++ rest ∧ byteSize before = n := by
  constructor
  · intro h
    fun_induction dropBytes? n text with
    | case1 text => exact ⟨[], by simpa using h, rfl⟩
    | case2 => simp at h
    | case3 n c text hle ih =>
      obtain ⟨before, rfl, hsize⟩ := ih h
      exact ⟨c :: before, rfl, by simp; omega⟩
    | case4 => simp at h
  · rintro ⟨before, rfl, rfl⟩
    exact dropBytes?_byteSize_append before rest

/-- The first `n` bytes, if a character starts or the text ends after them. -/
def takeBytes? (n : Nat) (text : List Char) : Option (List Char) :=
  (dropBytes? n text).map fun rest => text.take (text.length - rest.length)

theorem takeBytes?_byteSize_append (u v : List Char) :
    takeBytes? (byteSize u) (u ++ v) = some u := by
  rw [takeBytes?, dropBytes?_byteSize_append, Option.map_some, List.length_append,
    Nat.add_sub_cancel, List.take_left]

/-- What stands before a place. -/
theorem takeBytes?_eq_some {n : Nat} {text before : List Char} :
    takeBytes? n text = some before ↔ ∃ rest, text = before ++ rest ∧ byteSize before = n := by
  constructor
  · intro h
    obtain ⟨rest, hrest, rfl⟩ := Option.map_eq_some_iff.1 h
    obtain ⟨u, rfl, hsize⟩ := dropBytes?_eq_some.1 hrest
    refine ⟨rest, ?_, ?_⟩ <;> simp [hsize]
  · rintro ⟨rest, rfl, rfl⟩
    exact takeBytes?_byteSize_append before rest

/-- **Places are valid positions**: core's positions in a string, where its bytes split
into those of two strings. -/
theorem isValid_iff {n : Nat} {text : List Char} :
    String.Pos.Raw.IsValid (String.ofList text) ⟨n⟩ ↔
      ∃ before rest, text = before ++ rest ∧ byteSize before = n := by
  rw [String.Pos.Raw.isValid_iff_exists_append]
  constructor
  · rintro ⟨s, t, htext, hpos⟩
    refine ⟨s.toList, t.toList, ?_, ?_⟩
    · rw [← String.toList_append, ← htext, String.toList_ofList]
    · rw [byteSize_eq_utf8ByteSize, String.ofList_toList]
      exact (congrArg String.Pos.Raw.byteIdx hpos).symm
  · rintro ⟨before, rest, rfl, rfl⟩
    refine ⟨String.ofList before, String.ofList rest, String.ofList_append, ?_⟩
    rw [byteSize_eq_utf8ByteSize]
    rfl

end Breadcrumb.Text
