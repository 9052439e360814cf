/-!
# Words

Columns are counted in words of 64 bits, and open brackets in words of 32. A number that is no
word wraps, or else it stops what is going on. Which of the two happens is up to how the program
was built.

* `add?_eq`, `mul?_eq`, `increment?_eq`: what words come to, unless the number stops.
* `Stops.mono`: what stops at a number stops at a greater one.
-/

namespace Breadcrumb

/-- What becomes of a number that is no word: it wraps, or it is checked and nothing goes on. -/
inductive Arithmetic where
  | wrapping
  | checked
  deriving DecidableEq, Repr

namespace Arithmetic

variable (arithmetic : Arithmetic)

/-- Nothing goes on at the number `n`, of which there is no word among `size` of them. -/
def Stops (size n : Nat) : Prop := arithmetic = checked ∧ size ≤ n

instance (size n : Nat) : Decidable (arithmetic.Stops size n) :=
  inferInstanceAs (Decidable (arithmetic = checked ∧ size ≤ n))

/-- The word that is kept of a number, among `size` of them. -/
def word? (size n : Nat) : Option Nat :=
  if arithmetic.Stops size n then none else some (n % size)

def add? (a b : UInt64) : Option UInt64 :=
  (arithmetic.word? UInt64.size (a.toNat + b.toNat)).map UInt64.ofNat

def mul? (a b : UInt64) : Option UInt64 :=
  (arithmetic.word? UInt64.size (a.toNat * b.toNat)).map UInt64.ofNat

/-- One more in a count. -/
def increment? (count : UInt32) : Option UInt32 :=
  (arithmetic.word? UInt32.size (count.toNat + 1)).map UInt32.ofNat

variable {arithmetic} {size n m : Nat}

theorem Stops.mono (h : arithmetic.Stops size n) (hle : n ≤ m) : arithmetic.Stops size m :=
  ⟨h.1, Nat.le_trans h.2 hle⟩

theorem not_stops_of_lt (h : n < size) : ¬ arithmetic.Stops size n :=
  fun hstops => absurd hstops.2 (Nat.not_le.2 h)

theorem not_stops_wrapping : ¬ wrapping.Stops size n := fun h => Arithmetic.noConfusion h.1

theorem stops_checked_iff : checked.Stops size n ↔ size ≤ n := and_iff_right rfl

theorem map_word? {Word : Type} (word : Nat → Word) :
    (arithmetic.word? size n).map word =
      if arithmetic.Stops size n then none else some (word (n % size)) := by
  unfold word?
  split <;> rfl

theorem add?_eq (a b : UInt64) :
    arithmetic.add? a b =
      if arithmetic.Stops UInt64.size (a.toNat + b.toNat) then none else some (a + b) := by
  have hword : UInt64.ofNat ((a.toNat + b.toNat) % UInt64.size) = a + b := by
    rw [UInt64.ofNat_mod_size, UInt64.ofNat_add, UInt64.ofNat_toNat, UInt64.ofNat_toNat]
  rw [add?, map_word?, hword]

theorem mul?_eq (a b : UInt64) :
    arithmetic.mul? a b =
      if arithmetic.Stops UInt64.size (a.toNat * b.toNat) then none else some (a * b) := by
  have hword : UInt64.ofNat ((a.toNat * b.toNat) % UInt64.size) = a * b := by
    rw [UInt64.ofNat_mod_size, UInt64.ofNat_mul, UInt64.ofNat_toNat, UInt64.ofNat_toNat]
  rw [mul?, map_word?, hword]

theorem increment?_eq (count : UInt32) :
    arithmetic.increment? count =
      if arithmetic.Stops UInt32.size (count.toNat + 1) then none else some (count + 1) := by
  have hword : UInt32.ofNat ((count.toNat + 1) % UInt32.size) = count + 1 := by
    rw [UInt32.ofNat_mod_size, UInt32.ofNat_add, UInt32.ofNat_toNat]
    rfl
  rw [increment?, map_word?, hword]

end Arithmetic

end Breadcrumb
