import Breadcrumb.Proofs.Ancestry

/-!
# Trails in one pass

All trails of a document can be had in one reading from the top. The reading keeps
a stack of lines: for each structural line it pops what is indented as far or
further; what is left is the way to the line, which then goes on the stack itself.

* `ancestors_eq_dropWhile`: what a climb passes over is what the stack pops.
* `readTrails_eq_trail?`: one reading gives the trail of every line.
-/

namespace Breadcrumb

/-- Pops from the top of a stack what is indented as far as `column` or further. -/
def pop (column : UInt64) (stack : List Crumb) : List Crumb :=
  stack.dropWhile fun top => column ≤ top.indentation

/-- The trails of lines read from the top, where the first of them has the index `i`
and the stack, its top first, is that of the lines read before. -/
def readTrails (tabWidth : UInt64) : Nat → List Crumb → List Line → List (Option (List Crumb))
  | _, _, [] => []
  | i, stack, line :: lines =>
    if line.role = .structural then
      let crumb : Crumb := ⟨i, line.indentation tabWidth, line.tag tabWidth⟩
      let above := pop crumb.indentation stack
      some (above.reverse ++ [crumb]) :: readTrails tabWidth (i + 1) (crumb :: above) lines
    else none :: readTrails tabWidth (i + 1) stack lines

namespace Document

variable {doc : Document}

/-! ## The climb and the stack -/

theorem ancestors_of_parent?_eq_none {column : UInt64} {i : Nat}
    (h : doc.parent? column i = none) : doc.ancestors column i = [] := by
  rw [ancestors]
  split
  · rfl
  · split
    · rfl
    · rename_i hp
      rw [h] at hp
      cases hp

theorem ancestors_of_parent?_eq_some {column : UInt64} {i p : Nat}
    (h : doc.parent? column i = some p) :
    doc.ancestors column i = p :: doc.ancestors (doc.indentation p) p := by
  have hcolumn : column ≠ 0 := by
    rintro rfl
    exact absurd (parent?_eq_some_iff.1 h).lt_column UInt64.not_lt_zero
  rw [ancestors, if_neg hcolumn]
  split
  · rename_i hp
    rw [h] at hp
    cases hp
  · rename_i q hp
    rw [h] at hp
    obtain rfl := Option.some.inj hp
    rfl

/-- A candidate that is indented too far is passed over. -/
theorem ancestors_of_le {column : UInt64} {i p : Nat} (h : doc.previousStructural? i = some p)
    (hle : column ≤ doc.indentation p) : doc.ancestors column i = doc.ancestors column p := by
  have hparent : doc.parent? column i = doc.parent? column p := by
    rw [parent?]
    split
    · rename_i hp
      rw [h] at hp
      cases hp
    · rename_i q hp
      rw [h] at hp
      obtain rfl := Option.some.inj hp
      rw [if_neg (UInt64.not_lt.2 hle)]
  cases hp : doc.parent? column p with
  | none => rw [ancestors_of_parent?_eq_none hp, ancestors_of_parent?_eq_none (hparent.trans hp)]
  | some q => rw [ancestors_of_parent?_eq_some hp, ancestors_of_parent?_eq_some (hparent.trans hp)]

/-- The nearest structural line above `i` and its ancestors: the stack at `i`. -/
def wayAbove (doc : Document) (i : Nat) : List Nat :=
  (doc.previousStructural? i).elim [] fun p => p :: doc.ancestors (doc.indentation p) p

/-- Dropping first what `p` tells to drop changes nothing, if `q` tells to drop it too. -/
theorem dropWhile_dropWhile_of_imp {p q : Nat → Bool} (h : ∀ j, p j = true → q j = true)
    (l : List Nat) : (l.dropWhile p).dropWhile q = l.dropWhile q := by
  induction l with
  | nil => rfl
  | cons j l ih =>
    by_cases hp : p j = true
    · rw [List.dropWhile_cons_of_pos hp, List.dropWhile_cons_of_pos (h j hp), ih]
    · rw [List.dropWhile_cons_of_neg hp]

/-- **What a climb passes over is what the stack pops.** -/
theorem ancestors_eq_dropWhile (column : UInt64) (i : Nat) :
    doc.ancestors column i = (doc.wayAbove i).dropWhile fun j => column ≤ doc.indentation j := by
  induction i using Nat.strongRecOn generalizing column with
  | ind i ih =>
    unfold wayAbove
    cases hp : doc.previousStructural? i with
    | none =>
      refine ancestors_of_parent?_eq_none (parent?_eq_none_iff.2 fun k hk hs => ?_)
      exact absurd hs (Bool.eq_false_iff.1 (previousStructural?_eq_none_iff.1 hp k hk))
    | some p =>
      have hpi := doc.previousStructural?_lt hp
      rw [Option.elim_some]
      by_cases hle : column ≤ doc.indentation p
      · -- the climb starts anew at `p`, with the stack that `p` found
        rw [List.dropWhile_cons, if_pos (decide_eq_true hle), ancestors_of_le hp hle, ih p hpi,
          ih p hpi, dropWhile_dropWhile_of_imp]
        intro j hj
        exact decide_eq_true (UInt64.le_trans hle (of_decide_eq_true hj))
      · have hlt := UInt64.not_le.1 hle
        obtain ⟨-, hs, hbetween⟩ := previousStructural?_eq_some_iff.1 hp
        have hparent : doc.IsParent column i p :=
          ⟨hpi, hs, hlt, fun k h1 h2 h3 => absurd h3 (Bool.eq_false_iff.1 (hbetween k h1 h2))⟩
        rw [ancestors_of_parent?_eq_some (parent?_eq_some_iff.2 hparent),
          List.dropWhile_cons, if_neg (by rwa [decide_eq_true_eq])]

theorem wayAbove_succ_of_structural {i : Nat} (h : doc.isStructural i = true) :
    doc.wayAbove (i + 1) = i :: doc.ancestors (doc.indentation i) i := by
  rw [wayAbove, previousStructural?, if_pos h, Option.elim_some]

theorem wayAbove_succ_of_not_structural {i : Nat} (h : ¬ doc.isStructural i = true) :
    doc.wayAbove (i + 1) = doc.wayAbove i := by
  rw [wayAbove, previousStructural?, if_neg h, wayAbove]

/-- Popping leaves the ancestors. -/
theorem pop_wayAbove (column : UInt64) (i : Nat) :
    pop column ((doc.wayAbove i).map doc.crumb) = (doc.ancestors column i).map doc.crumb := by
  rw [pop, List.dropWhile_map, ancestors_eq_dropWhile]
  rfl

/-! ## The reading -/

/-- **The stack is the way to the line read last.** Going on from it, a reading gives the
trails of the lines that are left. -/
theorem readTrails_wayAbove {i : Nat} {lines : List Line} (h : doc.lines.toList.drop i = lines) :
    readTrails doc.tabWidth i ((doc.wayAbove i).map doc.crumb) lines =
      (List.range' i lines.length).map doc.trail? := by
  -- the stack at `i + 1` is the one that `readTrails` hands on, so only the first trail is left
  induction lines generalizing i with
  | nil => rfl
  | cons line lines ih =>
    have hline : doc.line? i = some line := by
      have := congrArg (fun l => l[0]?) h
      simpa [line?] using this
    have hrest : doc.lines.toList.drop (i + 1) = lines := by
      rw [← List.tail_drop, h, List.tail_cons]
    have hs : doc.isStructural i = decide (line.role = .structural) := by
      rw [isStructural, hline, Option.any_some]
    rw [List.length_cons, List.range'_succ, List.map_cons, ← ih hrest, readTrails]
    by_cases hrole : line.role = .structural
    · have hs : doc.isStructural i = true := by rw [hs, decide_eq_true hrole]
      have hcrumb : doc.crumb i =
          ⟨i, line.indentation doc.tabWidth, line.tag doc.tabWidth⟩ := by
        rw [crumb, indentation, tag, hline, Option.elim_some, Option.elim_some]
      have htrail : doc.trail? i = some ((pop (doc.indentation i)
          ((doc.wayAbove i).map doc.crumb)).reverse ++ [doc.crumb i]) := by
        rw [trail?_eq_some hs, trailLines, List.map_append, List.map_reverse, List.map_singleton,
          pop_wayAbove]
      rw [if_pos hrole, ← hcrumb, wayAbove_succ_of_structural hs, List.map_cons, htrail,
        ← pop_wayAbove]
      rfl
    · have hs : doc.isStructural i = false := by rw [hs, decide_eq_false hrole]
      rw [if_neg hrole, wayAbove_succ_of_not_structural (by rw [hs]; decide), trail?_eq_none hs]

/-- **One reading from the top gives the trail of every line**, with the positions, the
indentations and the tags on it, as the climb from each line does. -/
theorem readTrails_eq_trail? (doc : Document) :
    readTrails doc.tabWidth 0 [] doc.lines.toList =
      (List.range doc.lines.size).map doc.trail? := by
  have hread := @readTrails_wayAbove doc 0 _ List.drop_zero
  rw [Array.length_toList, ← List.range_eq_range'] at hread
  exact hread

example :
    (readTrails 8 0 [] (ofText "  a:\n\n b:\n     c:\n   d: 1\n".toList 8).lines.toList).map
        (Option.map (List.map Crumb.line)) =
      [some [0], none, some [2], some [2, 3], some [2, 4]] := by
  decide

end Document

end Breadcrumb
