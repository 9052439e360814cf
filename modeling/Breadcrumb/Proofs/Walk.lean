import Breadcrumb.Proofs.Locate
import Breadcrumb.Proofs.Place
import Breadcrumb.Walk

/-!
# Walks come back

Every walk that starts from a line of the document comes back with what the document
answers, and with its point where it was, unless a count holds it up. So walks read nothing
off the text and depend on nothing but the document and what they are asked about. A walk that
is held up is so from all points alike, since it counts the same lines wherever it starts.

* `Yields`, `ComesBack`, `ComesTo`: what a walk brings back, from one point and from many.
* `ComesBack.bind`, `ComesBack.mapM`, `ComesTo.filterM`, `ComesTo.excursion`: walks in a row.
* `role_eq`, `isStructural_eq`, `previousStructural_eq`: nothing is counted for these.
* `indentation_comesBack`, `tag_comesBack`: about one line.
* `parent_comesBack`, `ancestors_comesBack`: going up.
* `trail_comesBack`, `keys_comesBack`, `path_comesBack`, `subscript_comesBack`: about the line
  of the point.
* `locate_comesBack`: through all lines.
-/

namespace Breadcrumb.Walk

open Text Cursor

variable {α β : Type} {cursor : Cursor}

/-! ## Steps -/

/-- A walk goes on from where its first part comes to. -/
theorem bind_eq {walk : Walk α} {next : α → Walk β} {after : Cursor} {found : α}
    (h : walk cursor = some (found, after)) : (walk >>= next) cursor = next found after := by
  show (walk cursor).bind _ = _
  rw [h, Option.bind_some]

theorem bind_eq_none {walk : Walk α} {next : α → Walk β} (h : walk cursor = none) :
    (walk >>= next) cursor = none := by
  show (walk cursor).bind _ = _
  rw [h, Option.bind_none]

theorem get_eq : (get : Walk Cursor) cursor = some (cursor, cursor) := rfl

theorem goto_eq (i : Nat) : goto i cursor = some ((), cursor.goto i) := rfl

theorem backToIndent_eq {line : Line} (h : cursor.line? = some line) :
    backToIndent cursor = some ((), cursor.moveTo line.indentSize) := by
  rw [backToIndent, backToIndent?_eq h, Option.map_some]

theorem look_eq {read : Cursor → Option α} {found : α} (h : read cursor = some found) :
    look read cursor = some (found, cursor) := by
  rw [look, h, Option.map_some]

theorem look_eq_none {read : Cursor → Option α} (h : read cursor = none) :
    look read cursor = none := by
  rw [look, h, Option.map_none]

theorem attach_eq {walk : Walk α} {found : α} {after : Cursor}
    (h : walk cursor = some (found, after)) :
    attach walk cursor = some (⟨found, cursor, after, h⟩, after) := by
  unfold attach
  split
  next hnone => cases hnone.symm.trans h
  next hsome =>
    cases hsome.symm.trans h
    rfl

theorem attach_eq_none {walk : Walk α} (h : walk cursor = none) : attach walk cursor = none := by
  unfold attach
  split
  next => rfl
  next hsome => cases h.symm.trans hsome

/-- An excursion that stays in its document leaves the cursor as it was. -/
theorem excursion_eq {walk : Walk α} {found : α} {point : Point}
    (h : walk cursor = some (found, cursor.place point)) :
    excursion walk cursor = some (found, cursor) :=
  excursion_eq_some.2 ⟨_, h, rfl⟩

theorem excursion_eq_none {walk : Walk α} (h : walk cursor = none) :
    excursion walk cursor = none :=
  (bind_eq get_eq).trans (bind_eq_none h)

/-! ## What walks bring back -/

/-- The walk brings `found` back to where it starts, unless a count holds it up. -/
def Yields (walk : Walk α) (cursor : Cursor) (found : α) : Prop :=
  walk cursor = some (found, cursor) ∨ walk cursor = none ∧ cursor.Overflows

/-- The walk brings `found` back from all points of a kind, or it is held up from all of them. -/
def ComesBack (walk : Walk α) (cursor : Cursor) (kind : Point → Prop) (found : α) : Prop :=
  (∀ point, kind point → walk (cursor.place point) = some (found, cursor.place point)) ∨
    (∀ point, kind point → walk (cursor.place point) = none) ∧ cursor.Overflows

/-- The walk finds `found` from all points, and ends somewhere in the document, or it is held up
from all of them. -/
def ComesTo (walk : Walk α) (cursor : Cursor) (found : α) : Prop :=
  (∀ point, ∃ there, walk (cursor.place point) = some (found, cursor.place there)) ∨
    (∀ point, walk (cursor.place point) = none) ∧ cursor.Overflows

/-- Nothing holds up a walk that wraps its columns, or one in a document that fits. -/
theorem Yields.eq {walk : Walk α} {found : α} (h : walk.Yields cursor found)
    (hfits : ¬ cursor.Overflows) : walk cursor = some (found, cursor) :=
  h.resolve_right fun hnone => hfits hnone.2

namespace ComesBack

variable {walk : Walk α} {next : α → Walk β} {kind : Point → Prop} {first : α} {found : β}

/-- What a walk yields at the point of the cursor it brings back to it. -/
theorem of_yields (h : walk.Yields cursor first) :
    walk.ComesBack cursor (fun point => cursor.point = point) first := by
  refine h.imp (fun hsome point hpoint => ?_) fun hnone => ⟨fun point hpoint => ?_, hnone.2⟩
  · obtain rfl : cursor.point = point := hpoint
    exact hsome
  · obtain rfl : cursor.point = point := hpoint
    exact hnone.1

theorem yields (h : walk.ComesBack cursor kind first) (hpoint : kind cursor.point) :
    walk.Yields cursor first :=
  h.imp (fun hall => hall _ hpoint) fun hnone => ⟨hnone.1 _ hpoint, hnone.2⟩

/-- A walk that does as another one does from the points of the kind. -/
theorem congr {other : Walk α}
    (heq : ∀ point, kind point → walk (cursor.place point) = other (cursor.place point))
    (h : other.ComesBack cursor kind first) : walk.ComesBack cursor kind first :=
  h.imp (fun hall point hp => (heq point hp).trans (hall point hp)) fun hnone =>
    ⟨fun point hp => (heq point hp).trans (hnone.1 point hp), hnone.2⟩

theorem bind (h : walk.ComesBack cursor kind first)
    (hnext : (next first).ComesBack cursor kind found) :
    (walk >>= next).ComesBack cursor kind found := by
  rcases h with hall | ⟨hnone, hover⟩
  · exact hnext.congr fun point hp => bind_eq (hall point hp)
  · exact .inr ⟨fun point hp => bind_eq_none (hnone point hp), hover⟩

/-- What a walk brings back can be made into something else. -/
theorem map (f : α → β) (h : walk.ComesBack cursor kind first) :
    (do return f (← walk) : Walk β).ComesBack cursor kind (f first) :=
  h.bind (.inl fun _ _ => rfl)

theorem attach_bind {next : { a // walk.Finds a } → Walk β}
    (h : walk.ComesBack cursor kind first)
    (hnext : ∀ hfinds, (next ⟨first, hfinds⟩).ComesBack cursor kind found) :
    (attach walk >>= next).ComesBack cursor kind found := by
  rcases h with hall | ⟨hnone, hover⟩
  · by_cases hsome : ∃ point, kind point
    · obtain ⟨point, hpoint⟩ := hsome
      have hfinds : walk.Finds first := ⟨_, _, hall point hpoint⟩
      exact (hnext hfinds).congr fun point hp => bind_eq (attach_eq (hall point hp))
    · exact .inl fun point hp => absurd ⟨point, hp⟩ hsome
  · exact .inr ⟨fun point hp => bind_eq_none (attach_eq_none (hnone point hp)), hover⟩

/-- Walks that put the point back can be made one after the other. -/
theorem mapM {walk : α → Walk β} {found : α → β} {l : List α}
    (h : ∀ a ∈ l, (walk a).ComesBack cursor kind (found a)) :
    (l.mapM walk).ComesBack cursor kind (l.map found) := by
  induction l with
  | nil =>
    rw [List.mapM_nil]
    exact .inl fun _ _ => rfl
  | cons a l ih =>
    rw [List.mapM_cons]
    have hrest := ih fun b hb => h b (List.mem_cons_of_mem a hb)
    exact (h a List.mem_cons_self).bind (hrest.map (found a :: ·))

end ComesBack

namespace ComesTo

variable {walk : Walk α} {next : α → Walk β} {first : α} {found : β}

theorem of_comesBack (h : walk.ComesBack cursor (fun _ => True) first) :
    walk.ComesTo cursor first :=
  h.imp (fun hall point => ⟨point, hall point trivial⟩) fun hnone =>
    ⟨fun point => hnone.1 point trivial, hnone.2⟩

theorem congr {other : Walk α}
    (heq : ∀ point, walk (cursor.place point) = other (cursor.place point))
    (h : other.ComesTo cursor first) : walk.ComesTo cursor first :=
  h.imp (fun hall point => (hall point).imp fun _ hthere => (heq point).trans hthere) fun hnone =>
    ⟨fun point => (heq point).trans (hnone.1 point), hnone.2⟩

theorem bind (h : walk.ComesTo cursor first) (hnext : (next first).ComesTo cursor found) :
    (walk >>= next).ComesTo cursor found := by
  rcases h with hall | ⟨hnone, hover⟩
  · rcases hnext with hall' | ⟨hnone', hover⟩
    · refine .inl fun point => ?_
      obtain ⟨there, hthere⟩ := hall point
      rw [bind_eq hthere]
      exact hall' there
    · refine .inr ⟨fun point => ?_, hover⟩
      obtain ⟨there, hthere⟩ := hall point
      rw [bind_eq hthere]
      exact hnone' there
  · exact .inr ⟨fun point => bind_eq_none (hnone point), hover⟩

/-- A walk that goes to a line first does the same from everywhere. -/
theorem of_goto {i : Nat}
    (h : (∃ there, walk (cursor.goto i) = some (first, cursor.place there)) ∨
      walk (cursor.goto i) = none ∧ cursor.Overflows) :
    (Walk.goto i >>= fun _ => walk).ComesTo cursor first :=
  h.imp (fun hthere _ => hthere) fun hnone => ⟨fun _ => hnone.1, hnone.2⟩

theorem goto {kind : Point → Prop} {i : Nat} (h : walk.ComesBack cursor kind first)
    (hkind : kind ⟨i, 0⟩) : (Walk.goto i >>= fun _ => walk).ComesTo cursor first :=
  .of_goto (h.imp (fun hall => ⟨⟨i, 0⟩, hall ⟨i, 0⟩ hkind⟩) fun hnone =>
    ⟨hnone.1 ⟨i, 0⟩ hkind, hnone.2⟩)

/-- **An excursion brings the point back**, wherever the walk comes to. -/
theorem excursion (h : walk.ComesTo cursor first) (kind : Point → Prop) :
    (Walk.excursion walk).ComesBack cursor kind first := by
  rcases h with hall | ⟨hnone, hover⟩
  · refine .inl fun point _ => ?_
    obtain ⟨there, hthere⟩ := hall point
    exact excursion_eq_some.2 ⟨_, hthere, rfl⟩
  · exact .inr ⟨fun point _ => excursion_eq_none (hnone point), hover⟩

/-- A search whose tests leave the point anywhere finds what passes them. -/
theorem filterAuxM {test : α → Walk Bool} {passes : α → Bool} {l : List α}
    (h : ∀ a ∈ l, (test a).ComesTo cursor (passes a)) (found : List α) :
    (l.filterAuxM test found).ComesTo cursor ((l.filter passes).reverse ++ found) := by
  induction l generalizing found with
  | nil => exact .inl fun point => ⟨point, rfl⟩
  | cons a l ih =>
    rw [List.filterAuxM]
    refine (h a List.mem_cons_self).bind ?_
    have hrest := ih (fun b hb => h b (List.mem_cons_of_mem a hb))
      (bif passes a then a :: found else found)
    cases hp : passes a <;> simpa [hp] using hrest

theorem filterM {test : α → Walk Bool} {passes : α → Bool} {l : List α}
    (h : ∀ a ∈ l, (test a).ComesTo cursor (passes a)) :
    (l.filterM test).ComesTo cursor (l.filter passes) := by
  have hfound := filterAuxM h []
  rw [List.append_nil] at hfound
  rw [List.filterM]
  refine hfound.bind (.inl fun point => ⟨point, ?_⟩)
  rw [List.reverse_reverse]
  rfl

end ComesTo

/-! ## One line -/

section Line

variable {line : Line} {i : Nat}

theorem role_eq (h : cursor.line? = some line) : role cursor = some (line.role, cursor) := by
  have hstart : (cursor.goto cursor.point.line).StandsIn line [] line.chars := standsIn_goto h
  have hcomment : ((cursor.goto cursor.point.line).moveTo line.indentSize).inComment? =
      some (decide (classAt line.opening line.chars line.indentSize = .comment)) :=
    inComment?_eq (standsIn_indent hstart.line?_eq).line?_eq
  unfold role Line.role
  by_cases hblank : line.chars.all isBlank = true
  · apply excursion_eq
    rw [bind_eq get_eq, bind_eq (goto_eq _), bind_eq (look_eq hstart.rest?_eq), if_pos hblank,
      if_pos hblank]
    rfl
  · apply excursion_eq
    rw [bind_eq get_eq, bind_eq (goto_eq _), bind_eq (look_eq hstart.rest?_eq), if_neg hblank,
      if_neg hblank, bind_eq (backToIndent_eq hstart.line?_eq), bind_eq (look_eq hcomment)]
    by_cases hclass : classAt line.opening line.chars line.indentSize = .comment
    · rw [if_pos hclass, if_pos (decide_eq_true hclass)]
      rfl
    · rw [if_neg hclass, if_neg (Bool.eq_false_iff.1 (decide_eq_false hclass))]
      rfl

theorem isStructural_eq (hi : cursor.point.line < cursor.document.lines.size) :
    isStructural cursor = some (cursor.document.isStructural cursor.point.line, cursor) := by
  obtain ⟨line, hline⟩ := cursor.document.exists_line?_iff.2 hi
  rw [isStructural, bind_eq (role_eq hline), Document.isStructural, hline]
  rfl

theorem isStructural_comesBack (hi : i < cursor.document.lines.size) :
    isStructural.ComesBack cursor (fun point => i = point.line)
      (cursor.document.isStructural i) := by
  refine .inl fun point hpoint => ?_
  obtain rfl : i = point.line := hpoint
  exact @isStructural_eq (cursor.place point) hi

theorem indentation?_eq (h : cursor.document.line? i = some line) :
    cursor.document.indentation? cursor.arithmetic i = some (cursor.document.indentation i) ∨
      cursor.document.indentation? cursor.arithmetic i = none ∧ cursor.Overflows := by
  rw [Document.indentation?_eq, Document.indentation, h, Option.bind_some, Option.elim_some,
    columnAfter?_eq cursor.document.tabWidth_pos]
  split
  next hstops => exact .inr ⟨rfl, overflows_of_indent h hstops⟩
  next => exact .inl rfl

theorem indentation_comesBack (hi : i < cursor.document.lines.size)
    (kind : Point → Prop) :
    (indentation i).ComesBack cursor kind (cursor.document.indentation i) := by
  obtain ⟨line, hline⟩ := cursor.document.exists_line?_iff.2 hi
  exact (indentation?_eq hline).imp (fun hsome _ _ => look_eq hsome) fun hnone =>
    ⟨fun _ _ => look_eq_none hnone.1, hnone.2⟩

/-- The column of the indent on the line of the point. -/
theorem look_indentation_comesBack (hi : i < cursor.document.lines.size) :
    (look Cursor.indentation?).ComesBack cursor (fun point => i = point.line)
      (cursor.document.indentation i) := by
  refine (indentation_comesBack hi _).congr fun point hpoint => ?_
  obtain rfl : i = point.line := hpoint
  rfl

/-- The column of an indent is sought within the indent, where a count is held up only if it is
held up in the indent itself. -/
theorem exists_moveToColumn_indentation (h : cursor.line? = some line) :
    let column := line.indentation cursor.document.tabWidth
    ∃ walked, line.chars = walked ++ (seek cursor.document.tabWidth column 0 line.chars).2 ∧
      ((∃ reached, moveToColumn column cursor =
          some (reached, cursor.moveTo (byteSize walked))) ∨
        moveToColumn column cursor = none ∧ cursor.Overflows) := by
  intro column
  obtain ⟨walked, hchars, hmove⟩ := exists_moveToColumn?_eq h column
  refine ⟨walked, hchars, ?_⟩
  obtain ⟨before, more, hindent, hseek, -⟩ := seek_indentation cursor.document.tabWidth line.chars
  have happ : before ++ (seek cursor.document.tabWidth column 0 line.chars).2 = line.chars := by
    rw [show (seek cursor.document.tabWidth column 0 line.chars).2 = _ from hseek,
      ← List.append_assoc, hindent, indent_append_unindent]
  have hbefore := List.append_cancel_right (happ.trans hchars)
  by_cases hstops : cursor.arithmetic.Stops UInt64.size
      (exactColumn cursor.document.tabWidth.toNat 0 walked)
  · have hle : exactColumn cursor.document.tabWidth.toNat 0 walked ≤
        exactIndentation cursor.document.tabWidth.toNat line.chars := by
      rw [exactIndentation, ← hindent, hbefore, exactColumn_append]
      exact le_exactColumn (UInt64.lt_iff_toNat_lt.1 cursor.document.tabWidth_pos) _ more
    exact .inr ⟨hmove.trans (if_pos hstops), overflows_of_indent h (hstops.mono hle)⟩
  · exact .inl ⟨_, hmove.trans (if_neg hstops)⟩

theorem tag_comesBack (hi : i < cursor.document.lines.size) (kind : Point → Prop) :
    (tag i).ComesBack cursor kind (cursor.document.tag i) := by
  obtain ⟨line, hline⟩ := cursor.document.exists_line?_iff.2 hi
  have hstart : (cursor.goto i).line? = some line := hline
  have hindentation : cursor.document.indentation i =
      line.indentation cursor.document.tabWidth := by
    rw [Document.indentation, hline, Option.elim_some]
  refine (ComesTo.of_goto ?_).excursion kind
  rcases indentation?_eq hline with hcounted | ⟨hnone, hover⟩
  · have hcolumn : look Cursor.indentation? (cursor.goto i) =
        some (line.indentation cursor.document.tabWidth, cursor.goto i) :=
      hindentation ▸ look_eq hcounted
    obtain ⟨walked, hchars, ⟨reached, hmove⟩ | ⟨hmove, hover⟩⟩ :=
      exists_moveToColumn_indentation hstart
    · rcases (standsIn_moveTo hstart hchars).token?_eq with htoken | ⟨htoken, hover⟩
      · refine .inl ⟨⟨i, byteSize walked⟩, (bind_eq hcolumn).trans ((bind_eq hmove).trans ?_)⟩
        rw [bind_eq (look_eq htoken), Document.tag, hline]
        rfl
      · exact .inr ⟨(bind_eq hcolumn).trans ((bind_eq hmove).trans
          (bind_eq_none (look_eq_none htoken))), hover⟩
    · exact .inr ⟨(bind_eq hcolumn).trans (bind_eq_none hmove), hover⟩
  · exact .inr ⟨bind_eq_none (look_eq_none hnone), hover⟩

end Line

/-! ## Going up -/

theorem climbToStructural_eq {i : Nat} (hi : i ≤ cursor.document.lines.size) :
    ∃ point, climbToStructural (cursor.goto i) =
      some (cursor.document.previousStructural? i, cursor.place point) := by
  induction i with
  | zero =>
    have hstart : (cursor.goto 0).atStart = true := rfl
    rw [climbToStructural, dif_pos hstart]
    exact ⟨_, rfl⟩
  | succ i ih =>
    have hstart : ¬ (cursor.goto (i + 1)).atStart = true := Bool.false_ne_true
    have hstructural : isStructural (cursor.goto (i + 1)).goUp.2 =
        some (cursor.document.isStructural i, cursor.goto i) := @isStructural_eq (cursor.goto i) hi
    rw [climbToStructural, dif_neg hstart, Document.previousStructural?]
    split
    next hnone => cases hnone.symm.trans hstructural
    next above hsome =>
      obtain ⟨h, rfl⟩ : true = cursor.document.isStructural i ∧ above = cursor.goto i := by
        simpa using hsome.symm.trans hstructural
      rw [if_pos h.symm]
      exact ⟨_, rfl⟩
    next above hsome =>
      obtain ⟨h, rfl⟩ : false = cursor.document.isStructural i ∧ above = cursor.goto i := by
        simpa using hsome.symm.trans hstructural
      rw [if_neg (Bool.eq_false_iff.1 h.symm)]
      exact ih (Nat.le_of_lt hi)

theorem previousStructural_eq {i : Nat} (hi : i < cursor.document.lines.size) :
    previousStructural i cursor = some (cursor.document.previousStructural? i, cursor) := by
  obtain ⟨point, hclimb⟩ := climbToStructural_eq (Nat.le_of_lt hi)
  exact excursion_eq ((bind_eq (goto_eq i)).trans hclimb)

theorem previousStructural_comesBack {i : Nat} (hi : i < cursor.document.lines.size)
    (kind : Point → Prop) :
    (previousStructural i).ComesBack cursor kind (cursor.document.previousStructural? i) :=
  .inl fun point _ => @previousStructural_eq (cursor.place point) i hi

theorem parent_comesBack (column : UInt64) {i : Nat} (hi : i < cursor.document.lines.size)
    (kind : Point → Prop) :
    (parent column i).ComesBack cursor kind (cursor.document.parent? column i) := by
  have hfound := previousStructural_comesBack hi kind
  -- the walk restarts from the same candidates as the search in the document
  fun_induction cursor.document.parent? column i with
  | case1 i hp =>
    rw [hp] at hfound
    rw [parent]
    exact hfound.attach_bind fun _ => .inl fun _ _ => rfl
  | case2 i j hp hlt =>
    have hj := Nat.lt_trans (cursor.document.previousStructural?_lt hp) hi
    rw [hp] at hfound
    rw [parent]
    refine hfound.attach_bind fun _ => (indentation_comesBack hj kind).bind ?_
    rw [if_pos hlt]
    exact .inl fun _ _ => rfl
  | case3 i j hp hlt ih =>
    have hj := Nat.lt_trans (cursor.document.previousStructural?_lt hp) hi
    rw [hp] at hfound
    rw [parent]
    refine hfound.attach_bind fun _ => (indentation_comesBack hj kind).bind ?_
    rw [if_neg hlt]
    exact ih hj (previousStructural_comesBack hj kind)

theorem ancestors_comesBack (column : UInt64) {i : Nat} (hi : i < cursor.document.lines.size)
    (kind : Point → Prop) :
    (ancestors column i).ComesBack cursor kind (cursor.document.ancestors column i) := by
  fun_induction cursor.document.ancestors column i with
  | case1 i =>
    rw [ancestors, if_pos rfl]
    exact .inl fun _ _ => rfl
  | case2 column i hcolumn hp =>
    have hfound := parent_comesBack column hi kind
    rw [hp] at hfound
    rw [ancestors, if_neg hcolumn]
    exact hfound.attach_bind fun _ => .inl fun _ _ => rfl
  | case3 column i hcolumn j hp ih =>
    have hj := Nat.lt_trans (cursor.document.parent?_lt hp) hi
    have hfound := parent_comesBack column hi kind
    rw [hp] at hfound
    rw [ancestors, if_neg hcolumn]
    exact hfound.attach_bind fun _ => (indentation_comesBack hj kind).bind ((ih hj).map (j :: ·))

/-! ## The line of the point -/

theorem crumb_comesBack {i : Nat} (hi : i < cursor.document.lines.size) (kind : Point → Prop) :
    (crumb i).ComesBack cursor kind (cursor.document.crumb i) :=
  (indentation_comesBack hi kind).bind ((tag_comesBack hi kind).map _)

section Line

variable {i : Nat} (hi : i < cursor.document.lines.size)

include hi

theorem trail_comesBack :
    trail.ComesBack cursor (fun point => i = point.line) (cursor.document.trail? i) := by
  unfold trail Document.trail?
  refine (isStructural_comesBack hi).bind ?_
  by_cases h : cursor.document.isStructural i = true
  · have habove : ∀ j ∈ (cursor.document.ancestors (cursor.document.indentation i) i).reverse,
        (crumb j).ComesBack cursor (fun point => i = point.line) (cursor.document.crumb j) :=
      fun j hj => crumb_comesBack
        (Nat.lt_trans (Document.mem_ancestors_iff.1 (List.mem_reverse.1 hj)).lt hi) _
    have hrest : ComesBack (do
        let column ← look Cursor.indentation?
        let above ← (← ancestors column i).reverse.mapM crumb
        return some (above ++ [⟨i, column, ← tag i⟩])) cursor (fun point => i = point.line)
          (some (((cursor.document.ancestors (cursor.document.indentation i) i).reverse ++ [i]).map
            cursor.document.crumb)) := by
      refine (look_indentation_comesBack hi).bind ((ancestors_comesBack _ hi _).bind ?_)
      rw [List.map_append]
      exact (ComesBack.mapM habove).bind ((tag_comesBack hi _).map _)
    rw [if_pos h, if_pos h]
    -- the line is that of the point, wherever on it the walk starts
    refine hrest.congr fun point hpoint => ?_
    obtain rfl : i = point.line := hpoint
    rw [bind_eq get_eq]
    rfl
  · rw [if_neg h, if_neg h]
    exact .inl fun _ _ => rfl

theorem keys_comesBack :
    keys.ComesBack cursor (fun point => i = point.line) (cursor.document.keys? i) :=
  (trail_comesBack hi).map _

theorem path_comesBack (settings : Settings) :
    (path settings).ComesBack cursor (fun point => i = point.line)
      (cursor.document.path? settings i) :=
  (keys_comesBack hi).map _

theorem subscript_comesBack (mark : QuoteMark) :
    (subscript mark).ComesBack cursor (fun point => i = point.line)
      (cursor.document.subscript? mark i) :=
  (keys_comesBack hi).map _

end Line

/-! ## All lines -/

theorem hasKeys_comesTo (wanted : List String) {i : Nat} (hi : i < cursor.document.lines.size) :
    (hasKeys wanted i).ComesTo cursor (cursor.document.mayHaveKeys wanted i &&
      cursor.document.keys? i = some wanted) := by
  refine (ComesTo.of_comesBack (tag_comesBack hi _)).bind ?_
  rw [Document.mayHaveKeys]
  by_cases h : wanted.getLast? = some (cursor.document.tag i)
  · rw [if_pos h, decide_eq_true h, Bool.true_and]
    have hkeys := (keys_comesBack hi).map fun found => decide (found = some wanted)
    exact .goto hkeys rfl
  · rw [if_neg h, decide_eq_false h, Bool.false_and]
    exact .inl fun point => ⟨point, rfl⟩

theorem locate_comesBack (separator path : String) (kind : Point → Prop) :
    (locate separator path).ComesBack cursor kind (cursor.document.locate separator path) := by
  have hfound : ((List.range cursor.document.lines.size).filterM
      (hasKeys (KeyPath.split separator path))).ComesTo cursor _ :=
    .filterM fun i hi => hasKeys_comesTo _ (List.mem_range.1 hi)
  refine (hfound.congr fun point => ?_).excursion kind
  rw [bind_eq get_eq]
  rfl

end Breadcrumb.Walk
