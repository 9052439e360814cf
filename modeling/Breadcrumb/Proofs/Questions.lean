import Breadcrumb.Proofs.Walk
import Breadcrumb.Session

/-!
# What answers depend on

A question is answered by a walk that comes back, so asking moves nothing. What it finds may
depend on the point, on no more of it than its line, or not on the point at all.

* `Question.scope`: how much of the point the answer to a question may depend on.
* `Question.exists_comesBack`: the answer is the same at all points that are the same to it.
-/

namespace Breadcrumb

open Text

/-- How much of the point the answer to a question may depend on. -/
inductive Scope where
  | point
  | line
  | document
  deriving DecidableEq, Repr

/-- Two points that are the same to a question of that scope. -/
def Scope.Same : Scope → Point → Point → Prop
  | point, p, p' => p = p'
  | line, p, p' => p.line = p'.line
  | document, _, _ => True

theorem Scope.same_refl (scope : Scope) (p : Point) : scope.Same p p := by
  cases scope
  · exact rfl
  · exact rfl
  · exact trivial

namespace Question

def scope : Question → Scope
  | atStart | atLineStart | atLineEnd | inComment | restOfLine | token | looksAt _ => .point
  | lineNumber | indentation | role | isStructural | trail | keys | path | subscript => .line
  | tagOf _ | previousStructural _ | parent .. | ancestors .. | locate _ | isLive => .document

variable {cursor : Cursor} (settings : Settings)

/-- What a walk brings back makes an answer. -/
theorem ok_comesBack {α : Type} {kind : Point → Prop} {walk : Walk α} {found : α}
    (answer : α → Answer) (h : walk.ComesBack cursor kind found) :
    (do return .ok (answer (← walk)) : Walk (Except Failure Answer)).ComesBack cursor kind
      (.ok (answer found)) :=
  h.map _

/-- A walk about the line with a number is made only if there is one. -/
theorem onLine_comesBack {α : Type} {kind : Point → Prop} {walk : Nat → Walk α} {found : Nat → α}
    (h : ∀ i < cursor.document.lines.size, (walk i).ComesBack cursor kind (found i))
    (answer : α → Answer) (number : Nat) :
    (onLine number fun i => return answer (← walk i)).ComesBack cursor kind
      ((cursor.document.index? number).map (answer ∘ found)) := by
  cases hi : cursor.document.index? number with
  | error failure =>
    refine .inl fun point _ => ?_
    rw [onLine, Walk.bind_eq Walk.get_eq]
    simp only [Cursor.place, hi]
    rfl
  | ok i =>
    have hwalk := h i (cursor.document.index?_eq_ok.1 hi).2
    refine ((hwalk.map answer).map Except.ok).congr fun point _ => ?_
    rw [onLine, Walk.bind_eq Walk.get_eq]
    simp only [Cursor.place, hi]

/-- What is asked about the line of the point has one answer at all its offsets. -/
theorem exists_comesBack_of_line (hi : cursor.point.line < cursor.document.lines.size)
    {question : Question} (hscope : question.scope = .line) : ∃ answer,
      (question.walk settings).ComesBack cursor (fun point => cursor.point.line = point.line)
        answer := by
  obtain ⟨line, hline⟩ := cursor.document.exists_line?_iff.2 hi
  cases question <;> cases hscope
  case lineNumber =>
    refine ⟨.ok (.number (cursor.point.line + 1)), .inl fun point hpoint => ?_⟩
    rw [hpoint]
    rfl
  case indentation =>
    exact ⟨_, ok_comesBack (.number ∘ UInt64.toNat) (Walk.look_indentation_comesBack hi)⟩
  case role =>
    have hrole : Walk.role.ComesBack cursor (fun point => cursor.point.line = point.line)
        line.role := by
      refine .inl fun point hpoint => Walk.role_eq ?_
      rw [Cursor.line?, Cursor.place, ← hpoint]
      exact hline
    exact ⟨_, ok_comesBack .role hrole⟩
  case isStructural => exact ⟨_, ok_comesBack _ (Walk.isStructural_comesBack hi)⟩
  case trail => exact ⟨_, ok_comesBack (.ofOption .trail) (Walk.trail_comesBack hi)⟩
  case keys => exact ⟨_, ok_comesBack (.ofOption .texts) (Walk.keys_comesBack hi)⟩
  case path => exact ⟨_, ok_comesBack (.ofOption .text) (Walk.path_comesBack hi settings)⟩
  case subscript =>
    exact ⟨_, ok_comesBack (.ofOption .text) (Walk.subscript_comesBack hi settings.mark)⟩

/-- What is asked about the document has one answer at all points, on the text or off it. -/
theorem exists_comesBack_of_document {question : Question} (hscope : question.scope = .document)
    (kind : Point → Prop) :
    ∃ answer, (question.walk settings).ComesBack cursor kind answer := by
  cases question <;> cases hscope
  case tagOf number =>
    exact ⟨_, onLine_comesBack (fun i hi => Walk.tag_comesBack hi kind) .text number⟩
  case previousStructural number =>
    exact ⟨_, onLine_comesBack (fun i hi => Walk.previousStructural_comesBack hi kind)
      (.ofOption (.number ∘ (· + 1))) number⟩
  case parent number column =>
    exact ⟨_, onLine_comesBack (fun i hi => Walk.parent_comesBack column hi kind)
      (.ofOption (.number ∘ (· + 1))) number⟩
  case ancestors number column =>
    exact ⟨_, onLine_comesBack (fun i hi => Walk.ancestors_comesBack column hi kind)
      (fun found => .numbers (found.map (· + 1))) number⟩
  case locate wanted =>
    exact ⟨_, ok_comesBack (.numbers ∘ List.map (· + 1))
      (Walk.locate_comesBack settings.separator wanted kind)⟩
  case isLive => exact ⟨.ok (.flag (settings.isLive cursor.document)), .inl fun _ _ => rfl⟩

/-- What is asked about the point itself has an answer at every place. -/
theorem exists_comesBack_of_point (h : cursor.IsPlaced) {question : Question}
    (hscope : question.scope = .point) :
    ∃ answer, (question.walk settings).ComesBack cursor (fun point => cursor.point = point)
      answer := by
  obtain ⟨line, before, rest, h⟩ := h
  have hlook : ∀ {α : Type} {read : Cursor → Option α} {found : α}, read cursor = some found →
      (Walk.look read).ComesBack cursor (fun point => cursor.point = point) found :=
    fun hread => .of_yields (.inl (Walk.look_eq hread))
  cases question <;> cases hscope
  case atStart => exact ⟨.ok (.flag cursor.atStart), .of_yields (.inl rfl)⟩
  case atLineStart => exact ⟨.ok (.flag cursor.atLineStart), .of_yields (.inl rfl)⟩
  case atLineEnd => exact ⟨_, ok_comesBack .flag (hlook h.atLineEnd?_eq)⟩
  case inComment => exact ⟨_, ok_comesBack .flag (hlook (Cursor.inComment?_eq h.line?_eq))⟩
  case restOfLine => exact ⟨_, ok_comesBack (.text ∘ String.ofList) (hlook h.rest?_eq)⟩
  case token =>
    have htoken : (Walk.look Cursor.token?).Yields cursor (Token.leading? rest) :=
      h.token?_eq.imp Walk.look_eq fun hnone => ⟨Walk.look_eq_none hnone.1, hnone.2⟩
    exact ⟨_, ok_comesBack (.ofOption (.text ∘ String.ofList)) (.of_yields htoken)⟩
  case looksAt literal => exact ⟨_, ok_comesBack .flag (hlook (h.looksAt?_eq literal.toList))⟩

/-- **An answer depends on no more of the point than its scope**, and asking moves nothing. -/
theorem exists_comesBack (h : cursor.IsPlaced) (question : Question) :
    ∃ answer, (question.walk settings).ComesBack cursor (question.scope.Same cursor.point)
      answer := by
  cases hscope : question.scope with
  | point => exact exists_comesBack_of_point settings h hscope
  | line => exact exists_comesBack_of_line settings h.line_lt hscope
  | document => exact exists_comesBack_of_document settings hscope _

end Question

end Breadcrumb
