import Breadcrumb.Proofs.Questions

/-!
# Sessions stay on the text

A session that starts at the top of a document never leaves it: every step leads from
a place to a place. So no step reads off the text, and each one comes back, unless a count
holds it up. Questions leave the session as it is, and their answers tell nothing of its past.

* `step_goesOn`, `run_goesOn`: a step, and so a run, leads from a place to a place.
* `run_isPlaced`: wherever a session gets, its point is a place and everything can be read.
* `run_questions_still`: questions move nothing, and answers do not depend on the past.
-/

namespace Breadcrumb

open Text

namespace Session

/-! ## Steps -/

/-- The session counts in checked words, and there are none for the columns of some line, or for
the brackets that it opens. -/
def Overflows (s : Session) : Prop :=
  s.cursor.arithmetic = .checked ∧
    ¬ (s.cursor.document.LinesFit ∧ s.cursor.document.BracketsFit)

instance (s : Session) : Decidable s.Overflows := inferInstanceAs (Decidable (_ ∧ ¬ (_ ∧ _)))

/-- A session that goes on from another one: on the same document, at a place. -/
structure Continues (s after : Session) : Prop where
  isPlaced : after.cursor.IsPlaced
  document : after.cursor.document = s.cursor.document
  arithmetic : after.cursor.arithmetic = s.cursor.arithmetic
  settings : after.settings = s.settings

/-- What comes of a session is a session that goes on from it, or else a count holds it up. -/
structure GoesOn {Told : Type} (s : Session) (result : Option (Session × Told)) : Prop where
  overflows : result = none → s.Overflows
  continues : ∀ after told, result = some (after, told) → s.Continues after

/-- What the session comes to when a question is asked: it answers and stays as it is, or there is
no answer. -/
def Answers (s : Session) (question : Question) (outcome : Option (Except Failure Answer)) : Prop :=
  s.step (.ask question) = outcome.map fun answer => (s, .single answer s.cursor.point [])

section Steps

variable {s : Session}

/-- What holds up a cursor holds up its session. -/
theorem Overflows.of_cursor (h : s.cursor.Overflows) : s.Overflows :=
  ⟨h.1, fun hfits => h.2 ⟨.of_lines hfits.1, hfits.2⟩⟩

theorem Continues.trans {t u : Session} (hst : s.Continues t) (htu : t.Continues u) :
    s.Continues u :=
  ⟨htu.isPlaced, htu.document.trans hst.document, htu.arithmetic.trans hst.arithmetic,
    htu.settings.trans hst.settings⟩

theorem Continues.overflows {after : Session} (h : s.Continues after) (hover : after.Overflows) :
    s.Overflows := by
  rw [Overflows, h.document, h.arithmetic] at hover
  exact hover

theorem GoesOn.of_some {Told : Type} {after : Session} {told : Told} (h : s.Continues after) :
    s.GoesOn (some (after, told)) :=
  ⟨nofun, fun _ _ heq => by
    cases heq
    exact h⟩

theorem GoesOn.of_none {Told : Type} (h : s.Overflows) :
    s.GoesOn (none : Option (Session × Told)) :=
  ⟨fun _ => h, nofun⟩

theorem answers_of_walk {question : Question} {answer : Except Failure Answer}
    (h : question.walk s.settings s.cursor = some (answer, s.cursor)) :
    s.Answers question (some answer) := by
  rw [Answers, step, ask, h]
  rfl

theorem answers_none_of_walk {question : Question}
    (h : question.walk s.settings s.cursor = none) : s.Answers question none := by
  rw [Answers, step, ask, h]
  rfl

/-- Asked at a place, a question has an answer, the same as at points that are the same to it;
or it is held up there as it is here. -/
theorem exists_answers (h : s.cursor.IsPlaced) (question : Question) :
    ∃ outcome, (outcome = none → s.cursor.Overflows) ∧ s.Answers question outcome ∧
      ∀ point, question.scope.Same s.cursor.point point →
        (opened s.settings s.cursor.document point s.cursor.arithmetic).Answers question
          outcome := by
  obtain ⟨answer, hall | ⟨hnone, hover⟩⟩ := question.exists_comesBack s.settings h
  · exact ⟨some answer, nofun, answers_of_walk (hall _ (question.scope.same_refl _)),
      fun point hsame => answers_of_walk (hall point hsame)⟩
  · exact ⟨none, fun _ => hover, answers_none_of_walk (hnone _ (question.scope.same_refl _)),
      fun point hsame => answers_none_of_walk (hnone point hsame)⟩

/-- **Observers are told of the path that is answered at the point**, and nothing else happens. If
the answer is held up, so is the announcement, unless the document is too large to be told of. -/
theorem exists_announce_eq (h : s.cursor.IsPlaced) :
    ∃ outcome : Option (Option String), (outcome = none → s.cursor.Overflows) ∧
      (∀ path, outcome = some path →
        path = s.cursor.document.path? s.settings s.cursor.point.line) ∧
      s.Answers .path (outcome.map fun path => .ok (.ofOption .text path)) ∧
      s.announce = if s.settings.isLive s.cursor.document then
          outcome.map fun path => (s, .single (.ok (.flag true)) s.cursor.point
            ((List.range s.observers).map fun observer => ⟨observer, s.cursor.point, path⟩))
        else some (s, .single (.ok (.flag false)) s.cursor.point []) := by
  have hpath := (Walk.path_comesBack h.line_lt s.settings).yields rfl
  rw [announce]
  rcases hpath with hpath | ⟨hnone, hover⟩
  · refine ⟨some _, nofun, fun path heq => (Option.some.inj heq).symm, answers_of_walk ?_, ?_⟩
    · exact (Walk.bind_eq hpath).trans rfl
    · rw [hpath]
      rfl
  · refine ⟨none, fun _ => hover, nofun, answers_none_of_walk (Walk.bind_eq_none hnone), ?_⟩
    rw [hnone]
    rfl

/-- An announcement that is not held up. -/
theorem announce_eq (h : s.cursor.IsPlaced) (hfits : ¬ s.cursor.Overflows) :
    s.announce = some (s, .single (.ok (.flag (s.settings.isLive s.cursor.document)))
      s.cursor.point (if s.settings.isLive s.cursor.document then
        (List.range s.observers).map fun observer => ⟨observer, s.cursor.point,
          s.cursor.document.path? s.settings s.cursor.point.line⟩ else [])) := by
  obtain ⟨outcome, hover, hpath, -, hannounce⟩ := exists_announce_eq h
  cases outcome with
  | none => exact absurd (hover rfl) hfits
  | some path =>
    rw [hannounce, hpath path rfl]
    split
    next hlive =>
      rw [hlive]
      rfl
    next hlive =>
      rw [Bool.not_eq_true] at hlive
      rw [hlive]

/-- **An excursion puts the point back**, wherever its steps led. -/
theorem step_excursion {steps : List Step} {after : Session} {reports : List Report}
    (hrun : s.run steps = some (after, reports)) (hafter : s.Continues after) :
    s.step (.excursion steps) = some ({ after with cursor := s.cursor },
      .excursion reports s.cursor.point (reports.flatMap Report.notices)) := by
  have hcursor : after.cursor.place s.cursor.point = s.cursor := by
    rw [Cursor.place, hafter.document, hafter.arithmetic]
  rw [step, hrun]
  simp only [Option.bind_eq_bind, Option.bind_some, hcursor]
  rfl

theorem step_excursion_of_none {steps : List Step} (hrun : s.run steps = none) :
    s.step (.excursion steps) = none := by
  rw [step, hrun]
  rfl

theorem run_cons {first : Step} {steps : List Step} {t u : Session} {report : Report}
    {reports : List Report} (hstep : s.step first = some (t, report))
    (hrun : t.run steps = some (u, reports)) :
    s.run (first :: steps) = some (u, report :: reports) := by
  rw [run, hstep]
  simp only [Option.bind_eq_bind, Option.bind_some, hrun]
  rfl

/-- What a run comes to is what its later steps come to from where the first one led. -/
theorem run_cons_of_some {first : Step} {t : Session} {report : Report}
    (hstep : s.step first = some (t, report)) (steps : List Step) :
    s.run (first :: steps) = (t.run steps).map fun (u, reports) => (u, report :: reports) := by
  rw [run, hstep]
  simp only [Option.bind_eq_bind, Option.bind_some]
  cases t.run steps <;> rfl

theorem run_cons_of_none {first : Step} (hstep : s.step first = none) (steps : List Step) :
    s.run (first :: steps) = none := by
  rw [run, hstep]
  rfl

/-- A session goes on from where its steps led. So the steps of an excursion lead, on
the way, to where the same steps lead without one. -/
theorem run_append {steps more : List Step} {t : Session} {reports : List Report}
    (h : s.run steps = some (t, reports)) :
    s.run (steps ++ more) = (t.run more).map fun (u, rest) => (u, reports ++ rest) := by
  induction steps generalizing s reports with
  | nil =>
    cases h
    exact Option.map_id'.symm
  | cons first steps ih =>
    rw [run] at h
    obtain ⟨⟨mid, report⟩, hstep, h⟩ := Option.bind_eq_some_iff.1 h
    obtain ⟨⟨_, rest⟩, hrun, h⟩ := Option.bind_eq_some_iff.1 h
    cases h
    rw [List.cons_append, run_cons_of_some hstep, ih hrun]
    cases t.run more <;> rfl

/-- A failed move leaves the session as it is. -/
theorem step_goto_of_error {number : Nat} {failure : Failure}
    (h : s.cursor.document.index? number = .error failure) :
    s.step (.goto number) = some (s, .single (.error failure) s.cursor.point []) := by
  rw [step, Cursor.goto?, h]
  rfl

theorem step_goto_of_ok {number i : Nat} (h : s.cursor.document.index? number = .ok i) :
    s.step (.goto number) = some (s.answered (s.cursor.goto i) (.ok .nothing)) := by
  rw [step, Cursor.goto?, h]
  rfl

theorem step_goUp (s : Session) :
    s.step .goUp = some (s.answered s.cursor.goUp.2 (.ok (.flag s.cursor.goUp.1))) := by
  rw [step]

theorem step_backToIndent {line : Line} (h : s.cursor.line? = some line) :
    s.step .backToIndent =
      some (s.answered (s.cursor.moveTo line.indentSize) (.ok .nothing)) := by
  rw [step, Cursor.backToIndent?_eq h, Option.map_some]

theorem step_moveToColumn (s : Session) (column : UInt64) :
    s.step (.moveToColumn column) = (s.cursor.moveToColumn? column).map fun (reached, cursor) =>
      s.answered cursor (.ok (.number reached.toNat)) := by
  rw [step]

theorem step_announce (s : Session) : s.step .announce = s.announce := by rw [step]

theorem step_register (s : Session) :
    s.step .register = some ({ s with observers := s.observers + 1 },
      .single (.ok (.number s.observers)) s.cursor.point []) := by
  rw [step]

/-- Going up changes nothing but the point. -/
theorem goUp_eq_place (cursor : Cursor) : cursor.goUp.2 = cursor.place cursor.goUp.2.point := by
  unfold Cursor.goUp
  split <;> rfl

/-- A session whose cursor moves to a place of its document goes on. -/
theorem continues_place {point : Point} (h : (s.cursor.place point).IsPlaced) :
    s.Continues { s with cursor := s.cursor.place point } :=
  ⟨h, rfl, rfl, rfl⟩

/-- Sent to a column, a session is held up only if there is no word for a column of the line. -/
theorem step_moveToColumn_goesOn {line : Line} (hline : s.cursor.line? = some line)
    (column : UInt64) : s.GoesOn (s.step (.moveToColumn column)) := by
  obtain ⟨walked, hchars, hmove⟩ := Cursor.exists_moveToColumn?_eq hline column
  rw [step_moveToColumn, hmove]
  split
  next hstops =>
    refine .of_none ⟨hstops.1, fun hfits => ?_⟩
    have hbound := hfits.1 _ (Cursor.mem_texts_of_line? hline)
    rw [hchars] at hbound
    exact absurd (exactColumn_lt_of_append s.cursor.document.tabWidth_pos hbound)
      (Nat.not_lt.2 hstops.2)
  next => exact .of_some (continues_place (Cursor.standsIn_moveTo hline hchars).isPlaced)

end Steps

mutual

/-- **A step leads from a place to a place**, unless a count holds it up. -/
theorem step_goesOn {s : Session} (h : s.cursor.IsPlaced) (step : Step) :
    s.GoesOn (s.step step) := by
  obtain ⟨line, before, rest, hline, -, -⟩ := id h
  have hstays : s.Continues s := ⟨h, rfl, rfl, rfl⟩
  cases step with
  | goto number =>
    cases hi : s.cursor.document.index? number with
    | error failure =>
      rw [step_goto_of_error hi]
      exact .of_some hstays
    | ok i =>
      obtain ⟨target, htarget⟩ :=
        s.cursor.document.exists_line?_iff.2 (s.cursor.document.index?_eq_ok.1 hi).2
      rw [step_goto_of_ok hi]
      exact .of_some (continues_place (Cursor.standsIn_goto htarget).isPlaced)
  | goUp =>
    obtain ⟨above, habove⟩ := Cursor.exists_standsIn_goUp hline
    rw [step_goUp, goUp_eq_place]
    rw [goUp_eq_place] at habove
    exact .of_some (continues_place habove.isPlaced)
  | backToIndent =>
    rw [step_backToIndent hline]
    exact .of_some (continues_place (Cursor.standsIn_indent hline).isPlaced)
  | moveToColumn column => exact step_moveToColumn_goesOn hline column
  | ask question =>
    obtain ⟨outcome, hover, hanswer, -⟩ := exists_answers h question
    rw [hanswer]
    cases outcome with
    | none => exact .of_none (.of_cursor (hover rfl))
    | some answer => exact .of_some hstays
  | register =>
    rw [step_register]
    exact .of_some ⟨h, rfl, rfl, rfl⟩
  | announce =>
    obtain ⟨outcome, hover, -, -, hannounce⟩ := exists_announce_eq h
    rw [step_announce, hannounce]
    split
    · cases outcome with
      | none => exact .of_none (.of_cursor (hover rfl))
      | some path => exact .of_some hstays
    · exact .of_some hstays
  | excursion steps =>
    -- wherever the steps lead, the point goes back to a place of the same document
    have hinner := run_goesOn h steps
    cases hrun : s.run steps with
    | none =>
      rw [step_excursion_of_none hrun]
      exact .of_none (hinner.overflows hrun)
    | some result =>
      have hafter := hinner.continues _ _ hrun
      rw [step_excursion hrun hafter]
      exact .of_some ⟨h, rfl, rfl, hafter.settings⟩

/-- **A run leads from a place to a place**, unless a count holds it up. -/
theorem run_goesOn {s : Session} (h : s.cursor.IsPlaced) (steps : List Step) :
    s.GoesOn (s.run steps) := by
  cases steps with
  | nil =>
    rw [run]
    exact .of_some ⟨h, rfl, rfl, rfl⟩
  | cons first steps =>
    have hfirst := step_goesOn h first
    cases hstep : s.step first with
    | none =>
      rw [run_cons_of_none hstep]
      exact .of_none (hfirst.overflows hstep)
    | some result =>
      have hmid := hfirst.continues _ _ hstep
      have hlater := run_goesOn hmid.isPlaced steps
      rw [run_cons_of_some hstep]
      cases hrun : result.1.run steps with
      | none => exact .of_none (hmid.overflows (hlater.overflows hrun))
      | some last => exact .of_some (hmid.trans (hlater.continues _ _ hrun))

end

/-- An excursion comes to what its steps come to, but for the point. -/
theorem step_excursion_eq {s : Session} (h : s.cursor.IsPlaced) (steps : List Step) :
    s.step (.excursion steps) = (s.run steps).map fun (after, reports) =>
      ({ after with cursor := s.cursor },
        .excursion reports s.cursor.point (reports.flatMap Report.notices)) := by
  cases hrun : s.run steps with
  | none => exact step_excursion_of_none hrun
  | some result => exact step_excursion hrun ((run_goesOn h steps).continues _ _ hrun)

/-! ## Runs from the top of a document -/

theorem isPlaced_start (settings : Settings) (doc : Document) (arithmetic : Arithmetic) :
    (opened settings doc .start arithmetic).cursor.IsPlaced := by
  obtain ⟨line, hline⟩ := doc.exists_line?_iff.2 doc.lines_size_pos
  exact ⟨line, [], line.chars, hline, rfl, rfl⟩

/-- **Sessions stay on the text.** From the top of any document, any steps lead to a point
on a line of the document, at a valid position of that line. All that is read there is read
within the line: what follows the point, the token and the column there, the column of the
indent of any line; and a token is always cut off within its text. Nothing is ever `none` but
a count in checked words, and that only if there is no word for the exact number. So every step
that may come next can be made, unless the session counts so and there are too few words for
some line of its document. The states inside of an excursion are those that its steps lead to
from where it begins. -/
theorem run_isPlaced (settings : Settings) (doc : Document) (arithmetic : Arithmetic)
    (steps : List Step) :
    let session := opened settings doc .start arithmetic
    (session.run steps = none → session.Overflows) ∧
    ∀ s reports, session.run steps = some (s, reports) →
      s.cursor.document = doc ∧ s.cursor.point.line < doc.lines.size ∧
      (∃ line before rest, doc.line? s.cursor.point.line = some line ∧
        s.cursor.point.offset ≤ byteSize line.chars ∧
        String.Pos.Raw.IsValid line.text ⟨s.cursor.point.offset⟩ ∧
        line.chars = before ++ rest ∧ byteSize before = s.cursor.point.offset ∧
        s.cursor.rest? = some rest ∧
        (s.cursor.token? = some (Token.leading? rest) ∨
          s.cursor.token? = none ∧ arithmetic.Stops UInt32.size (rest.countP opensFlow)) ∧
        (∀ literal, s.cursor.looksAt? literal = some (literal.isPrefixOf rest)) ∧
        line.columnAt? arithmetic doc.tabWidth s.cursor.point.offset =
          if arithmetic.Stops UInt64.size (exactColumn doc.tabWidth.toNat 0 before) then none
          else some (columnAfter doc.tabWidth before)) ∧
      (∀ i, doc.indentation? arithmetic i = (doc.line? i).bind fun line =>
        if arithmetic.Stops UInt64.size (exactIndentation doc.tabWidth.toNat line.chars) then none
        else some (line.indentation doc.tabWidth)) ∧
      (∀ c text, isBlank c = true ∨ ∃ token, Token.leading? (c :: text) = some token ∧
        takeBytes? (if Token.endOffset c text = 0 then c.utf8Size
          else Token.endOffset c text) (c :: text) = some token) ∧
      ∀ step, s.step step = none → session.Overflows := by
  intro session
  have hrun := run_goesOn (isPlaced_start settings doc arithmetic) steps
  refine ⟨hrun.overflows, fun s reports heq => ?_⟩
  have hs : session.Continues s := hrun.continues s reports heq
  have hdoc : s.cursor.document = doc := hs.document
  have harithmetic : s.cursor.arithmetic = arithmetic := hs.arithmetic
  obtain ⟨line, before, rest, h⟩ := id hs.isPlaced
  have hline : doc.line? s.cursor.point.line = some line := hdoc ▸ h.line?_eq
  have htoken : s.cursor.token? = Token.read? arithmetic rest := harithmetic ▸ h.token?_eq_read?
  refine ⟨hdoc, doc.exists_line?_iff.1 ⟨line, hline⟩, ⟨line, before, rest, hline, h.offset_le,
    h.isValid, h.chars_eq, h.byteSize_eq, h.rest?_eq, htoken ▸ Token.read?_eq arithmetic rest,
    h.looksAt?_eq, ?_⟩, fun i => ?_, fun c text => ?_, fun step hnone => ?_⟩
  · rw [h.columnAt?_eq, columnAfter?_eq doc.tabWidth_pos]
  · simp only [Document.indentation?_eq, columnAfter?_eq doc.tabWidth_pos]
    rfl
  · cases hc : isBlank c with
    | true => exact Or.inl rfl
    | false =>
      have hcut := Token.leading?_eq_takeBytes? hc text
      refine Or.inr ?_
      rw [← hcut]
      simp [Token.leading?, hc]
  · exact hs.overflows ((step_goesOn hs.isPlaced step).overflows hnone)

/-- A tab behind a character of two bytes, in checked words of which there are enough. -/
theorem run_isPlaced_checked :
    let doc := Document.ofText "a:\n é\tb: 1\n".toList 4
    let session := opened {} doc .start .checked
    ∃ s reports, session.run [.goto 2, .moveToColumn 3] = some (s, reports) ∧
      s.cursor.point.line < doc.lines.size ∧ ∃ t, s.step (.ask .path) = some t := by
  intro doc session
  have hfits : ¬ session.Overflows := by decide
  obtain ⟨hover, hplaced⟩ := run_isPlaced {} doc .checked [.goto 2, .moveToColumn 3]
  cases hrun : session.run [.goto 2, .moveToColumn 3] with
  | none => exact absurd (hover hrun) hfits
  | some result =>
    obtain ⟨-, hline, -, -, -, hnext⟩ := hplaced _ _ hrun
    refine ⟨_, _, rfl, hline, ?_⟩
    cases hstep : result.1.step (.ask .path) with
    | none => exact absurd (hnext _ hstep) hfits
    | some t => exact ⟨t, rfl⟩

/-- **A session may be held up under valid settings**: counting the columns of two tabs, in checked
words. -/
theorem not_forall_run_isSome :
    ¬ ∀ (settings : Settings) (text : List Char) (steps : List Step),
      settings.validate = .ok () →
        ((opened settings (Document.ofText text settings.tabWidth) .start .checked).run
          steps).isSome = true := by
  intro h
  have hsome := h { tabWidth := 9223372036854775808 } "\t\tb: 1".toList [.ask (.tagOf 1)] (by decide)
  exact absurd hsome (by decide)

/-- **Questions move nothing, and answers do not depend on the past.** Wherever steps from
the top of a document have led: a question, or telling the observers, leaves the session as
it is; the answer is that of a new session on the document, at any point that is the same
to the question; a move to a line that does not exist leaves the session as it is; and an
excursion puts the cursor back, whatever its steps. Where a count holds up a question, it does so
in the new session too. -/
theorem run_questions_still (settings : Settings) (doc : Document) (arithmetic : Arithmetic)
    (steps : List Step) :
    let session := opened settings doc .start arithmetic
    (session.run steps = none → session.Overflows) ∧
    ∀ s reports, session.run steps = some (s, reports) →
      s.cursor.document = doc ∧
      (∀ question, ∃ outcome, (outcome = none → s.cursor.Overflows) ∧
        s.Answers question outcome ∧
        ∀ point, question.scope.Same s.cursor.point point →
          (opened settings doc point arithmetic).Answers question outcome) ∧
      (s.step .announce = none ∧ s.cursor.Overflows ∨
        ∃ notices, s.step .announce = some (s,
          .single (.ok (.flag (settings.isLive doc))) s.cursor.point notices)) ∧
      (∀ number failure, doc.index? number = .error failure →
        s.step (.goto number) = some (s, .single (.error failure) s.cursor.point [])) ∧
      ∀ inner, s.step (.excursion inner) = none ∧ session.Overflows ∨
        ∃ after inside notices, s.step (.excursion inner) =
          some (after, .excursion inside s.cursor.point notices) ∧ after.cursor = s.cursor := by
  intro session
  have hrun := run_goesOn (isPlaced_start settings doc arithmetic) steps
  refine ⟨hrun.overflows, fun s reports heq => ?_⟩
  have hs : session.Continues s := hrun.continues s reports heq
  have hdoc : s.cursor.document = doc := hs.document
  have harithmetic : s.cursor.arithmetic = arithmetic := hs.arithmetic
  have hsettings : s.settings = settings := hs.settings
  refine ⟨hdoc, fun question => ?_, ?_, fun number failure hindex => ?_, fun inner => ?_⟩
  · rw [← hdoc, ← hsettings, ← harithmetic]
    exact exists_answers hs.isPlaced question
  · obtain ⟨outcome, hover, -, -, hannounce⟩ := exists_announce_eq hs.isPlaced
    rw [← step_announce, hdoc, hsettings] at hannounce
    cases hlive : settings.isLive doc with
    | false => exact .inr ⟨_, hannounce.trans (if_neg (Bool.eq_false_iff.1 hlive))⟩
    | true =>
      rw [if_pos hlive] at hannounce
      cases outcome with
      | none => exact .inl ⟨hannounce, hover rfl⟩
      | some path => exact .inr ⟨_, hannounce⟩
  · rw [← hdoc] at hindex
    exact step_goto_of_error hindex
  · rw [step_excursion_eq hs.isPlaced]
    cases hinner : s.run inner with
    | none => exact .inl ⟨rfl, hs.overflows ((run_goesOn hs.isPlaced inner).overflows hinner)⟩
    | some result => exact .inr ⟨_, _, _, rfl, rfl⟩

/-- A session in checked words that goes to a line inside of a scalar, to a line that does not
exist, and on an excursion within an excursion. -/
theorem run_questions_still_nested :
    let doc := Document.ofText "a:\n  b: 'x\n\n   # y'\n".toList 4
    let steps : List Step := [.goto 4, .moveToColumn 3, .goto 7,
      .excursion [.goUp, .excursion [.goto 1, .ask .path], .backToIndent]]
    ∃ s reports, (opened {} doc .start .checked).run steps = some (s, reports) ∧
      (Question.trail.scope.Same s.cursor.point ⟨s.cursor.point.line, 0⟩ ∧
        ∃ answer, s.Answers .trail (some answer) ∧
          (opened {} doc ⟨s.cursor.point.line, 0⟩ .checked).Answers .trail (some answer)) ∧
      ((Question.locate "a.b").scope.Same s.cursor.point ⟨2, 5⟩ ∧
        ∃ answer, s.Answers (.locate "a.b") (some answer) ∧
          (opened {} doc ⟨2, 5⟩ .checked).Answers (.locate "a.b") (some answer)) ∧
      doc.index? 7 = .error (.lineOutOfRange 7 4) ∧
        s.step (.goto 7) =
          some (s, .single (.error (.lineOutOfRange 7 4)) s.cursor.point []) := by
  intro doc steps
  have hfits : ¬ (opened {} doc .start .checked).Overflows := by decide
  obtain ⟨hover, hstill⟩ := run_questions_still {} doc .checked steps
  cases hrun : (opened {} doc .start .checked).run steps with
  | none => exact absurd (hover hrun) hfits
  | some result =>
    obtain ⟨s, reports⟩ := result
    obtain ⟨hdoc, hquestions, -, hgoto, -⟩ := hstill s reports hrun
    have hcomes : ∀ question, ∃ answer, s.Answers question (some answer) ∧
        ∀ point, question.scope.Same s.cursor.point point →
          (opened {} doc point .checked).Answers question (some answer) := by
      intro question
      obtain ⟨outcome, hnone, hanswer, hsame⟩ := hquestions question
      cases outcome with
      | none =>
        have hcursor : s.cursor.Overflows := hnone rfl
        rw [Cursor.Overflows, hdoc] at hcursor
        exact absurd hcursor.2 (by decide)
      | some answer => exact ⟨answer, hanswer, hsame⟩
    obtain ⟨answer, hanswer, hsame⟩ := hcomes .trail
    obtain ⟨found, hfound, hsame'⟩ := hcomes (.locate "a.b")
    have hindex : doc.index? 7 = .error (.lineOutOfRange 7 4) := by decide
    exact ⟨s, reports, rfl, ⟨rfl, answer, hanswer, hsame _ rfl⟩,
      ⟨trivial, found, hfound, hsame' _ trivial⟩, hindex, hgoto 7 _ hindex⟩

end Session

end Breadcrumb
