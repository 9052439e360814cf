import Breadcrumb.Proofs.Session
import Mathlib.Data.List.Nodup

/-!
# Observers hear of every announcement

Whether an announcement is heard depends on the size of the document alone, so in a session
all of them are or none. An announcement that is heard tells the observers registered by then,
in the order of their registration, of the path at the point. What happens on an excursion is
part of the session like everything else: observers registered there stay, and what is
announced there is heard.

* `Session.events`: the registrations and announcements of a session, in order.
* `step_notices`, `run_notices`: what is told in a step, and so in a run.
* `run_observers`: so an observer hears of all announcements after its registration.
-/

namespace Breadcrumb

/-- What happens in a session as far as it concerns observers. -/
inductive Event where
  | registers
  /-- The path at the point is announced, be it heard or not. -/
  | announces (point : Point)
  deriving DecidableEq, Repr

namespace Event

/-- The point of an announcement. -/
def point? : Event → Option Point
  | registers => none
  | announces point => some point

/-- What is told in the course of events if all announcements are heard, when there are
`count` observers before: each announcement tells those there are by then, the oldest first. -/
def notices (path : Point → Option String) (count : Nat) : List Event → List Notice
  | [] => []
  | registers :: events => notices path (count + 1) events
  | announces point :: events =>
    ((List.range count).map fun observer => ⟨observer, point, path point⟩) ++
      notices path count events

variable (path : Point → Option String)

theorem count_registers_announces {point : Point} {events : List Event} :
    (announces point :: events).count registers = events.count registers :=
  List.count_cons_of_ne fun h => Event.noConfusion h

theorem notices_append (count : Nat) (events more : List Event) :
    notices path count (events ++ more) =
      notices path count events ++ notices path (count + events.count registers) more := by
  induction events generalizing count with
  | nil => rfl
  | cons event events ih =>
    cases event with
    | registers =>
      rw [List.cons_append, notices, notices, ih, List.count_cons_self, Nat.add_assoc,
        Nat.add_comm 1]
    | announces point =>
      rw [List.cons_append, notices, notices, ih, List.append_assoc,
        count_registers_announces]

/-- Observers that are never registered are told nothing. -/
theorem observer_lt_of_mem_notices {count : Nat} {events : List Event} {notice : Notice}
    (h : notice ∈ notices path count events) : notice.observer < count + events.count registers := by
  induction events generalizing count with
  | nil => cases h
  | cons event events ih =>
    cases event with
    | registers =>
      have := ih h
      rw [List.count_cons_self]
      omega
    | announces point =>
      rw [count_registers_announces]
      rcases List.mem_append.1 h with h | h
      · obtain ⟨observer, hobserver, rfl⟩ := List.mem_map.1 h
        have := List.mem_range.1 hobserver
        simp only
        omega
      · exact ih h

/-- **An observer is told of each announcement once**, from when it is registered. -/
theorem filter_notices {observer count : Nat} (h : observer < count) (events : List Event) :
    (notices path count events).filter (fun notice => notice.observer = observer) =
      (events.filterMap point?).map fun point => ⟨observer, point, path point⟩ := by
  induction events generalizing count with
  | nil => rfl
  | cons event events ih =>
    cases event with
    | registers => exact ih (Nat.lt_succ_of_lt h)
    | announces point =>
      have honce : (List.range count).filter (fun k => decide (k = observer)) = [observer] := by
        rw [List.filter_eq, List.count_eq_one_of_mem List.nodup_range (List.mem_range.2 h)]
        rfl
      rw [notices, List.filter_append, ih h, List.filter_map]
      simp only [Function.comp_def, honce]
      rfl

/-- **What one observer is told** is what is announced after its registration. -/
theorem filter_notices_append (earlier later : List Event) :
    (notices path 0 (earlier ++ registers :: later)).filter
        (fun notice => notice.observer = earlier.count registers) =
      (later.filterMap point?).map fun point =>
        ⟨earlier.count registers, point, path point⟩ := by
  have hearlier : ∀ notice ∈ notices path 0 earlier,
      ¬ decide (notice.observer = earlier.count registers) = true := by
    intro notice hmem
    have hlt := observer_lt_of_mem_notices path hmem
    rw [Nat.zero_add] at hlt
    rw [decide_eq_true_eq]
    exact Nat.ne_of_lt hlt
  rw [notices_append, List.filter_append, List.filter_eq_nil_iff.2 hearlier, List.nil_append,
    Nat.zero_add, notices, filter_notices path (Nat.lt_succ_self _)]

end Event

namespace Session

mutual

/-- The events of a step, in order. -/
def eventsOf (s : Session) : Step → List Event
  | .register => [.registers]
  | .announce => [.announces s.cursor.point]
  | .excursion steps => events s steps
  | _ => []

/-- The events of a run, in order. -/
def events (s : Session) : List Step → List Event
  | [] => []
  | first :: steps =>
    eventsOf s first ++ (s.step first).elim [] fun (after, _) => events after steps

end

/-- What observers are told in the course of events: of all announcements, or of none if the
document is too large. -/
def heard (s : Session) (events : List Event) : List Notice :=
  if s.settings.isLive s.cursor.document then
    Event.notices (fun point => s.cursor.document.path? s.settings point.line) s.observers events
  else []

/-- The course of some events: observers are registered and told. -/
structure Follows (s : Session) (events : List Event) (after : Session) (notices : List Notice) :
    Prop where
  observers : after.observers = s.observers + events.count .registers
  notices : notices = s.heard events

section Steps

variable {s after : Session}

theorem follows_nil (s : Session) (cursor : Cursor) :
    s.Follows [] { s with cursor := cursor } [] := by
  refine ⟨rfl, ?_⟩
  unfold heard
  split <;> rfl

/-- The course of events goes on from where earlier ones led. -/
theorem Follows.append {events more : List Event} {mid : Session} {notices rest : List Notice}
    (h : s.Follows events mid notices) (hmid : s.Continues mid)
    (hmore : mid.Follows more after rest) :
    s.Follows (events ++ more) after (notices ++ rest) := by
  obtain ⟨hobservers, rfl⟩ := h
  obtain ⟨hobservers', rfl⟩ := hmore
  refine ⟨?_, ?_⟩
  · rw [hobservers', hobservers, List.count_append, Nat.add_assoc]
  · unfold heard
    rw [hmid.document, hmid.settings, hobservers]
    split
    · rw [Event.notices_append]
    · rfl

mutual

/-- **What is told in a step** is what its events tell. -/
theorem step_notices {s after : Session} {report : Report} (h : s.cursor.IsPlaced) {step : Step}
    (hstep : s.step step = some (after, report)) :
    s.Follows (s.eventsOf step) after report.notices := by
  cases step with
  | goto number =>
    rw [Session.step] at hstep
    split at hstep
    · cases hstep
      exact follows_nil s _
    · cases hstep
      exact follows_nil s _
  | goUp =>
    cases hstep
    exact follows_nil s _
  | backToIndent =>
    obtain ⟨cursor, -, hafter⟩ := Option.map_eq_some_iff.1 hstep
    cases hafter
    exact follows_nil s _
  | moveToColumn column =>
    obtain ⟨cursor, -, hafter⟩ := Option.map_eq_some_iff.1 hstep
    cases hafter
    exact follows_nil s _
  | ask question =>
    obtain ⟨outcome, -, hanswer, -⟩ := exists_answers h question
    obtain ⟨answer, -, hafter⟩ := Option.map_eq_some_iff.1 (hanswer.symm.trans hstep)
    cases hafter
    exact follows_nil s _
  | register =>
    cases hstep
    refine ⟨rfl, ?_⟩
    unfold heard
    split <;> rfl
  | announce =>
    obtain ⟨outcome, -, hpath, -, hannounce⟩ := exists_announce_eq h
    rw [step_announce, hannounce] at hstep
    by_cases hlive : s.settings.isLive s.cursor.document = true
    · rw [if_pos hlive] at hstep
      obtain ⟨path, houtcome, hafter⟩ := Option.map_eq_some_iff.1 hstep
      obtain rfl := hpath path houtcome
      cases hafter
      refine ⟨rfl, ?_⟩
      rw [heard, if_pos hlive, eventsOf, Event.notices, Event.notices, List.append_nil]
      rfl
    · rw [if_neg hlive] at hstep
      cases hstep
      exact ⟨rfl, (if_neg hlive).symm⟩
  | excursion steps =>
    rw [step_excursion_eq h] at hstep
    obtain ⟨⟨inner, reports⟩, hrun, hafter⟩ := Option.map_eq_some_iff.1 hstep
    cases hafter
    exact ⟨(run_notices h hrun).observers, (run_notices h hrun).notices⟩

/-- **What is told in a run** is what its events tell. -/
theorem run_notices {s after : Session} {reports : List Report} (h : s.cursor.IsPlaced)
    {steps : List Step} (hrun : s.run steps = some (after, reports)) :
    s.Follows (s.events steps) after (reports.flatMap Report.notices) := by
  cases steps with
  | nil =>
    cases hrun
    exact follows_nil s _
  | cons first steps =>
    cases hfirst : s.step first with
    | none =>
      rw [run_cons_of_none hfirst] at hrun
      cases hrun
    | some result =>
      have hmid := (step_goesOn h first).continues _ _ hfirst
      rw [run_cons_of_some hfirst] at hrun
      obtain ⟨⟨last, rest⟩, hsteps, hafter⟩ := Option.map_eq_some_iff.1 hrun
      cases hafter
      have htold := (step_notices h hfirst).append hmid (run_notices hmid.isPlaced hsteps)
      rw [events, hfirst]
      exact htold

end

theorem events_cons {first : Step} {mid : Session} {report : Report}
    (h : s.step first = some (mid, report)) (steps : List Step) :
    s.events (first :: steps) = s.eventsOf first ++ mid.events steps := by
  rw [events, h]
  rfl

/-- An announcement that is not held up leaves the session as it is. -/
theorem events_announce (h : s.cursor.IsPlaced) (hfits : ¬ s.cursor.Overflows)
    (steps : List Step) :
    s.events (.announce :: steps) = .announces s.cursor.point :: s.events steps := by
  have hstep : s.step .announce = some (s, _) := (step_announce s).trans (announce_eq h hfits)
  exact events_cons hstep steps

end Steps

/-! ## Runs from the top of a document -/

/-- **Observers hear of every announcement** after their registration, or of none. Wherever
steps from the top of a document have led: an announcement answers whether the document is
within the size limit and moves nothing. If it is, the observers registered by then are told,
the oldest first, of the point and of the path that is answered there, which only lines of the
structure have; and if not, nobody is told. Steps of an excursion are steps like any others.
So over the whole run an observer is told of each announcement after its registration, once
and in order. A count may hold up the run, and then it holds up the announcement just if the
document is within the limit and it holds up the answer that would be told. -/
theorem run_observers (settings : Settings) (doc : Document) (arithmetic : Arithmetic)
    (steps : List Step) :
    let session := opened settings doc .start arithmetic
    let events := session.events steps
    (session.run steps = none → session.Overflows) ∧
    ∀ s reports, session.run steps = some (s, reports) →
      s.observers = events.count .registers ∧
      (∃ outcome : Option (Option String), (outcome = none → s.cursor.Overflows) ∧
        (∀ path, outcome = some path → path.isSome = doc.isStructural s.cursor.point.line) ∧
        s.Answers .path (outcome.map fun path => .ok (.ofOption .text path)) ∧
        s.step .announce = if doc.size ≤ settings.sizeLimit then
            outcome.map fun path => (s, .single (.ok (.flag true)) s.cursor.point
              ((List.range s.observers).map fun observer => ⟨observer, s.cursor.point, path⟩))
          else some (s, .single (.ok (.flag false)) s.cursor.point [])) ∧
      (∀ inner, (s.run inner = none → session.Overflows) ∧
        session.run (steps ++ inner) =
          (s.run inner).map (fun (after, inside) => (after, reports ++ inside)) ∧
        s.step (.excursion inner) = (s.run inner).map fun (after, inside) =>
          ({ after with cursor := s.cursor },
            .excursion inside s.cursor.point (inside.flatMap Report.notices))) ∧
      reports.flatMap Report.notices =
        (if doc.size ≤ settings.sizeLimit then
          Event.notices (fun point => doc.path? settings point.line) 0 events else []) ∧
      ∀ earlier later, events = earlier ++ .registers :: later →
        let observer := earlier.count .registers
        (reports.flatMap Report.notices).filter (fun notice => notice.observer = observer) =
          if doc.size ≤ settings.sizeLimit then
            (later.filterMap Event.point?).map fun point =>
              ⟨observer, point, doc.path? settings point.line⟩
          else [] := by
  intro session events
  have hstart : session.cursor.IsPlaced := isPlaced_start settings doc arithmetic
  have hresult := run_goesOn hstart steps
  refine ⟨hresult.overflows, fun s reports hrun => ?_⟩
  have hs : session.Continues s := hresult.continues s reports hrun
  obtain ⟨hobservers, hnotices⟩ := run_notices hstart hrun
  have hdoc : s.cursor.document = doc := hs.document
  have hsettings : s.settings = settings := hs.settings
  have hobservers : s.observers = events.count .registers := hobservers.trans (Nat.zero_add _)
  have hlive : ∀ {Result : Type} (told untold : Result),
      (if settings.isLive doc then told else untold) =
        if doc.size ≤ settings.sizeLimit then told else untold := by
    intro Result told untold
    simp only [Settings.isLive, decide_eq_true_eq]
  have hnotices : reports.flatMap Report.notices = if doc.size ≤ settings.sizeLimit then
      Event.notices (fun point => doc.path? settings point.line) 0 events else [] :=
    hnotices.trans (hlive _ _)
  refine ⟨hobservers, ?_, fun inner => ⟨fun hnone => ?_, run_append hrun,
    step_excursion_eq hs.isPlaced inner⟩, hnotices, fun earlier later hevents => ?_⟩
  · obtain ⟨outcome, hover, hpath, hanswer, hannounce⟩ := exists_announce_eq hs.isPlaced
    rw [hdoc, hsettings] at hpath
    rw [← step_announce, hdoc, hsettings, hlive] at hannounce
    refine ⟨outcome, hover, fun path houtcome => ?_, hanswer, hannounce⟩
    rw [hpath path houtcome, Bool.eq_iff_iff, Option.isSome_iff_exists, Document.exists_path?_iff]
  · exact hs.overflows ((run_goesOn hs.isPlaced inner).overflows hnone)
  · intro observer
    rw [hnotices]
    split
    · rw [hevents, Event.filter_notices_append]
    · rfl

/-- Two observers, the second one registered on an excursion, and a line without a path. -/
theorem run_observers_excursion :
    let doc := Document.ofText "a:\n\n  b: 1\n".toList 8
    let steps : List Step := [.announce, .register, .goto 2, .announce, .excursion [.register],
      .goto 3, .announce]
    let earlier : List Event := [.announces ⟨0, 0⟩]
    let later : List Event := [.announces ⟨1, 0⟩, .registers, .announces ⟨2, 0⟩]
    ∃ s reports, (opened {} doc .start .checked).run steps = some (s, reports) ∧
      (opened {} doc .start .checked).events steps = earlier ++ .registers :: later ∧
      (reports.flatMap Report.notices).filter (fun notice => notice.observer = 0) =
        [⟨0, ⟨1, 0⟩, none⟩, ⟨0, ⟨2, 0⟩, some "a.b"⟩] := by
  intro doc steps earlier later
  have hgoto : ∀ (s : Session) (i : Nat), s.cursor.document = doc → i < 3 →
      s.step (.goto (i + 1)) = some (s.answered (s.cursor.goto i) (.ok .nothing)) ∧
        (s.cursor.goto i).IsPlaced := by
    intro s i hdoc hi
    have hsize : i < s.cursor.document.lines.size := by
      rw [hdoc]
      exact hi
    obtain ⟨line, hline⟩ := s.cursor.document.exists_line?_iff.2 hsize
    exact ⟨step_goto_of_ok (Document.index?_eq_ok _ |>.2 ⟨rfl, hsize⟩),
      (Cursor.standsIn_goto hline).isPlaced⟩
  have hfits : ¬ (opened {} doc .start .checked).Overflows := by decide
  have hevents : (opened {} doc .start .checked).events steps = earlier ++ .registers :: later := by
    have hcursor : ∀ point, ¬ (Cursor.mk doc point .checked).Overflows :=
      fun _ hover => hfits (.of_cursor hover)
    let s₁ : Session := { opened {} doc .start .checked with observers := 1 }
    let s₂ : Session := { s₁ with cursor := s₁.cursor.goto 1 }
    let s₃ : Session := { s₂ with observers := 2 }
    obtain ⟨hstep₂, hplaced₂⟩ := hgoto s₁ 1 rfl (by decide)
    obtain ⟨hstep₄, hplaced₄⟩ := hgoto s₃ 2 rfl (by decide)
    have hregister : s₂.run [.register] = some (s₃, [.single (.ok (.number 1)) ⟨1, 0⟩ []]) :=
      run_cons (step_register s₂) rfl
    have hexcursion : s₂.step (.excursion [.register]) = some (s₃, _) :=
      step_excursion hregister ⟨hplaced₂, rfl, rfl, rfl⟩
    have h₃ : s₃.events [.goto 3, .announce] = [.announces ⟨2, 0⟩] :=
      (events_cons hstep₄ _).trans (events_announce hplaced₄ (hcursor _) [])
    have h₂ : s₂.events [.announce, .excursion [.register], .goto 3, .announce] = later :=
      (events_announce hplaced₂ (hcursor _) _).trans (congrArg (Event.announces ⟨1, 0⟩ :: ·)
        ((events_cons hexcursion _).trans (congrArg (Event.registers :: ·) h₃)))
    exact (events_announce (isPlaced_start {} doc .checked) (hcursor _) _).trans
      (congrArg (Event.announces ⟨0, 0⟩ :: ·) ((events_cons (step_register _) _).trans
        (congrArg (Event.registers :: ·) ((events_cons hstep₂ _).trans h₂))))
  obtain ⟨hover, hheard⟩ := run_observers {} doc .checked steps
  cases hrun : (opened {} doc .start .checked).run steps with
  | none => exact absurd (hover hrun) hfits
  | some result =>
    obtain ⟨-, -, -, -, hobserver⟩ := hheard _ _ hrun
    refine ⟨_, _, rfl, hevents, (hobserver earlier later hevents).trans ?_⟩
    decide +kernel

end Session

end Breadcrumb
