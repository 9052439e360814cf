import Breadcrumb.Proofs.Locate
import Breadcrumb.Proofs.Run

/-!
# Empty answers

An action is refused in one of two ways: it has no answer to give, or it cannot be carried out.
What is said of the first depends on the document alone.

* `Action.records_perform`: what is recorded before an answer, or instead of one, are details.
* `Action.findsNothing_iff`: an action is refused for want of an answer just if the document
  has none.
* `Action.message_eq`: what is then said of it.
* `Action.output_not_reported`: no refusal is in the words of a host.
-/

namespace Breadcrumb

/-! ## Records -/

/-- The record is of less weight than a warning. -/
def Record.IsDetail (record : Record) : Prop := Level.warn.rank < record.level.rank

namespace Narration

variable {doc : Document}

theorem climb_isDetail {i : Nat} {ancestors : List Nat} :
    ∀ record ∈ climb doc i ancestors, record.IsDetail := by
  induction ancestors generalizing i with
  | nil => simp [climb]
  | cons j ancestors ih =>
    intro record h
    rcases List.mem_cons.1 h with rfl | h
    · show Level.warn.rank < Level.trace.rank
      decide
    · exact ih record h

theorem trail_isDetail {i : Nat} : ∀ record ∈ trail doc i, record.IsDetail := by
  intro record h
  unfold trail at h
  split at h
  · rcases List.mem_append.1 h with h | h
    · exact climb_isDetail record h
    · obtain rfl := List.mem_singleton.1 h
      show Level.warn.rank < Level.debug.rank
      decide
  · cases h

theorem path_isDetail {settings : Settings} {i : Nat} :
    ∀ record ∈ path doc settings i, record.IsDetail := by
  intro record h
  rcases List.mem_append.1 h with h | h
  · exact trail_isDetail record h
  · obtain ⟨path, -, rfl⟩ := Option.map_eq_some_iff.1 (Option.mem_toList.1 h)
    show Level.warn.rank < Level.debug.rank
    decide

end Narration

namespace CommandLine

namespace Action

variable {colors : Bool} {settings : Settings} {doc : Document}

theorem onLine_isDetail {number : Nat} {records : Nat → List Record} {answer : Nat → Option String}
    (h : ∀ i, ∀ record ∈ records i, record.IsDetail) :
    ∀ record ∈ (onLine doc number records answer).records, record.IsDetail := by
  unfold onLine
  cases doc.index? number with
  | error failure => simp
  | ok i => exact h i

/-- **What is recorded are details.** -/
theorem records_perform {action : Action} :
    ∀ record ∈ (action.perform colors settings doc).records, record.IsDetail := by
  have hpaths : ∀ record ∈ Narration.paths doc settings, record.IsDetail := by
    intro record h
    obtain ⟨i, -, h⟩ := List.mem_flatMap.1 h
    exact Narration.path_isDetail record h
  cases action with
  | path number => exact onLine_isDetail fun i => Narration.path_isDetail
  | subscript number | trail number => exact onLine_isDetail fun i => Narration.trail_isDetail
  | paths ending force =>
    rw [perform]
    split
    · exact hpaths
    · split
      · intro record h
        rcases List.mem_cons.1 h with rfl | h
        · show Level.warn.rank < Level.info.rank
          decide
        · exact hpaths record h
      · simp
  | locate wanted =>
    intro record h
    obtain ⟨i, -, h⟩ := List.mem_flatMap.1 h
    exact Narration.trail_isDetail record h

/-! ## Empty answers -/

/-- The line with a number is there, but it has no element. -/
def IsEmptyLine (doc : Document) (number : Nat) : Prop :=
  0 < number ∧ number ≤ doc.lines.size ∧ doc.isStructural (number - 1) = false

/-- The document has no answer to an action. -/
def FindsNothing (settings : Settings) (doc : Document) : Action → Prop
  | path number | subscript number | trail number => IsEmptyLine doc number
  | paths _ _ => False
  | locate wanted => doc.locate settings.separator wanted = []

theorem onLine_findsNothing_iff {number : Nat} {records : Nat → List Record}
    {answer : Nat → Option String} (h : ∀ i, answer i = none ↔ doc.isStructural i = false) :
    IsEmptyLine doc number ↔ ∃ refusal, refusal.isQuietable = true ∧
      (onLine doc number records answer).output = .error refusal := by
  unfold onLine
  cases hindex : doc.index? number with
  | error failure =>
    constructor
    · rintro ⟨hpos, hle, -⟩
      rw [Document.index?, if_pos ⟨hpos, hle⟩] at hindex
      cases hindex
    · rintro ⟨refusal, hquietable, houtput⟩
      cases houtput
      cases hquietable
  | ok i =>
    obtain ⟨rfl, hlt⟩ := doc.index?_eq_ok.1 hindex
    have hempty : IsEmptyLine doc (i + 1) ↔ answer i = none := by
      rw [h i]
      exact ⟨fun ⟨_, _, h⟩ => h, fun h => ⟨Nat.succ_pos i, hlt, h⟩⟩
    rw [hempty]
    dsimp only
    cases answer i with
    | none => exact ⟨fun _ => ⟨_, rfl, rfl⟩, fun _ => rfl⟩
    | some text =>
      constructor
      · intro h
        cases h
      · rintro ⟨refusal, -, houtput⟩
        cases houtput

/-- **An action is refused for want of an answer** just if the document has none. -/
theorem findsNothing_iff (colors : Bool) {action : Action} :
    action.FindsNothing settings doc ↔ ∃ refusal, refusal.isQuietable = true ∧
      (action.perform colors settings doc).output = .error refusal := by
  cases action with
  | path number =>
    refine onLine_findsNothing_iff fun i => ?_
    rw [Option.map_eq_none_iff, Document.path?, Option.map_eq_none_iff, Document.keys?_eq_none_iff]
  | subscript number =>
    refine onLine_findsNothing_iff fun i => ?_
    rw [Option.map_eq_none_iff, Document.subscript?, Option.map_eq_none_iff,
      Document.keys?_eq_none_iff]
  | trail number =>
    refine onLine_findsNothing_iff fun i => ?_
    rw [Option.map_eq_none_iff, Document.trail?_eq_none_iff]
  | paths ending force =>
    rw [FindsNothing, perform, false_iff]
    rintro ⟨refusal, hquietable, houtput⟩
    split at houtput
    · cases houtput
    · split at houtput <;> cases houtput
      cases hquietable
  | locate wanted =>
    rw [FindsNothing, perform]
    cases doc.locate settings.separator wanted with
    | nil => exact ⟨fun _ => ⟨_, rfl, rfl⟩, fun _ => rfl⟩
    | cons i lines =>
      constructor
      · intro h
        cases h
      · rintro ⟨refusal, -, houtput⟩
        cases houtput

/-- Where an action looks for an element, in the words of the command line. A listing looks
everywhere. -/
def place? : Action → Option String
  | path number | subscript number | trail number => some ("line " ++ toString number)
  | paths _ _ => none
  | locate wanted => some ("path '" ++ wanted ++ "'")

theorem message_nothingAtLine (number : Nat) :
    (Refusal.nothingAtLine number).message =
      "no YAML element at " ++ ("line " ++ toString number) := by
  have hat : "no YAML element at line " = "no YAML element at " ++ "line " := by decide +kernel
  exact (congrArg (· ++ toString number) hat).trans String.append_assoc

theorem message_nothingAtPath (wanted : String) :
    (Refusal.nothingAtPath wanted).message =
      "no YAML element at " ++ ("path '" ++ wanted ++ "'") := by
  have hat : "no YAML element at path '" = "no YAML element at " ++ "path '" := by decide +kernel
  rw [← String.append_assoc, ← String.append_assoc]
  exact congrArg (· ++ wanted ++ "'") hat

theorem onLine_refusal_eq {number : Nat} {records : Nat → List Record}
    {answer : Nat → Option String} {refusal : Refusal}
    (h : (onLine doc number records answer).output = .error refusal)
    (hquietable : refusal.isQuietable = true) : refusal = .nothingAtLine number := by
  unfold onLine at h
  cases hindex : doc.index? number with
  | error failure =>
    rw [hindex] at h
    cases h
    cases hquietable
  | ok i =>
    rw [hindex] at h
    dsimp only at h
    cases hanswer : answer i <;> rw [hanswer] at h <;> cases h
    rfl

/-- **What is said of an action that finds nothing** names the place where it looked. -/
theorem message_eq {action : Action} {refusal : Refusal}
    (h : (action.perform colors settings doc).output = .error refusal)
    (hquietable : refusal.isQuietable = true) :
    ∃ place, action.place? = some place ∧ refusal.message = "no YAML element at " ++ place := by
  cases action with
  | path number | subscript number | trail number =>
    obtain rfl := onLine_refusal_eq h hquietable
    exact ⟨_, rfl, message_nothingAtLine number⟩
  | paths ending force =>
    rw [perform] at h
    split at h
    · cases h
    · split at h <;> cases h
      cases hquietable
  | locate wanted =>
    have hrefusal : refusal = .nothingAtPath wanted := by
      rw [perform] at h
      dsimp only at h
      split at h <;> cases h
      rfl
    subst hrefusal
    exact ⟨_, rfl, message_nothingAtPath wanted⟩

theorem onLine_not_reported {number : Nat} {records : Nat → List Record}
    {answer : Nat → Option String} {refusal : Refusal}
    (h : (onLine doc number records answer).output = .error refusal) :
    refusal.isReported = false := by
  unfold onLine at h
  cases hindex : doc.index? number with
  | error failure =>
    rw [hindex] at h
    cases h
    rw [Document.index?] at hindex
    split at hindex <;> cases hindex
    rfl
  | ok i =>
    rw [hindex] at h
    dsimp only at h
    cases hanswer : answer i <;> rw [hanswer] at h <;> cases h
    rfl

/-- Actions do not fail in the words of a host. -/
theorem output_not_reported {action : Action} {refusal : Refusal}
    (h : (action.perform colors settings doc).output = .error refusal) :
    refusal.isReported = false := by
  cases action with
  | path | subscript | trail => exact onLine_not_reported h
  | paths ending force =>
    rw [perform] at h
    split at h
    · cases h
    · split at h <;> cases h
      rfl
  | locate wanted =>
    rw [perform] at h
    dsimp only at h
    split at h <;> cases h
    rfl

end Action

end CommandLine

end Breadcrumb
