import Breadcrumb.Proofs.Locate
import Breadcrumb.Proofs.Run
import Breadcrumb.Proofs.Session
import Mathlib.Data.List.Basic

/-!
# Listings are complete

All paths of a document are listed by way of a tour. It stops at every line, and whether
anything is announced there is decided by the size of the document alone, so the observer
notes the path of every structural line or of none. With the size limit lifted it notes them
all, as long as the size is a word.

* `Session.announce_goto`, `Session.tour_eq`: what is told at one stop, and on a tour.
* `Document.tour?_eq`: what is noted are all paths, or nothing.
* `CommandLine.Action.output_paths`: so the listing is complete, or refused.
* `CommandLine.Job.answer_paths`: it says what is said of the lines one by one.
-/

namespace Breadcrumb

/-! ## Tours -/

namespace Session

variable {s : Session} (hfits : ¬ s.cursor.Overflows)

/-- What observers are told at the start of the line at `i`. -/
def told (s : Session) (i : Nat) : List Notice :=
  if s.settings.isLive s.cursor.document then
    (List.range s.observers).map fun observer =>
      ⟨observer, ⟨i, 0⟩, s.cursor.document.path? s.settings i⟩
  else []

include hfits

/-- **One stop.** Wherever the cursor comes from, observers are told of the line it goes to. -/
theorem announce_goto {i : Nat} (hi : i < s.cursor.document.lines.size) :
    ∃ report, { s with cursor := s.cursor.goto i }.announce =
        some ({ s with cursor := s.cursor.goto i }, report) ∧
      report.notices = s.told i := by
  obtain ⟨line, hline⟩ := s.cursor.document.exists_line?_iff.2 hi
  have hplaced : (s.cursor.goto i).IsPlaced := (Cursor.standsIn_goto hline).isPlaced
  exact ⟨_, announce_eq (s := { s with cursor := s.cursor.goto i }) hplaced hfits, rfl⟩

/-- **A tour stops at every line** and comes to its end. What is told at a stop does not
depend on the stops before. -/
theorem tour_eq {lines : List Nat} (h : ∀ i ∈ lines, i < s.cursor.document.lines.size) :
    s.tour lines = some (lines.flatMap s.told) := by
  induction lines generalizing s with
  | nil => rfl
  | cons i lines ih =>
    obtain ⟨report, hstop, hnotices⟩ := announce_goto hfits (h i List.mem_cons_self)
    have hrest : { s with cursor := s.cursor.goto i }.tour lines = some (lines.flatMap s.told) :=
      ih hfits fun j hj => h j (List.mem_cons_of_mem i hj)
    rw [tour, hstop]
    simp only [Option.bind_eq_bind, Option.bind_some, hrest, hnotices]
    rfl

end Session

namespace Document

/-- **A tour notes all paths**, or nothing if the document is too large. -/
theorem tour?_eq (doc : Document) (settings : Settings) :
    doc.tour? settings = some (if settings.isLive doc then doc.paths settings else []) := by
  let session := { Session.opened settings doc .start .wrapping with observers := 1 }
  have hfits : ¬ session.cursor.Overflows := fun h => Arithmetic.noConfusion h.1
  have htour : session.tour (List.range doc.lines.size) =
      some ((List.range doc.lines.size).flatMap session.told) :=
    Session.tour_eq hfits fun i hi => List.mem_range.1 hi
  have hnoted : doc.tour? settings =
      some (((List.range doc.lines.size).flatMap session.told).filterMap Notice.entry?) := by
    show (session.tour (List.range doc.lines.size)).bind _ = _
    rw [htour]
    rfl
  rw [hnoted]
  congr 1
  cases hlive : settings.isLive doc with
  | false =>
    have htold : ∀ i, session.told i = [] := fun i => if_neg (Bool.eq_false_iff.1 hlive)
    simp [htold]
  | true =>
    have htold : session.told = fun i => [⟨0, ⟨i, 0⟩, doc.path? settings i⟩] :=
      funext fun i => if_pos hlive
    rw [htold, ← List.map_eq_flatMap, List.filterMap_map]
    rfl

/-- With the limit lifted a tour notes all paths, since sizes are words. -/
theorem tour?_lifted (doc : Document) (settings : Settings) (hsize : doc.size < UInt64.size) :
    doc.tour? settings.lifted = some (doc.paths settings) := by
  have hlive : settings.lifted.isLive doc = true :=
    decide_eq_true (Nat.le_sub_one_of_lt hsize)
  rw [tour?_eq, if_pos hlive]
  rfl

/-! ## All paths -/

variable {doc : Document} {settings : Settings}

theorem mem_paths_iff {number : Nat} {path : String} :
    (number, path) ∈ doc.paths settings ↔
      ∃ i, number = i + 1 ∧ doc.path? settings i = some path := by
  unfold paths
  rw [List.mem_filterMap]
  constructor
  · rintro ⟨i, -, hi⟩
    obtain ⟨found, hfound, heq⟩ := Option.map_eq_some_iff.1 hi
    cases heq
    exact ⟨i, rfl, hfound⟩
  · rintro ⟨i, rfl, hi⟩
    have hlt := lt_size_of_isStructural (exists_path?_iff.1 ⟨path, hi⟩)
    exact ⟨i, List.mem_range.2 hlt, by rw [hi, Option.map_some]⟩

/-- **Every structural line is listed once**, from the top, with its path, and no other line is. -/
theorem map_paths :
    (doc.paths settings).map (Prod.map id some) =
      ((List.range doc.lines.size).filter doc.isStructural).map fun i =>
        (i + 1, doc.path? settings i) := by
  unfold paths
  rw [List.map_filterMap, ← List.filterMap_eq_filter, List.map_filterMap]
  refine List.filterMap_congr fun i _ => ?_
  cases hi : doc.isStructural i with
  | false =>
    have hnone : doc.path? settings i = none := by rw [path?, keys?_eq_none hi, Option.map_none]
    simp [hnone, Option.guard, hi]
  | true =>
    obtain ⟨path, hpath⟩ : ∃ path, doc.path? settings i = some path := exists_path?_iff.2 hi
    simp [hpath, Option.guard, hi]

theorem map_fst_paths :
    (doc.paths settings).map Prod.fst =
      ((List.range doc.lines.size).filter doc.isStructural).map (· + 1) := by
  have hfst := congrArg (List.map Prod.fst) (@map_paths doc settings)
  rw [List.map_map, List.map_map] at hfst
  exact hfst

end Document

/-! ## Runs -/

namespace CommandLine

namespace Action

variable (colors : Bool) {settings : Settings} {doc : Document}

/-- **The listing is complete, or refused.** -/
theorem output_paths (hsize : doc.size < UInt64.size) (ending : Ending) (force : Bool) :
    ((paths ending force).perform colors settings doc).output =
      if doc.size ≤ settings.sizeLimit ∨ force = true then
        .ok (Listing.entries ending (doc.paths settings))
      else .error (.tooLarge doc.size settings.sizeLimit) := by
  rw [perform]
  unfold listing
  by_cases hfits : doc.size ≤ settings.sizeLimit
  · have hlive : settings.isLive doc = true := decide_eq_true hfits
    rw [if_pos hlive, if_pos (Or.inl hfits), doc.tour?_eq, if_pos hlive, Option.getD_some]
  · have hlive : settings.isLive doc ≠ true := fun h => hfits (of_decide_eq_true h)
    rw [if_neg hlive]
    cases force with
    | false => rw [if_neg Bool.false_ne_true, if_neg (by simp [hfits])]
    | true => rw [if_pos rfl, if_pos (Or.inr rfl), doc.tour?_lifted settings hsize, Option.getD_some]

/-- What is listed is what is answered line by line. -/
theorem output_path_iff {number : Nat} {found : String} :
    ((path number).perform colors settings doc).output = .ok (found ++ "\n") ↔
      (number, found) ∈ doc.paths settings := by
  rw [Document.mem_paths_iff]
  rw [perform, onLine]
  cases hindex : doc.index? number with
  | error failure =>
    constructor
    · intro h
      cases h
    · rintro ⟨i, hnumber, hi⟩
      have hlt := Document.lt_size_of_isStructural (Document.exists_path?_iff.1 ⟨found, hi⟩)
      rw [doc.index?_eq_ok.2 ⟨hnumber, hlt⟩] at hindex
      cases hindex
  | ok i =>
    obtain ⟨rfl, hlt⟩ := doc.index?_eq_ok.1 hindex
    cases hi : doc.path? settings i <;> simp [hi]

end Action

namespace Job

variable {job : Job} {doc : Document}

theorem answer_of_ok {text : String}
    (h : (job.action.perform job.options.color job.options.settings doc).output = .ok text) :
    (job.answer doc).exit = 0 ∧ (job.answer doc).stdout = text := by
  rw [answer_eq_of_ok h]
  exact ⟨rfl, rfl⟩

theorem answer_of_error (job : Job) {refusal : Refusal}
    (h : (job.action.perform job.options.color job.options.settings doc).output = .error refusal) :
    (job.answer doc).exit = (if refusal.isQuietable && job.options.quiet then 1 else 127) ∧
      (job.answer doc).stdout = "" := by
  rw [answer_eq_of_error h]
  split <;> exact ⟨rfl, rfl⟩

/-- **What is printed is the output of an action that succeeds.** -/
theorem answer_eq_ok_iff {text : String} :
    (job.answer doc).exit = 0 ∧ (job.answer doc).stdout = text ↔
      (job.action.perform job.options.color job.options.settings doc).output = .ok text := by
  refine ⟨fun ⟨hexit, hstdout⟩ => ?_, answer_of_ok⟩
  cases h : (job.action.perform job.options.color job.options.settings doc).output with
  | ok found => rw [← hstdout, (answer_of_ok h).2]
  | error refusal =>
    rw [(answer_of_error job h).1] at hexit
    split at hexit <;> cases hexit

/-- The job with another size limit and another action. -/
def asking (job : Job) (maxSize : Nat) (action : Action) : Job :=
  { job with options := { job.options with maxSize := maxSize }, action := action }

section Paths

variable {maxSize : Nat} {force : Bool} (hsize : doc.size < UInt64.size) (ending : Ending)

include hsize

theorem answer_paths_of_admitted (h : doc.size ≤ maxSize ∨ force = true) :
    ((job.asking maxSize (.paths ending force)).answer doc).exit = 0 ∧
      ((job.asking maxSize (.paths ending force)).answer doc).stdout =
        Listing.entries ending (doc.paths job.options.settings) :=
  answer_of_ok ((Action.output_paths _ hsize ending force).trans (if_pos h))

theorem answer_paths_of_refused (h : ¬ (doc.size ≤ maxSize ∨ force = true)) :
    ((job.asking maxSize (.paths ending force)).answer doc).exit = 127 ∧
      ((job.asking maxSize (.paths ending force)).answer doc).stdout = "" := by
  obtain ⟨hexit, hstdout⟩ := answer_of_error (job.asking maxSize (.paths ending force))
    ((Action.output_paths _ hsize ending force).trans (if_neg h))
  exact ⟨hexit, hstdout⟩

theorem answer_paths_exit_iff :
    ((job.asking maxSize (.paths ending force)).answer doc).exit = 0 ↔
      doc.size ≤ maxSize ∨ force = true := by
  refine ⟨fun hzero => ?_, fun h => (answer_paths_of_admitted hsize ending h).1⟩
  by_contra h
  rw [(answer_paths_of_refused hsize ending h).1] at hzero
  exact absurd hzero (by decide)

end Paths

/-- **Listings are complete.** A run that lists all paths fails, and prints nothing, just if
the document is over the size limit and it is not forced. Else it prints the paths of all
structural lines, from the top, each of them once, and they are the paths that are printed
for the lines one by one. So all runs that succeed print the same, whatever their limits. -/
theorem answer_paths (doc : Document) (hsize : doc.size < UInt64.size) (job : Job)
    (ending : Ending) :
    let listed := doc.paths job.options.settings
    let outcome := fun maxSize force => (job.asking maxSize (.paths ending force)).answer doc
    (∀ settings, (doc.tour? settings).isSome = true) ∧
    (∀ maxSize force,
      ((outcome maxSize force).exit ≠ 0 ↔ maxSize < doc.size ∧ force = false) ∧
      ((outcome maxSize force).exit ≠ 0 →
        (outcome maxSize force).exit = 127 ∧ (outcome maxSize force).stdout = "") ∧
      ((outcome maxSize force).exit = 0 →
        (outcome maxSize force).stdout = Listing.entries ending listed)) ∧
    listed.map Prod.fst = ((List.range doc.lines.size).filter doc.isStructural).map (· + 1) ∧
    (∀ maxSize number path, (number, path) ∈ listed ↔
      ((job.asking maxSize (.path number)).answer doc).exit = 0 ∧
        ((job.asking maxSize (.path number)).answer doc).stdout = path ++ "\n") ∧
    ∀ maxSize maxSize' force force', (outcome maxSize force).exit = 0 →
      (outcome maxSize' force').exit = 0 →
      (outcome maxSize force).stdout = (outcome maxSize' force').stdout := by
  intro listed outcome
  have hrun : ∀ maxSize force,
      ((outcome maxSize force).exit ≠ 0 ↔ maxSize < doc.size ∧ force = false) ∧
      ((outcome maxSize force).exit ≠ 0 →
        (outcome maxSize force).exit = 127 ∧ (outcome maxSize force).stdout = "") ∧
      ((outcome maxSize force).exit = 0 →
        (outcome maxSize force).stdout = Listing.entries ending listed) := by
    intro maxSize force
    by_cases h : doc.size ≤ maxSize ∨ force = true
    · obtain ⟨hexit, hstdout⟩ : (outcome maxSize force).exit = 0 ∧
          (outcome maxSize force).stdout = Listing.entries ending listed :=
        answer_paths_of_admitted hsize ending h
      refine ⟨⟨fun hne => absurd hexit hne, fun hover => ?_⟩, fun hne => absurd hexit hne,
        fun _ => hstdout⟩
      rcases h with h | h
      · exact absurd hover.1 (Nat.not_lt.2 h)
      · exact absurd h (Bool.eq_false_iff.1 hover.2)
    · have hrefused : (outcome maxSize force).exit = 127 ∧ (outcome maxSize force).stdout = "" :=
        answer_paths_of_refused hsize ending h
      have hne : (outcome maxSize force).exit ≠ 0 := by
        rw [hrefused.1]
        decide
      rw [not_or, Nat.not_le, Bool.not_eq_true] at h
      exact ⟨⟨fun _ => h, fun _ => hne⟩, fun _ => hrefused, fun hexit => absurd hexit hne⟩
  refine ⟨fun settings => by rw [doc.tour?_eq]; rfl, hrun, Document.map_fst_paths, ?_, ?_⟩
  · intro maxSize number path
    have hlisted : listed = doc.paths (job.asking maxSize (.path number)).options.settings := rfl
    rw [answer_eq_ok_iff, hlisted]
    exact (Action.output_path_iff job.options.color).symm
  · intro maxSize maxSize' force force' h h'
    rw [(hrun maxSize force).2.2 h, (hrun maxSize' force').2.2 h']

/-- A document over the limit, with a line of blanks and a comment, listed when forced. -/
theorem answer_paths_forced :
    let doc := Document.ofText "a:\n \t\n  b: 1\n# c\n".toList 8
    let job : Job := ⟨{ separator := "/" }, .locate "a", ⟨none, []⟩, none⟩
    doc.size < UInt64.size ∧
      ((job.asking 2 (.paths .nul true)).answer doc).stdout = "1\x00a\x003\x00a/b\x00" ∧
      ((job.asking 2 (.paths .nul false)).answer doc).exit = 127 := by
  intro doc job
  have hsize : doc.size < UInt64.size := by decide
  obtain ⟨-, hrun, -⟩ := answer_paths doc hsize job .nul
  obtain ⟨hforced, -, hstdout⟩ := hrun 2 true
  obtain ⟨hlimit, hrefused, -⟩ := hrun 2 false
  have hexit : ((job.asking 2 (.paths .nul true)).answer doc).exit = 0 := by
    by_contra hne
    exact absurd (hforced.1 hne).2 (by decide)
  refine ⟨hsize, ?_, (hrefused (hlimit.2 ⟨by decide, rfl⟩)).1⟩
  rw [hstdout hexit]
  decide +kernel

end Job

end CommandLine

end Breadcrumb
