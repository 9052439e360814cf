import Breadcrumb.CommandLine.Arguments

/-!
# The quiet flag in front of a command line

The words of a command line are read one after the other, and an error at any of them ends the
reading. Two readings are compared here: of some words, and of the same words after `-q`. The
second knows from the start that the run is to be quiet and that this was said. Nothing that is
read later depends on that, unless it is said again; but then the first reading ends with the
flag set too.

* `Partial.Hushable`: a step of the reading that goes the same in both.
* `Partial.read_hushes`, `Options.parse_quiet`: so the flag changes nothing but itself.
-/

namespace Breadcrumb.CommandLine

/-- The same options for a quiet run. -/
def Options.hushed (options : Options) : Options := { options with quiet := true }

namespace Partial

/-- What is read so far, had the quiet flag come first. -/
def hushed (p : Partial) : Partial :=
  { p with options := p.options.hushed, given := p.given ++ [.quiet] }

/-- Flags do not wait for a value. -/
def AwaitsOther (p : Partial) : Prop := ∀ value, p.pending ≠ some (.quiet, value)

/-- A step of the reading that goes the same if the quiet flag came first, except that it
may set the flag itself. It never takes the flag back. -/
structure Hushable (step : Partial → Except Usage Partial) : Prop where
  awaitsOther : ∀ {p next : Partial}, p.AwaitsOther → step p = .ok next → next.AwaitsOther
  hushed : ∀ {p next : Partial}, p.AwaitsOther → step p = .ok next →
    next.options.quiet = false → p.options.quiet = false ∧ step p.hushed = .ok next.hushed

theorem bind_eq_ok {α β : Type} {x : Except Usage α} {f : α → Except Usage β} {b : β} :
    x >>= f = .ok b ↔ ∃ a, x = .ok a ∧ f a = .ok b := by
  cases x with
  | error usage =>
    constructor
    · intro h
      cases h
    · rintro ⟨a, ha, -⟩
      cases ha
  | ok a =>
    constructor
    · intro h
      exact ⟨a, rfl, h⟩
    · rintro ⟨_, ha, h⟩
      cases ha
      exact h

namespace Hushable

variable {step more : Partial → Except Usage Partial}

theorem bind (h : Hushable step) (h' : Hushable more) : Hushable fun p => step p >>= more where
  awaitsOther hp hnext := by
    obtain ⟨q, hq, hnext⟩ := bind_eq_ok.1 hnext
    exact h'.awaitsOther (h.awaitsOther hp hq) hnext
  hushed hp hnext hquiet := by
    obtain ⟨q, hq, hnext⟩ := bind_eq_ok.1 hnext
    obtain ⟨hquiet, hmore⟩ := h'.hushed (h.awaitsOther hp hq) hnext hquiet
    obtain ⟨hquiet, hstep⟩ := h.hushed hp hq hquiet
    exact ⟨hquiet, bind_eq_ok.2 ⟨_, hstep, hmore⟩⟩

theorem ok : Hushable .ok where
  awaitsOther hp hnext := by
    cases hnext
    exact hp
  hushed _ hnext hquiet := by
    cases hnext
    exact ⟨hquiet, rfl⟩

theorem error (usage : Usage) : Hushable fun _ => .error usage where
  awaitsOther _ hnext := nomatch hnext
  hushed _ hnext := nomatch hnext

end Hushable

section Switches

variable {switch : Switch}

theorem give_eq_ok {p next : Partial} :
    p.give switch = .ok next ↔
      (switch.repeats = true ∨ switch ∉ p.given) ∧
        { p with given := switch :: p.given } = next := by
  unfold give
  by_cases h : switch ∈ p.given <;> cases switch.repeats <;> simp [h]

theorem hushable_give (hswitch : switch ≠ .quiet) : Hushable (give · switch) where
  awaitsOther hp hnext := by
    obtain ⟨-, rfl⟩ := give_eq_ok.1 hnext
    exact hp
  hushed {p _} _ hnext hquiet := by
    obtain ⟨hgiven, rfl⟩ := give_eq_ok.1 hnext
    refine ⟨hquiet, give_eq_ok.2 ⟨hgiven.imp_right fun h => ?_, rfl⟩⟩
    simp [hushed, h, hswitch]

theorem setFlag_hushed (options : Options) :
    switch.setFlag options.hushed = (switch.setFlag options).hushed := by
  cases switch <;> rfl

theorem quiet_of_quiet_setFlag {options : Options} (h : (switch.setFlag options).quiet = false) :
    switch ≠ .quiet ∧ options.quiet = false := by
  cases switch <;> first | exact ⟨nofun, h⟩ | cases h

/-- The quiet flag is out of place in the second reading, but the first ends quiet then. -/
theorem hushable_raise (switch : Switch) : Hushable fun p =>
    p.give switch >>= fun p => .ok { p with options := switch.setFlag p.options } where
  awaitsOther hp hnext := by
    obtain ⟨q, hq, hnext⟩ := bind_eq_ok.1 hnext
    obtain ⟨-, rfl⟩ := give_eq_ok.1 hq
    cases hnext
    exact hp
  hushed hp hnext hquiet := by
    obtain ⟨q, hq, hnext⟩ := bind_eq_ok.1 hnext
    cases hnext
    -- the first reading ends loud, so this is not the quiet flag
    obtain ⟨hswitch, hquiet⟩ := quiet_of_quiet_setFlag hquiet
    obtain ⟨hquiet, hgive⟩ := (hushable_give hswitch).hushed hp hq hquiet
    refine ⟨hquiet, bind_eq_ok.2 ⟨_, hgive, ?_⟩⟩
    rw [hushed, setFlag_hushed]
    rfl

theorem setValue_hushed (options : Options) (value : String) :
    switch.setValue options.hushed value = (switch.setValue options value).map Options.hushed := by
  cases switch
  case tabWidth | maxSize =>
    rw [Switch.setValue, Switch.setValue]
    cases number? value <;> rfl
  all_goals rfl

theorem quiet_setValue {options next : Options} {value : String}
    (h : switch.setValue options value = .ok next) : next.quiet = options.quiet := by
  unfold Switch.setValue at h
  split at h <;> (try split at h) <;> cases h <;> rfl

theorem hushable_setValue (value : String) : Hushable fun p => do
    return { p with options := ← switch.setValue p.options value } where
  awaitsOther hp hnext := by
    obtain ⟨options, -, hnext⟩ := bind_eq_ok.1 hnext
    cases hnext
    exact hp
  hushed {p _} _ hnext hquiet := by
    obtain ⟨options, hoptions, hnext⟩ := bind_eq_ok.1 hnext
    cases hnext
    rw [quiet_setValue hoptions] at hquiet
    have hhushed : switch.setValue p.hushed.options value = .ok options.hushed := by
      rw [hushed, setValue_hushed, hoptions]
      rfl
    exact ⟨hquiet, bind_eq_ok.2 ⟨options.hushed, hhushed, rfl⟩⟩

theorem hushable_supply (hswitch : switch ≠ .quiet) (value : String) :
    Hushable (supply · switch value) :=
  (hushable_give hswitch).bind (hushable_setValue value)

end Switches

/-! ## Words -/

theorem settle_eq_ok {p next : Partial} :
    p.settle = .ok next ↔
      p.pending = none ∧ p = next ∨
        ∃ switch value, p.pending = some (switch, some value) ∧
          { p with pending := none }.supply switch value = .ok next := by
  unfold settle
  split
  case h_1 hpending => simp [hpending]
  case h_2 hpending => simp [hpending]
  case h_3 switch value hpending =>
    constructor
    · intro hnext
      exact .inr ⟨switch, value, hpending, hnext⟩
    · rintro (⟨hnone, -⟩ | ⟨switch', value', hpending', hnext⟩)
      · rw [hpending] at hnone
        cases hnone
      · rw [hpending] at hpending'
        cases hpending'
        exact hnext

theorem awaitsOther_of_pending_eq_none {p : Partial} (h : p.pending = none) : p.AwaitsOther := by
  intro value hvalue
  rw [h] at hvalue
  cases hvalue

theorem hushable_settle : Hushable settle where
  awaitsOther hp hnext := by
    rcases settle_eq_ok.1 hnext with ⟨-, rfl⟩ | ⟨switch, value, hpending, hnext⟩
    · exact hp
    · have hswitch : switch ≠ .quiet := fun h => hp (some value) (h ▸ hpending)
      exact (hushable_supply hswitch value).awaitsOther (awaitsOther_of_pending_eq_none rfl) hnext
  hushed hp hnext hquiet := by
    rcases settle_eq_ok.1 hnext with ⟨hpending, rfl⟩ | ⟨switch, value, hpending, hnext⟩
    · exact ⟨hquiet, settle_eq_ok.2 (.inl ⟨hpending, rfl⟩)⟩
    · have hswitch : switch ≠ .quiet := fun h => hp (some value) (h ▸ hpending)
      obtain ⟨hquiet, hsupply⟩ := (hushable_supply hswitch value).hushed
        (awaitsOther_of_pending_eq_none rfl) hnext hquiet
      exact ⟨hquiet, settle_eq_ok.2 (.inr ⟨switch, value, hpending, hsupply⟩)⟩

theorem hushable_flag (switch : Switch) : Hushable (flag · switch) := by
  have hflag : (flag · switch) = fun p => p.settle >>= fun p =>
      if switch = .help then .error .help
      else p.give switch >>= fun p => .ok { p with options := switch.setFlag p.options } := by
    funext p
    unfold flag
    split <;> rfl
  rw [hflag]
  refine hushable_settle.bind ?_
  by_cases hhelp : switch = .help
  · simp only [if_pos hhelp]
    exact .error .help
  · simp only [if_neg hhelp]
    exact hushable_raise switch

theorem hushable_await (value : String) : Hushable fun p => .ok (p.await value) where
  awaitsOther {p next} hp hnext := by
    cases hnext
    intro value' h
    obtain ⟨⟨switch, old⟩, hpending, heq⟩ := Option.map_eq_some_iff.1 h
    cases heq
    exact hp old hpending
  hushed _ hnext hquiet := by
    cases hnext
    exact ⟨hquiet, rfl⟩

theorem hushable_valued {switch : Switch} (hswitch : switch ≠ .quiet) (value : Option String) :
    Hushable (valued · switch value) := by
  unfold valued
  cases value with
  | some value => exact hushable_settle.bind (hushable_supply hswitch value)
  | none =>
    refine hushable_settle.bind ⟨?_, ?_⟩
    · intro p next _ hnext
      cases hnext
      intro value h
      cases h
      exact hswitch rfl
    · intro p next _ hnext hquiet
      cases hnext
      exact ⟨hquiet, rfl⟩

theorem ne_quiet_of_takesValue {switch : Switch} (h : switch.takesValue = true) :
    switch ≠ .quiet := by
  rintro rfl
  cases h

theorem hushable_long (name : String) (value : Option String) :
    Hushable (long · name value) := by
  unfold long
  cases Switch.longNames.lookup name with
  | none => exact .error .unknownArgument
  | some switch =>
    dsimp only
    by_cases hvalue : switch.takesValue = true
    · simp only [if_pos hvalue]
      exact hushable_valued (ne_quiet_of_takesValue hvalue) value
    · simp only [if_neg hvalue]
      cases value with
      | some value => exact .error .unexpectedValue
      | none => exact hushable_flag switch

theorem hushable_short (letters : List Char) : Hushable (short · letters) := by
  induction letters with
  | nil => exact .ok
  | cons c letters ih =>
    simp only [short]
    cases Switch.letters.lookup c with
    | none => exact .error .unknownArgument
    | some switch =>
      dsimp only
      by_cases hvalue : switch.takesValue = true
      · simp only [if_pos hvalue]
        exact hushable_valued (ne_quiet_of_takesValue hvalue) _
      · simp only [if_neg hvalue]
        exact (hushable_flag switch).bind ih

/-! ## Command lines -/

/-- A reading to the end of the words that changes nothing but the flag if the quiet flag
came first, except that it may set the flag itself. -/
def Hushes (reading : Partial → Except Usage Options) : Prop :=
  ∀ {p : Partial} {options : Options}, p.AwaitsOther → reading p = .ok options →
    options.quiet = false → p.options.quiet = false ∧ reading p.hushed = .ok options.hushed

section Readings

variable {step : Partial → Except Usage Partial} {reading : Partial → Except Usage Options}

theorem Hushable.hushes (hstep : Hushable step) (hreading : Hushes reading) :
    Hushes fun p => step p >>= reading := by
  intro p options hp h hquiet
  obtain ⟨next, hnext, h⟩ := bind_eq_ok.1 h
  obtain ⟨hquiet, hread⟩ := hreading (hstep.awaitsOther hp hnext) h hquiet
  obtain ⟨hquiet, hnext⟩ := hstep.hushed hp hnext hquiet
  exact ⟨hquiet, bind_eq_ok.2 ⟨next.hushed, hnext, hread⟩⟩

theorem hushes_error (usage : Usage) : Hushes fun _ => .error usage := by
  intro p options hp h
  cases h

end Readings

theorem finish_hushes : Hushes finish :=
  hushable_settle.hushes fun _ h hquiet => by
    cases h
    exact ⟨hquiet, rfl⟩

theorem act_hushes (name : String) (words : List String) : Hushes (act · name words) := by
  intro p options hp h hquiet
  unfold act at h ⊢
  cases hverb : Verb.names.lookup name with
  | none =>
    rw [hverb] at h
    cases h
  | some verb =>
    rw [hverb] at h
    obtain ⟨action, haction, h⟩ := bind_eq_ok.1 h
    obtain ⟨read, hread, h⟩ := bind_eq_ok.1 h
    cases h
    obtain ⟨hquiet, hread⟩ := finish_hushes hp hread hquiet
    exact ⟨hquiet, bind_eq_ok.2 ⟨action, haction, bind_eq_ok.2 ⟨_, hread, rfl⟩⟩⟩

/-- **The quiet flag changes nothing but itself** in what is read after it. -/
theorem read_hushes (words : List String) : Hushes (read · words) := by
  -- for all readings so far at once: each word is a step, and the rest is read from there
  induction words with
  | nil => exact finish_hushes
  | cons word words ih =>
    simp only [read]
    cases Word.ofString word with
    | dashes =>
      cases words with
      | nil => exact finish_hushes
      | cons word words => exact hushes_error _
    | long name value => exact (hushable_long name value).hushes ih
    | short letters => exact (hushable_short letters).hushes ih
    | plain text =>
      intro p options hp h hquiet
      have hawait : p.hushed.isAwaiting = p.isAwaiting := rfl
      dsimp only at h ⊢
      rw [hawait]
      by_cases hawaiting : p.isAwaiting = true
      · rw [if_pos hawaiting] at h ⊢
        exact (hushable_await text).hushes ih hp h hquiet
      · rw [if_neg hawaiting] at h ⊢
        exact act_hushes text words hp h hquiet

end Partial

/-- **A run can always be made quiet** by a flag in front of its words. -/
theorem Options.parse_quiet {words : List String} {options : Options}
    (h : Options.parse words = .ok options) (hquiet : options.quiet = false) :
    Options.parse ("-q" :: words) = .ok options.hushed :=
  (Partial.read_hushes words (Partial.awaitsOther_of_pending_eq_none rfl) h hquiet).2

end Breadcrumb.CommandLine
