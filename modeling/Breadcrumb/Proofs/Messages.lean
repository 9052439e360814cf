import Breadcrumb.CommandLine.Run

/-!
# Messages

A message says that there is no element just if nothing was found. So the messages tell the
empty answers apart from all other refusals, unless a host reports a failure in words of its
own.

* `Outcome.refused`, `errorLine_eq`: how a refusal is told.
* `Refusal.isQuietable`: the refusals for want of an answer.
* `Refusal.prefix_message_iff`: how their messages start, and no others.
-/

namespace Breadcrumb

/-- The text starts, and not as the word `no` does. -/
def startsOtherwise (text : String) : Bool := text.toList.head?.any (· != 'n')

theorem startsOtherwise_append {text : String} (h : startsOtherwise text = true) (more : String) :
    startsOtherwise (text ++ more) = true := by
  rw [startsOtherwise, Option.any_eq_true] at h ⊢
  obtain ⟨c, hhead, hc⟩ := h
  exact ⟨c, by rw [String.toList_append, List.head?_append, hhead, Option.some_or], hc⟩

theorem SystemError.startsOtherwise_message (error : SystemError) :
    startsOtherwise error.message = true := by
  have hdescriptions : ∀ entry ∈ descriptions, startsOtherwise entry.2 = true := by
    decide +kernel
  refine startsOtherwise_append (startsOtherwise_append (startsOtherwise_append ?_ _) _) _
  cases hlookup : descriptions.lookup error.code with
  | none => exact startsOtherwise_append (by decide) _
  | some description =>
    obtain ⟨before, rest, hsplit, -⟩ := List.lookup_eq_some_iff.1 hlookup
    exact hdescriptions (error.code, description) (by simp [hsplit])

theorem Failure.startsOtherwise_message {failure : Failure}
    (h : ∀ subject text, failure ≠ .reported subject text) :
    startsOtherwise failure.message = true := by
  cases failure with
  | notOpened name cause =>
    refine startsOtherwise_append (startsOtherwise_append (startsOtherwise_append ?_ _) _) _
    decide
  | nulInName name =>
    refine startsOtherwise_append (startsOtherwise_append ?_ _) _
    decide
  | notRead cause => exact cause.startsOtherwise_message
  | lineOutOfRange number count =>
    refine startsOtherwise_append (startsOtherwise_append (startsOtherwise_append
      (startsOtherwise_append ?_ _) _) _) _
    decide
  | reported subject text => exact absurd rfl (h subject text)
  | notUnicode | emptySeparator | zeroTabWidth => decide

theorem SpecificationError.startsOtherwise_message (error : SpecificationError) :
    startsOtherwise error.message = true := by
  cases error with
  | component specification =>
    refine startsOtherwise_append (startsOtherwise_append ?_ _) _
    decide
  | level name specification =>
    refine startsOtherwise_append (startsOtherwise_append (startsOtherwise_append
      (startsOtherwise_append ?_ _) _) _) _
    decide

namespace CommandLine

/-! ## Refused runs -/

/-- How the line starts that tells of a refusal. -/
def errorLabel (colors : Bool) : String := if colors then "\x1b[91mError\x1b[0m: " else "Error: "

theorem errorLine_eq (colors : Bool) (refusal : Refusal) :
    errorLine colors refusal = errorLabel colors ++ refusal.message ++ "\n" := by
  have hlabel : Style.red.applyIf colors "Error" ++ ": " = errorLabel colors := by
    cases colors <;> decide +kernel
  rw [errorLine, hlabel]

/-- What a run comes to that is refused: after its log it tells why, and it has printed nothing. -/
def Outcome.refused (log : String) (colors : Bool) (message : String) : Outcome :=
  ⟨127, "", log ++ errorLabel colors ++ message ++ "\n"⟩

theorem Outcome.refused_eq (log : String) (colors : Bool) (refusal : Refusal) :
    ⟨127, "", log ++ errorLine colors refusal⟩ = refused log colors refusal.message := by
  rw [refused, errorLine_eq]
  simp only [String.append_assoc]

/-! ## What was refused -/

namespace Refusal

/-- A quiet run does not tell that nothing was found. -/
def isQuietable : Refusal → Bool
  | nothingAtLine _ | nothingAtPath _ => true
  | _ => false

/-- A host says in its own words why it fails. -/
def isReported : Refusal → Bool
  | failure (.reported _ _) => true
  | _ => false

/-- How it is said that nothing was found. -/
def nothing : List Char := "no YAML element".toList

theorem nothing_prefix_append {text : String} (h : nothing <+: text.toList) (more : String) :
    nothing <+: (text ++ more).toList := by
  have happend : (text ++ more).toList = text.toList ++ more.toList := String.toList_append
  exact happend ▸ h.trans (List.prefix_append _ _)

theorem startsOtherwise_message {refusal : Refusal} (h : refusal.isQuietable = false)
    (hreported : refusal.isReported = false) : startsOtherwise refusal.message = true := by
  cases refusal with
  | failure cause =>
    refine cause.startsOtherwise_message fun subject text h => ?_
    rw [h] at hreported
    cases hreported
  | specification error => exact error.startsOtherwise_message
  | nothingAtLine | nothingAtPath => cases h
  | tooLarge size limit =>
    refine startsOtherwise_append (startsOtherwise_append (startsOtherwise_append
      (startsOtherwise_append ?_ _) _) _) _
    decide
  | colorConflict | missingAction => decide

theorem nothing_prefix_message {refusal : Refusal} (h : refusal.isQuietable = true) :
    nothing <+: refusal.message.toList := by
  have hline : nothing <+: "no YAML element at line ".toList := by decide
  have hpath : nothing <+: "no YAML element at path '".toList := by decide
  cases refusal with
  | nothingAtLine number => exact nothing_prefix_append hline _
  | nothingAtPath path => exact nothing_prefix_append (nothing_prefix_append hpath _) _
  | _ => cases h

/-- **Messages tell empty answers apart.** -/
theorem prefix_message_iff {refusal : Refusal} (hreported : refusal.isReported = false) :
    nothing <+: refusal.message.toList ↔ refusal.isQuietable = true := by
  refine ⟨fun hprefix => ?_, nothing_prefix_message⟩
  cases hquietable : refusal.isQuietable with
  | true => rfl
  | false =>
    have hother := startsOtherwise_message hquietable hreported
    obtain ⟨rest, hrest⟩ := hprefix
    have hnothing : nothing.head? = some 'n' := by decide
    have hhead : refusal.message.toList.head? = some 'n' := by
      rw [← hrest, List.head?_append, hnothing, Option.some_or]
    rw [startsOtherwise, hhead] at hother
    exact absurd hother (by decide)

end Refusal

end CommandLine

end Breadcrumb
