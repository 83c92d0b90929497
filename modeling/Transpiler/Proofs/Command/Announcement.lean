import Transpiler.Command.Run

/-!
Contract: what a failed run announces.

Owns: that no failure has an empty message, so that the general message of an announcement is
never used; and that no class of failure has the status of success.
-/

namespace Transpiler

/-! ### Messages -/

theorem append_ne_empty_of_left {first : String} (nonempty : first ≠ "") (second : String) :
    first ++ second ≠ "" :=
  fun empty => nonempty (String.append_eq_empty_iff.mp empty).1

theorem append_ne_empty_of_right (first : String) {second : String} (nonempty : second ≠ "") :
    first ++ second ≠ "" :=
  fun empty => nonempty (String.append_eq_empty_iff.mp empty).2

theorem EscapeError.message_ne_empty (error : EscapeError) : error.message ≠ "" := by
  cases error with
  | truncated => exact append_ne_empty_of_right _ (by decide)
  | invalidCodePoint => exact append_ne_empty_of_right _ (by decide)
  | namedCharacter => decide
  | byteOutOfRange => exact append_ne_empty_of_right _ (by decide)

theorem LexErrorKind.message_ne_empty (kind : LexErrorKind) : kind.message ≠ "" := by
  cases kind with
  | invalidCharacter => exact append_ne_empty_of_right _ (by decide)
  | unterminatedString => decide
  | nonAsciiBytes => exact append_ne_empty_of_left (by decide) _
  | invalidEscape cause => exact cause.message_ne_empty
  | invalidNumber => exact append_ne_empty_of_right _ (by decide)
  | inconsistentDedent => decide
  | sourceTooLarge => decide

theorem ParseErrorKind.message_ne_empty (kind : ParseErrorKind) : kind.message ≠ "" := by
  cases kind with
  | lexical cause => exact cause.kind.message_ne_empty
  | unexpectedToken found expected =>
      exact append_ne_empty_of_left (append_ne_empty_of_right _ (by decide)) _
  | expectedExpression => exact append_ne_empty_of_left (by decide) _
  | unclosedDelimiter => exact append_ne_empty_of_right _ (by decide)
  | unsupportedSyntax => exact append_ne_empty_of_right _ (by decide)
  | unexpectedIndent => decide
  | expectedIndentedBlock => decide
  | invalidTarget => exact append_ne_empty_of_left (by decide) _
  | invalidAnnotationTarget => exact append_ne_empty_of_right _ (by decide)
  | invalidAugmentedTarget => exact append_ne_empty_of_right _ (by decide)
  | mixedLiterals => decide
  | nestingTooDeep => decide

theorem GenerationError.message_ne_empty (error : GenerationError) : error.message ≠ "" := by
  cases error <;> exact append_ne_empty_of_left (by decide) _

theorem RunError.abortMessage_ne_empty {error : RunError} (hasCause : error ≠ .generation []) :
    error.abortMessage ≠ "" := by
  cases error with
  | unreadable =>
      exact append_ne_empty_of_left (append_ne_empty_of_right _ (by decide)) _
  | unwritable =>
      exact append_ne_empty_of_left (append_ne_empty_of_right _ (by decide)) _
  | unknownFormat => exact append_ne_empty_of_right _ (by decide)
  | source cause => exact cause.kind.message_ne_empty
  | generation errors =>
      cases errors with
      | nil => exact absurd rfl hasCause
      | cons first others => exact first.message_ne_empty

/-! ### Announcements -/

theorem AbortCode.announce_of_ne_empty (code : AbortCode) {message : String}
    (nonempty : message ≠ "") :
    code.announce message = "[Error " ++ code.text ++ "] " ++ message := by
  rw [announce, if_neg fun isEmpty => nonempty (String.isEmpty_iff.mp isEmpty)]

theorem AbortCode.exitStatus_emod_ne_zero (code : AbortCode) :
    (code.exitStatus % 256).toNat ≠ 0 := by
  cases code <;> decide

/-- The run failed: its output is one line with the class and the message of the failure, and
its status is that of the class. -/
structure ProcessResult.Announces (result : ProcessResult) (code : AbortCode) (message : String) :
    Prop where
  status : result.exitStatus = code.exitStatus
  output : result.standardOutput = "[Error " ++ code.text ++ "] " ++ message ++ "\n"

theorem ProcessResult.Announces.systemStatus_ne_zero {result : ProcessResult} {code : AbortCode}
    {message : String} (announces : result.Announces code message) : result.systemStatus ≠ 0 := by
  rw [systemStatus, announces.status]
  exact code.exitStatus_emod_ne_zero

/-- A failed run announces the failure. -/
theorem RunError.announces {error : RunError} (hasCause : error ≠ .generation [])
    (terminal : Terminal) :
    (error.processResult terminal).Announces error.abortCode error.abortMessage where
  status := rfl
  output := by
    rw [processResult, announcement,
      AbortCode.announce_of_ne_empty _ (abortMessage_ne_empty hasCause)]

end Transpiler
