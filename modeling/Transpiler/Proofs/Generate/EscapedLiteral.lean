import Mathlib.Algebra.Group.Nat.Defs
import Transpiler.Generate.Cpp
import Transpiler.Token.Value

/-!
Contract: what a generated string literal denotes.

Owns: the reading of an escaped string literal, character by character, and the exact
set of strings that keep their value. The escape of NUL has a single digit, so it
takes octal digits that follow it in the string; every other string keeps its value,
and two of these never share a literal.
-/

namespace Transpiler

/-! ### The size of a number by its digits -/

namespace Text

private theorem digitValue?_getD_lt {radix : Nat} (positive : 0 < radix) (character : Char) :
    (digitValue? radix character).getD 0 < radix := by
  rw [digitValue?]
  cases found : Option.filter _ _ with
  | none => exact positive
  | some value => exact of_decide_eq_true (Option.filter_eq_some_iff.mp found).2

theorem positionalValue_lt_pow {radix : Nat} (positive : 0 < radix) (digits : List Char) :
    positionalValue radix digits < radix ^ digits.length := by
  -- the digits before bound the value that the others are added to
  suffices more : ∀ value places, value < radix ^ places →
      digits.foldl (fun value digit => value * radix + (digitValue? radix digit).getD 0) value <
        radix ^ (places + digits.length) by
    simpa [positionalValue] using more 0 0 (by simp)
  induction digits with
  | nil => simp
  | cons digit rest inductionHypothesis =>
      intro value places below
      have small := digitValue?_getD_lt positive digit
      have step : value * radix + (digitValue? radix digit).getD 0 < radix ^ (places + 1) :=
        calc value * radix + (digitValue? radix digit).getD 0
          _ < (value + 1) * radix := by rw [Nat.add_mul, Nat.one_mul]; omega
          _ ≤ radix ^ (places + 1) := Nat.mul_le_mul_right radix below
      rw [List.foldl_cons, List.length_cons, Nat.add_comm rest.length, ← Nat.add_assoc]
      exact inductionHypothesis _ _ step

end Text

/-! ### Decoding one character at a time -/

namespace Escape

/-- Characters that belong to the escape before are passed over. -/
private theorem decodeFrom_eq_drop {α : Type} (plain : Char → α)
    (read : Char → List Char → Except EscapeError (Reading α)) (covered : Nat)
    (body : List Char) :
    decodeFrom plain read covered body = decodeFrom plain read 0 (body.drop covered) := by
  induction body generalizing covered with
  | nil => cases covered <;> rfl
  | cons first rest inductionHypothesis =>
      cases covered with
      | zero => rfl
      | succ left =>
          rw [List.drop_succ_cons, ← inductionHypothesis]
          rfl

section

variable {α : Type} {plain : Char → α} {read : Char → List Char → Except EscapeError (Reading α)}

theorem decodeFrom_plain {first : Char} (rest : List Char) (notEscape : first ≠ '\\') :
    decodeFrom plain read 0 (first :: rest) =
      (decodeFrom plain read 0 rest).map (plain first :: ·) := by
  rw [decodeFrom.eq_def]
  simp only [beq_false_of_ne notEscape, Bool.false_eq_true, if_false]
  cases decodeFrom plain read 0 rest <;> rfl

theorem decodeFrom_escape {escape : Char} {following : List Char} {reading : Reading α}
    (found : read escape following = .ok reading) :
    decodeFrom plain read 0 ('\\' :: escape :: following) =
      (decodeFrom plain read 0 (following.drop reading.used)).map (reading.values ++ ·) := by
  rw [decodeFrom]
  simp only [beq_self_eq_true, if_true, found]
  change (decodeFrom plain read (reading.used + 1) (escape :: following) >>= _) = _
  rw [decodeFrom_eq_drop, List.drop_succ_cons]
  cases decodeFrom plain read 0 (following.drop reading.used) <;> rfl

end

theorem decodeString_plain {first : Char} (rest : List Char) (notEscape : first ≠ '\\') :
    decodeString (first :: rest) = (decodeString rest).map (first :: ·) :=
  decodeFrom_plain rest notEscape

theorem decodeString_escape {escape : Char} {following : List Char} {reading : Reading Char}
    (read : readInString escape following = .ok reading) :
    decodeString ('\\' :: escape :: following) =
      (decodeString (following.drop reading.used)).map (reading.values ++ ·) :=
  decodeFrom_escape read

/-- Digits begin no one-letter escape. -/
theorem oneLetter?_of_octal {digit : Char} (octal : Text.isRadixDigit 8 digit = true) :
    oneLetter? digit = none := by
  unfold oneLetter?
  split <;> first | rfl | exact absurd octal (by decide)

theorem length_moreOctalDigits_le (following : List Char) :
    (moreOctalDigits following).length ≤ 2 :=
  Nat.le_trans (List.takeWhile_sublist _).length_le (List.length_take_le 2 following)

/-- The octal digits at the start of a text, up to two, have a value below 64. -/
theorem positionalValue_moreOctalDigits_lt (following : List Char) :
    Text.positionalValue 8 (moreOctalDigits following) < 64 :=
  Nat.lt_of_lt_of_le (Text.positionalValue_lt_pow (by decide) _)
    (Nat.pow_le_pow_right (by decide) (length_moreOctalDigits_le following))

/-- An octal escape: its first digit and up to two more. -/
theorem readInString_octal {digit : Char} {following : List Char}
    (octal : Text.isRadixDigit 8 digit = true)
    (small : Text.positionalValue 8 (digit :: moreOctalDigits following) < 128) :
    readInString digit following =
      .ok ⟨[Char.ofNat (Text.positionalValue 8 (digit :: moreOctalDigits following))],
        (moreOctalDigits following).length⟩ := by
  have valid : (Text.positionalValue 8 (digit :: moreOctalDigits following)).isValidChar :=
    Or.inl (Nat.lt_trans small (by decide))
  simp only [readInString, oneLetter?_of_octal octal, octal, if_true, character, if_pos valid]
  rfl

end Escape

namespace Cpp

open Escape (decodeString moreOctalDigits)

/-! ### The escape of a character -/

/-- The control characters with a three-digit escape. -/
theorem padZeros_octal {number : Nat} (control : number < 32 ∨ number = 127) :
    let digits := Text.padZeros 3 (Text.radixDigits 8 number)
    digits.length = 3 ∧ digits.all (Text.isRadixDigit 8) = true ∧
      Text.positionalValue 8 digits = number := by
  have checked : ∀ number < 128, (number < 32 ∨ number = 127) →
      let digits := Text.padZeros 3 (Text.radixDigits 8 number)
      digits.length = 3 ∧ digits.all (Text.isRadixDigit 8) = true ∧
        Text.positionalValue 8 digits = number := by
    decide +kernel
  exact checked number (by omega) control

/-- The ways a character is escaped, apart from NUL. -/
inductive Escaped (character : Char) : List Char → Prop where
  | plain (notQuote : character ≠ '"') (notEscape : character ≠ '\\')
      (notBreak : character ≠ '\n') : Escaped character [character]
  | short {letter : Char} (stands : Escape.oneLetter? letter = some character)
      (notBreak : letter ≠ '\n') : Escaped character ['\\', letter]
  | octal {first second third : Char} (firstOctal : Text.isRadixDigit 8 first = true)
      (secondOctal : Text.isRadixDigit 8 second = true)
      (thirdOctal : Text.isRadixDigit 8 third = true) (ascii : character.toNat < 128)
      (stands : Text.positionalValue 8 [first, second, third] = character.toNat) :
      Escaped character ['\\', first, second, third]

theorem escaped_escapeCharacter {character : Char} (notNul : character ≠ '\x00') :
    Escaped character (escapeCharacter character) := by
  unfold escapeCharacter
  split
  next isBackslash =>
    obtain rfl := eq_of_beq isBackslash
    exact .short rfl (by decide)
  split
  next isQuote =>
    obtain rfl := eq_of_beq isQuote
    exact .short rfl (by decide)
  split
  next isBreak =>
    obtain rfl := eq_of_beq isBreak
    exact .short rfl (by decide)
  split
  next isReturn =>
    obtain rfl := eq_of_beq isReturn
    exact .short rfl (by decide)
  split
  next isTab =>
    obtain rfl := eq_of_beq isTab
    exact .short rfl (by decide)
  split
  next isNul => exact absurd (eq_of_beq isNul) notNul
  split
  next isControl =>
    have control : character.toNat < 32 ∨ character.toNat = 127 := by simpa using isControl
    obtain ⟨three, octal, value⟩ := padZeros_octal control
    generalize Text.padZeros 3 (Text.radixDigits 8 character.toNat) = digits at three octal value ⊢
    match digits, three with
    | [first, second, third], _ =>
        simp only [List.all_cons, List.all_nil, Bool.and_true, Bool.and_eq_true] at octal
        exact .octal octal.1 octal.2.1 octal.2.2 (by omega) value
  next notBackslash notQuote notBreak _ _ _ _ =>
    exact .plain (by simpa using notQuote) (by simpa using notBackslash) (by simpa using notBreak)

private theorem escapeCharacter_nul : escapeCharacter '\x00' = ['\\', '0'] := rfl

theorem mem_of_octal {digit : Char} (octal : Text.isRadixDigit 8 digit = true) :
    digit ∈ ['0', '1', '2', '3', '4', '5', '6', '7'] := by
  have bounds : 48 ≤ digit.toNat ∧ digit.toNat ≤ 55 := by
    obtain ⟨value, found⟩ := Option.isSome_iff_exists.mp octal
    have ofValue := Text.toNat_of_digitValue? (by decide) found
    omega
  have itself : digit = Char.ofNat digit.toNat := (Char.ofNat_toNat digit).symm
  rw [itself]
  generalize digit.toNat = code at bounds
  have decided : ∀ code < 56, 48 ≤ code →
      Char.ofNat code ∈ ['0', '1', '2', '3', '4', '5', '6', '7'] := by decide
  exact decided code (Nat.lt_succ_of_le bounds.2) bounds.1

private theorem escapeCharacter_of_octal {digit : Char} (octal : Text.isRadixDigit 8 digit = true) :
    escapeCharacter digit = [digit] := by
  have listed : ['0', '1', '2', '3', '4', '5', '6', '7'].all
      (fun digit => escapeCharacter digit == [digit]) = true := by decide
  exact beq_iff_eq.mp (List.all_eq_true.mp listed digit (mem_of_octal octal))

/-- Nothing but an octal digit is written with one in front. -/
private theorem head_escapeCharacter {character : Char}
    (notOctal : Text.isRadixDigit 8 character = false) :
    ∃ head tail, escapeCharacter character = head :: tail ∧ Text.isRadixDigit 8 head = false := by
  by_cases isNul : character = '\x00'
  · subst isNul
    exact ⟨_, _, escapeCharacter_nul, by decide⟩
  · have escaped := escaped_escapeCharacter isNul
    generalize escapeCharacter character = text at escaped
    cases escaped with
    | plain => exact ⟨_, _, rfl, notOctal⟩
    | short | octal => exact ⟨_, _, rfl, by decide⟩

/-! ### The body of a literal -/

/-- The contents of a literal: every character of the text, escaped. -/
def escapedBody (text : List Char) : List Char :=
  text.flatMap escapeCharacter

@[simp] theorem escapedBody_nil : escapedBody [] = [] := rfl

@[simp] theorem escapedBody_cons (first : Char) (rest : List Char) :
    escapedBody (first :: rest) = escapeCharacter first ++ escapedBody rest := rfl

/-- The body ends where the literal is closed. -/
private theorem literalBody_escapedBody (text rest : List Char) :
    Lexeme.literalBody '"' (escapedBody text ++ '"' :: rest) = escapedBody text := by
  induction text with
  | nil => rfl
  | cons first others inductionHypothesis =>
      rw [escapedBody_cons, List.append_assoc]
      generalize escapedBody others = body at inductionHypothesis ⊢
      by_cases isNul : first = '\x00'
      · subst isNul
        simp [escapeCharacter_nul, Lexeme.literalBody, inductionHypothesis]
      · have escaped := escaped_escapeCharacter isNul
        generalize escapeCharacter first = written at escaped ⊢
        cases escaped with
        | plain notQuote notEscape notBreak =>
            simp [Lexeme.literalBody, inductionHypothesis, notQuote, notEscape, notBreak]
        | short stands notBreak =>
            simp [Lexeme.literalBody, inductionHypothesis, notBreak]
        | octal firstOctal secondOctal thirdOctal =>
            have plain : ∀ {digit : Char}, Text.isRadixDigit 8 digit = true →
                digit ≠ '"' ∧ digit ≠ '\\' ∧ digit ≠ '\n' := by
              intro digit octal
              refine ⟨?_, ?_, ?_⟩ <;>
                · rintro rfl
                  exact absurd octal (by decide)
            have first := plain firstOctal
            have second := plain secondOctal
            have third := plain thirdOctal
            simp [Lexeme.literalBody, inductionHypothesis, first, second, third]

/-- The octal digits at the start of a text, up to some number of them, are those at the
start of its body, and the body goes on with the rest of the text. -/
private theorem takeOctal_escapedBody (count : Nat) (text : List Char) :
    let digits := (text.take count).takeWhile (Text.isRadixDigit 8)
    ((escapedBody text).take count).takeWhile (Text.isRadixDigit 8) = digits ∧
      (escapedBody text).drop digits.length = escapedBody (text.drop digits.length) := by
  induction count generalizing text with
  | zero => simp
  | succ count inductionHypothesis =>
      cases text with
      | nil => simp
      | cons first rest =>
          cases octal : Text.isRadixDigit 8 first with
          | true => simpa [escapeCharacter_of_octal octal, octal] using inductionHypothesis rest
          | false =>
              obtain ⟨head, tail, written, notOctal⟩ := head_escapeCharacter octal
              simp [written, octal, notOctal]

/-- What the literal of a text denotes. The escape of NUL takes up to two octal digits
that follow it. -/
def denoted : List Char → List Char
  | [] => []
  | first :: rest =>
      if first = '\x00' then
        let digits := moreOctalDigits rest
        Char.ofNat (Text.positionalValue 8 digits) :: denoted (rest.drop digits.length)
      else first :: denoted rest
termination_by text => text.length
decreasing_by
  · simp only [List.length_drop, List.length_cons]
    omega
  · simp

/-- The body of a literal can be decoded, whatever the text. -/
private theorem decodeString_escapedBody (text : List Char) :
    decodeString (escapedBody text) = .ok (denoted text) := by
  fun_induction denoted text with
  | case1 => rfl
  | case2 rest digits inductionHypothesis =>
      obtain ⟨sameDigits, others⟩ := takeOctal_escapedBody 2 rest
      have more : moreOctalDigits (escapedBody rest) = digits := sameDigits
      have value : Text.positionalValue 8 ('0' :: digits) = Text.positionalValue 8 digits := rfl
      have small := Escape.positionalValue_moreOctalDigits_lt rest
      have read := @Escape.readInString_octal '0' (escapedBody rest) (by decide)
        (by rw [more, value]; exact Nat.lt_trans small (by decide))
      rw [more, value] at read
      have goesOn : (escapedBody rest).drop digits.length = escapedBody (rest.drop digits.length) :=
        others
      rw [escapedBody_cons, escapeCharacter_nul, List.cons_append, List.cons_append,
        List.nil_append, Escape.decodeString_escape read, goesOn, inductionHypothesis]
      rfl
  | case3 first rest notNul inductionHypothesis =>
      rw [escapedBody_cons]
      generalize escapedBody rest = body at inductionHypothesis ⊢
      have escaped := escaped_escapeCharacter notNul
      generalize escapeCharacter first = written at escaped ⊢
      cases escaped with
      | plain _ notEscape _ =>
          rw [List.cons_append, List.nil_append, Escape.decodeString_plain _ notEscape,
            inductionHypothesis]
          rfl
      | @short letter stands _ =>
          have read : Escape.readInString letter body = .ok ⟨[first], 0⟩ := by
            simp only [Escape.readInString, stands]
          rw [List.cons_append, List.cons_append, List.nil_append, Escape.decodeString_escape read,
            List.drop_zero, inductionHypothesis]
          rfl
      | @octal one two three firstOctal secondOctal thirdOctal ascii stands =>
          have more : moreOctalDigits (two :: three :: body) = [two, three] := by
            simp [moreOctalDigits, secondOctal, thirdOctal]
          have read := Escape.readInString_octal firstOctal (by rw [more, stands]; exact ascii)
          rw [more, stands, Char.ofNat_toNat] at read
          simp only [List.cons_append, List.nil_append, Escape.decodeString_escape read]
          change (decodeString body).map _ = _
          rw [inductionHypothesis]
          rfl

/-! ### Strings that keep their value -/

/-- Somewhere in the text a NUL stands directly before an octal digit. -/
def NulMeetsDigit (text : List Char) : Prop :=
  ∃ before digit after, text = before ++ '\x00' :: digit :: after ∧
    Text.isRadixDigit 8 digit = true

theorem NulMeetsDigit.cons (first : Char) {rest : List Char} (meets : NulMeetsDigit rest) :
    NulMeetsDigit (first :: rest) := by
  obtain ⟨before, digit, after, rfl, octal⟩ := meets
  exact ⟨first :: before, digit, after, rfl, octal⟩

theorem nulMeetsDigit_cons_iff {first : Char} {rest : List Char} :
    NulMeetsDigit (first :: rest) ↔
      (first = '\x00' ∧ moreOctalDigits rest ≠ []) ∨ NulMeetsDigit rest := by
  constructor
  · rintro ⟨before, digit, after, split, octal⟩
    cases before with
    | nil =>
        obtain ⟨rfl, rfl⟩ := List.cons.inj split
        exact .inl ⟨rfl, by simp [moreOctalDigits, octal]⟩
    | cons head before =>
        obtain ⟨rfl, rfl⟩ := List.cons.inj split
        exact .inr ⟨before, digit, after, rfl, octal⟩
  · rintro (⟨rfl, digits⟩ | meets)
    · cases rest with
      | nil => exact absurd rfl digits
      | cons digit after =>
          refine ⟨[], digit, after, rfl, ?_⟩
          cases octal : Text.isRadixDigit 8 digit with
          | true => rfl
          | false => simp [moreOctalDigits, octal] at digits
    · exact meets.cons first

/-- Nothing is gained, and characters are lost where a NUL takes digits. -/
private theorem length_denoted (text : List Char) :
    (denoted text).length ≤ text.length ∧
      (NulMeetsDigit text → (denoted text).length < text.length) := by
  fun_induction denoted text with
  | case1 =>
      refine ⟨Nat.le_refl _, ?_⟩
      rintro ⟨before, digit, after, split, _⟩
      simp at split
  | case2 rest digits inductionHypothesis =>
      obtain ⟨noLonger, shorter⟩ := inductionHypothesis
      have atMost : digits.length ≤ rest.length :=
        Nat.le_trans (List.takeWhile_sublist _).length_le (List.length_take_le' 2 rest)
      simp only [List.length_cons]
      rw [List.length_drop] at noLonger
      refine ⟨by omega, ?_⟩
      intro meets
      by_cases none : digits = []
      · obtain ⟨_, some⟩ | meets := nulMeetsDigit_cons_iff.mp meets
        · exact absurd none some
        · rw [none, List.length_nil, List.drop_zero] at shorter ⊢
          exact Nat.succ_lt_succ (shorter meets)
      · have taken := List.length_pos_iff.mpr none
        omega
  | case3 first rest notNul inductionHypothesis =>
      obtain ⟨noLonger, shorter⟩ := inductionHypothesis
      simp only [List.length_cons]
      refine ⟨by omega, ?_⟩
      intro meets
      obtain ⟨isNul, _⟩ | meets := nulMeetsDigit_cons_iff.mp meets
      · exact absurd isNul notNul
      · have := shorter meets
        omega

private theorem denoted_eq_self {text : List Char} (apart : ¬ NulMeetsDigit text) :
    denoted text = text := by
  fun_induction denoted text with
  | case1 => rfl
  | case2 rest digits inductionHypothesis =>
      rw [nulMeetsDigit_cons_iff, not_or] at apart
      have none : digits = [] := Classical.byContradiction fun some => apart.1 ⟨rfl, some⟩
      rw [none, List.length_nil, List.drop_zero] at inductionHypothesis
      rw [none, List.length_nil, List.drop_zero, inductionHypothesis apart.2]
      rfl
  | case3 first rest notNul inductionHypothesis =>
      rw [nulMeetsDigit_cons_iff, not_or] at apart
      rw [inductionHypothesis apart.2]

private theorem denoted_eq_self_iff {text : List Char} :
    denoted text = text ↔ ¬ NulMeetsDigit text := by
  constructor
  · intro kept meets
    have lost := (length_denoted text).2 meets
    rw [kept] at lost
    exact Nat.lt_irrefl _ lost
  · exact denoted_eq_self

theorem expression_str (generator text : String) (span : Span) :
    expression ⟨generator, true⟩ (.constant (.str text) span) =
      .ok (String.ofList ('"' :: (escapedBody text.toList ++ ['"']))) := rfl

/-- With escaping on, a string becomes a literal whose body can be decoded, and the string
keeps its value exactly if none of its NULs stands directly before an octal digit. Two
strings that share a literal are equal, or a NUL of one of them takes digits. -/
theorem expression_str_decodes_iff (generator : String) :
    (∀ (text : String) (span : Span), ∃ body : List Char,
      expression ⟨generator, true⟩ (.constant (.str text) span) =
          .ok (String.ofList ('"' :: (body ++ ['"']))) ∧
        (∀ rest, Lexeme.literalBody '"' (body ++ '"' :: rest) = body) ∧
        (∃ value, decodeString body = .ok value) ∧
        (decodeString body = .ok text.toList ↔ ¬ NulMeetsDigit text.toList)) ∧
      ∀ (first second : String) (span : Span),
        expression ⟨generator, true⟩ (.constant (.str first) span) =
            expression ⟨generator, true⟩ (.constant (.str second) span) →
          first = second ∨ NulMeetsDigit first.toList ∨ NulMeetsDigit second.toList := by
  constructor
  · intro text span
    refine ⟨escapedBody text.toList, expression_str generator text span,
      literalBody_escapedBody text.toList, ⟨_, decodeString_escapedBody text.toList⟩, ?_⟩
    rw [decodeString_escapedBody, ← denoted_eq_self_iff]
    exact ⟨Except.ok.inj, congrArg Except.ok⟩
  · intro first second span same
    by_cases firstMeets : NulMeetsDigit first.toList
    · exact .inr (.inl firstMeets)
    by_cases secondMeets : NulMeetsDigit second.toList
    · exact .inr (.inr secondMeets)
    rw [expression_str, expression_str] at same
    have sameText := String.ofList_injective (Except.ok.inj same)
    have sameBody : escapedBody first.toList = escapedBody second.toList :=
      List.append_cancel_right (List.cons.inj sameText).2
    have sameValue : denoted first.toList = denoted second.toList := by
      apply Except.ok.inj
      rw [← decodeString_escapedBody, ← decodeString_escapedBody, sameBody]
    rw [denoted_eq_self firstMeets, denoted_eq_self secondMeets] at sameValue
    exact .inl (String.toList_injective sameValue)

/-- A NUL before a digit that is not octal, and escapes of every form. -/
theorem expression_str_decodes_mixed :
    ¬ NulMeetsDigit "\x008\x017\"\\\n\x7f".toList ∧
      ∃ body : List Char,
        expression ⟨"", true⟩ (.constant (.str "\x008\x017\"\\\n\x7f") .dummy) =
            .ok (String.ofList ('"' :: (body ++ ['"']))) ∧
          decodeString body = .ok "\x008\x017\"\\\n\x7f".toList := by
  have apart : ¬ NulMeetsDigit "\x008\x017\"\\\n\x7f".toList := by
    have ends : ¬ NulMeetsDigit [] := by simp [NulMeetsDigit]
    have noDigit : moreOctalDigits ['8', '\x01', '7', '"', '\\', '\n', '\x7f'] = [] := by decide
    simp [nulMeetsDigit_cons_iff, ends, noDigit]
  obtain ⟨body, written, _, _, decodes⟩ :=
    (expression_str_decodes_iff "").1 "\x008\x017\"\\\n\x7f" .dummy
  exact ⟨apart, body, written, decodes.mpr apart⟩

/-- NUL, `0`, `1` gets the literal of the character U+0001. -/
theorem expression_str_collides :
    expression ⟨"", true⟩ (.constant (.str "\x0001") .dummy) =
        expression ⟨"", true⟩ (.constant (.str "\x01") .dummy) ∧
      decodeString (escapedBody "\x0001".toList) = .ok "\x01".toList :=
  ⟨rfl, rfl⟩

end Cpp
end Transpiler
