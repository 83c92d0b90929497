import Transpiler.Proofs.Decimal.NumberText
import Transpiler.Proofs.Syntax.ListingText

/-!
Contract: the literal of a constant determines the constant.

Owns: the constants that number and string tokens can stand for, that their literals differ
(`Constant.literal_injective`), and that each ends where it says
(`Constant.selfDelimiting_literal`).
-/

namespace Transpiler

namespace Constant

/-- The constants that can be read from source text: integers are split by size, and no
number is a NaN. -/
def Readable : Constant → Prop
  | .int value => ∃ number : Nat, number ≤ smallIntegerLimit ∧ value = number
  | .bigInt digits => ∃ number : Nat, smallIntegerLimit < number ∧ digits = toString number
  | .float number => number.isNaN = false
  | .bool _ | .str _ | .none | .bytes _ | .ellipsis => True

/-! ### The forms of literals -/

/-- The forms of literals that can be told apart by their characters. -/
inductive Form where
  | word
  | digits
  | number
  | text
  | bytes
deriving DecidableEq

def form : Constant → Form
  | .bool _ | .none | .ellipsis => .word
  | .int _ | .bigInt _ => .digits
  | .float _ => .number
  | .str _ => .text
  | .bytes _ => .bytes

/-- The form of a literal, by its first character and whether it has only digits. -/
def formOf (literal : List Char) : Form :=
  let first := literal.headD ' '
  if ['\'', '"'].contains first then .text
  else if first == 'b' then .bytes
  else if ['T', 'F', 'N', 'E'].contains first then .word
  else if literal.all Char.isDigit then .digits
  else .number

/-- The characters that a number begins with. -/
def beginsNumber (character : Char) : Bool :=
  character.isDigit || character == '-'

private theorem formOf_of_beginsNumber {first : Char} (begins : beginsNumber first = true)
    (rest : List Char) :
    formOf (first :: rest) = if (first :: rest).all Char.isDigit then .digits else .number := by
  have apart : ['\'', '"', 'b', 'T', 'F', 'N', 'E'].any beginsNumber = false := by decide
  have notMark := Lexeme.not_mem_of_class begins apart
  simp only [List.mem_cons, List.not_mem_nil, or_false, not_or] at notMark
  simp [formOf, notMark]

private theorem formOf_of_isQuote {quote : Char} (isQuote : Lexeme.isQuote quote = true)
    (rest : List Char) : formOf (quote :: rest) = .text := by
  have cases : quote = '"' ∨ quote = '\'' := by simpa [Lexeme.isQuote] using isQuote
  rcases cases with rfl | rfl <;> rfl

private theorem formOf_toDigits (number : Nat) : formOf (Nat.toDigits 10 number) = .digits := by
  have digits : ∀ digit ∈ Nat.toDigits 10 number, digit.isDigit = true :=
    fun _ member => Nat.isDigit_of_mem_toDigits (by decide) (by decide) member
  obtain ⟨first, rest, shape⟩ :=
    List.exists_cons_of_ne_nil (show Nat.toDigits 10 number ≠ [] from Nat.toDigits_ne_nil)
  rw [shape] at digits ⊢
  rw [formOf_of_beginsNumber (by simp [beginsNumber, digits first List.mem_cons_self]),
    if_pos (List.all_eq_true.mpr digits)]

private theorem formOf_render {number : Binary64} (isNumber : number.isNaN = false) :
    formOf number.render.toList = .number := by
  cases finite : number.isFinite with
  | false =>
      rw [Binary64.render_of_infinite finite isNumber]
      split <;> decide
  | true =>
      obtain ⟨first, rest, shape, begins⟩ := Binary64.exists_first_render finite
      have mark : ¬(first :: rest).all Char.isDigit = true := by
        rw [← shape, List.all_eq_true]
        intro digits
        rcases Binary64.mark_mem_render finite with point | letter
        · exact absurd (digits '.' point) (by decide)
        · exact absurd (digits 'e' letter) (by decide)
      rw [shape, formOf_of_beginsNumber (by simpa [beginsNumber] using begins), if_neg mark]

private theorem formOf_literal {constant : Constant} (readable : constant.Readable) :
    formOf constant.literal.toList = constant.form := by
  cases constant with
  | bool value => cases value <;> decide
  | int value =>
      obtain ⟨number, -, rfl⟩ := readable
      show formOf (Nat.repr number).toList = .digits
      rw [Nat.toList_repr, formOf_toDigits]
  | bigInt digits =>
      obtain ⟨number, -, rfl⟩ := readable
      show formOf (Nat.repr number).toList = .digits
      rw [Nat.toList_repr, formOf_toDigits]
  | float number => exact formOf_render readable
  | str text =>
      rw [literal, Literal.ofString, String.toList_ofList, Literal.quoteContents_eq]
      exact formOf_of_isQuote (Literal.isQuote_quoteFor text.toList) _
  | none => decide
  | bytes content =>
      rw [literal, Literal.ofBytes, String.toList_ofList]
      rfl
  | ellipsis => decide

/-! ### Literals determine constants -/

theorem ofString_injective {first second : String}
    (texts : Literal.ofString first = Literal.ofString second) : first = second := by
  have contents : Literal.quoteContents Literal.isControl first.toList
      = Literal.quoteContents Literal.isControl second.toList := String.ofList_injective texts
  have tokens := Literal.literalToken_string first.toList
  rw [contents, Literal.literalToken_string] at tokens
  have same : second = first := by simpa using tokens
  exact same.symm

private theorem ofBytes_injective {first second : List UInt8}
    (texts : Literal.ofBytes first = Literal.ofBytes second) : first = second := by
  have contents : 'b' :: Literal.quoteContents Literal.isUnprintable (Literal.charactersOf first)
      = 'b' :: Literal.quoteContents Literal.isUnprintable (Literal.charactersOf second) :=
    String.ofList_injective texts
  have tokens := Literal.literalToken_bytes first
  rw [contents, Literal.literalToken_bytes] at tokens
  have same : second = first := by simpa using tokens
  exact same.symm

private theorem repr_injective {first second : Nat} (texts : Nat.repr first = Nat.repr second) :
    first = second := by
  rw [← Numeral.positionalValue_toDigits first, ← Nat.toList_repr, texts, Nat.toList_repr,
    Numeral.positionalValue_toDigits]

/-- Different constants that can be read have different literals. -/
theorem literal_injective {first second : Constant} (readable : first.Readable)
    (readableToo : second.Readable) (texts : first.literal = second.literal) :
    first = second := by
  have forms : first.form = second.form := by
    rw [← formOf_literal readable, texts, formOf_literal readableToo]
  cases first with
  | bool value =>
      revert texts
      cases second with
      | bool other => cases value <;> cases other <;> decide
      | none => cases value <;> decide
      | ellipsis => cases value <;> decide
      | _ => cases forms
  | int value =>
      obtain ⟨number, small, rfl⟩ := readable
      cases second with
      | int other =>
          obtain ⟨otherNumber, -, rfl⟩ := readableToo
          rw [repr_injective texts]
      | bigInt digits =>
          obtain ⟨otherNumber, large, rfl⟩ := readableToo
          have same : number = otherNumber := repr_injective texts
          omega
      | _ => cases forms
  | bigInt digits =>
      obtain ⟨number, large, rfl⟩ := readable
      cases second with
      | int other =>
          obtain ⟨otherNumber, small, rfl⟩ := readableToo
          have same : number = otherNumber := repr_injective texts
          omega
      | bigInt otherDigits => rw [show toString number = otherDigits from texts]
      | _ => cases forms
  | float number =>
      cases second with
      | float other => rw [Binary64.render_injective readable readableToo texts]
      | _ => cases forms
  | str text =>
      cases second with
      | str other => rw [ofString_injective texts]
      | _ => cases forms
  | none =>
      revert texts
      cases second with
      | bool other => cases other <;> decide
      | none => decide
      | ellipsis => decide
      | _ => cases forms
  | bytes content =>
      cases second with
      | bytes other => rw [ofBytes_injective texts]
      | _ => cases forms
  | ellipsis =>
      revert texts
      cases second with
      | bool other => cases other <;> decide
      | none => decide
      | ellipsis => decide
      | _ => cases forms

/-! ### Literals end where they say -/

open Outline

theorem quoted_ofString (text : String) :
    Quoted (Literal.ofString text).toList [] (Literal.quoteFor text.toList)
      (Literal.body Literal.isControl text.toList) where
  shape := String.toList_ofList
  plain := by simp
  isQuote := Literal.isQuote_quoteFor text.toList
  closed := Literal.literalBody_body fun character _ => Literal.small_of_isControl character

private theorem quoted_ofBytes (content : List UInt8) :
    Quoted (Literal.ofBytes content).toList ['b']
      (Literal.quoteFor (Literal.charactersOf content))
      (Literal.body Literal.isUnprintable (Literal.charactersOf content)) where
  shape := String.toList_ofList
  plain := List.all_eq_true.mp (by decide)
  isQuote := Literal.isQuote_quoteFor _
  closed := Literal.literalBody_body fun _ member _ => Literal.small_of_mem_charactersOf member

private theorem isPlainCharacter_of_isDigit {digit : Char} (isDigit : digit.isDigit = true) :
    isPlainCharacter digit = true := by
  have apart : ['(', ')', '[', ']', ',', '=', '\n', '\'', '"'].any Char.isDigit = false := by decide
  simpa [isPlainCharacter] using Lexeme.not_mem_of_class isDigit apart

theorem plain_repr (number : Nat) :
    ∀ character ∈ (Nat.repr number).toList, isPlainCharacter character = true := by
  intro character member
  rw [Nat.toList_repr] at member
  exact isPlainCharacter_of_isDigit (Nat.isDigit_of_mem_toDigits (by decide) (by decide) member)

theorem plain_render {number : Binary64} (isNumber : number.isNaN = false) :
    ∀ character ∈ number.render.toList, isPlainCharacter character = true := by
  cases finite : number.isFinite with
  | false =>
      rw [Binary64.render_of_infinite finite isNumber]
      split <;> exact List.all_eq_true.mp (by decide)
  | true =>
      intro character member
      rcases Binary64.characters_render finite character member with isDigit | isMark
      · exact isPlainCharacter_of_isDigit isDigit
      · have plainMarks : ['.', 'e', '+', '-'].all isPlainCharacter = true := by decide
        exact List.all_eq_true.mp plainMarks character isMark

theorem selfDelimiting_literal {constant : Constant} (readable : constant.Readable) :
    SelfDelimiting constant.literal.toList := by
  cases constant with
  | bool value => cases value <;> exact .plain (List.all_eq_true.mp (by decide))
  | int value =>
      obtain ⟨number, -, rfl⟩ := readable
      exact .plain (plain_repr number)
  | bigInt digits =>
      obtain ⟨number, -, rfl⟩ := readable
      exact .plain (plain_repr number)
  | float number => exact .plain (plain_render readable)
  | str text => exact .quoted (quoted_ofString text)
  | none => exact .plain (List.all_eq_true.mp (by decide))
  | bytes content => exact .quoted (quoted_ofBytes content)
  | ellipsis => exact .plain (List.all_eq_true.mp (by decide))

end Constant
end Transpiler
