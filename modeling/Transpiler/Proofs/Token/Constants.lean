import Transpiler.Proofs.Grammar.TreeExtent
import Transpiler.Proofs.Syntax.ConstantText

/-!
Contract: the constants that the tokens of a source carry.

Owns: that the double nearest to a decimal is a number, and that every number token of a
source carries a constant that can be read from source text (`readable_of_tokenize`).
-/

namespace Transpiler

/-! ### Doubles nearest to decimals -/

namespace Decimal

/-- Bit patterns below that of infinity are finite numbers. -/
private theorem isFinite_of_lt {pattern : Nat} (small : pattern < Binary64.infinity.bits.toNat) :
    (Binary64.mk (UInt64.ofNat pattern)).isFinite = true := by
  have bound : Binary64.infinity.bits.toNat = 9218868437227405312 := rfl
  have fits : pattern < UInt64.size := by
    show pattern < 18446744073709551616
    omega
  have bits : (UInt64.ofNat pattern).toNat = pattern := UInt64.toNat_ofNat_of_lt' fits
  have field : (Binary64.mk (UInt64.ofNat pattern)).exponentField ≠ 2047 := by
    unfold Binary64.exponentField
    rw [bits, Binary64.hiddenBit_eq, Binary64.exponentPatterns]
    omega
  simpa [Binary64.isFinite, Binary64.exponentPatterns] using field

private theorem isNaN_nearestToRatio (ratio : Ratio) : (nearestToRatio ratio).isNaN = false := by
  unfold nearestToRatio
  extract_lets exponent spacing significand pattern
  split
  case isTrue small => rw [Binary64.isNaN, isFinite_of_lt small, Bool.not_true, Bool.false_and]
  case isFalse => decide

theorem isNaN_nearest (significand : Nat) (exponent : Int) :
    (nearest significand exponent).isNaN = false := by
  unfold nearest
  extract_lets magnitude power
  split
  · decide
  · split
    · decide
    · split
      · decide
      · exact isNaN_nearestToRatio _

end Decimal

/-! ### Tokens -/

/-- A kind of tokens that carry no constant, or one that can be read from source text. -/
def TokenKind.Readable : TokenKind → Prop
  | .int value => (Constant.int value).Readable
  | .bigInt digits => (Constant.bigInt digits).Readable
  | .float number => (Constant.float number).Readable
  | _ => True

theorem TokenKind.readable_of_isLiteral {kind : TokenKind} (notLiteral : kind.isLiteral = false) :
    kind.Readable := by
  cases kind with
  | int value => contradiction
  | bigInt digits => contradiction
  | float number => contradiction
  | _ => trivial

namespace Lexeme

theorem ValueToken.readable {kind : TokenKind} (carries : ValueToken kind) : kind.Readable := by
  cases carries with
  | integer value =>
      unfold TokenKind.ofInteger
      split
      case isTrue small => exact ⟨value, small, rfl⟩
      case isFalse large => exact ⟨value, Nat.lt_of_not_le large, rfl⟩
  | float digits => exact Decimal.isNaN_nearest _ _
  | str text => trivial
  | bytes content => trivial
  | formattedString => trivial

private theorem isLiteral_ofWord (word : String) : (TokenKind.ofWord word).isLiteral = false := by
  unfold TokenKind.ofWord
  split
  case h_6 => split <;> rfl
  all_goals rfl

/-- The token of a lexeme carries a constant that can be read, if any. -/
private theorem readable_of_token? {text : List Char} {lexeme : Lexeme} {kind : TokenKind}
    (member : lexeme ∈ split text) (stands : lexeme.token? = .ok (some kind)) : kind.Readable := by
  obtain ⟨_, first, rest, _, rfl⟩ := exists_scan_of_mem_split member
  rcases token?_origin stands with isSymbol | ⟨_, rfl⟩ | carries
  · have noLiteral : (symbolTable.map (·.2)).any TokenKind.isLiteral = false := by decide
    have inTable := (scans_scan first rest).mem_symbolTable isSymbol
    apply TokenKind.readable_of_isLiteral
    simpa using List.any_eq_false.mp noLiteral kind inTable
  · exact TokenKind.readable_of_isLiteral (isLiteral_ofWord _)
  · exact carries.readable

end Lexeme

namespace Layout

theorem Enters.isLayout {state : State} {offset : Nat} {marks : List Token} {blocks : List Nat}
    (enters : Enters state offset marks blocks) : ∀ mark ∈ marks, mark.kind.isLayout = true := by
  intro mark member
  cases enters with
  | inside => cases member
  | deeper =>
      rw [List.mem_singleton.mp member]
      rfl
  | closing =>
      obtain ⟨_, _, rfl⟩ := List.mem_map.mp member
      rfl

/-- Every token that a run adds marks a line or a block, or stands for a lexeme. -/
theorem Runs.origin {state last : State} {offset : Nat} {lexemes : List Lexeme}
    {tokens : List Token} (runs : Runs state offset lexemes tokens last) :
    ∀ token ∈ tokens, token.kind.isLayout = true ∨
      ∃ lexeme ∈ lexemes, lexeme.token? = .ok (some token.kind) := by
  induction runs with
  | none =>
      intro token member
      cases member
  | more stepped _ inductionHypothesis =>
      intro token member
      rcases List.mem_append.mp member with isAdded | isOther
      · cases steps_of_step stepped with
        | comment => cases isAdded
        | margin => cases isAdded
        | blankLine => cases isAdded
        | bracketed => cases isAdded
        | lineEnd =>
            rw [List.mem_singleton.mp isAdded]
            exact .inl rfl
        | token stands enters =>
            rcases List.mem_append.mp isAdded with isMark | isToken
            · exact .inl (enters.isLayout token isMark)
            · rw [List.mem_singleton.mp isToken]
              exact .inr ⟨_, List.mem_cons_self, stands⟩
      · rcases inductionHypothesis token isOther with isMark | ⟨lexeme, inRest, stands⟩
        · exact .inl isMark
        · exact .inr ⟨lexeme, List.mem_cons_of_mem _ inRest, stands⟩

end Layout

/-- Every token of a source carries a constant that can be read, if any. -/
theorem readable_of_tokenize {source : String} {tokens : List Token}
    (tokenized : tokenize source = .ok tokens) : ∀ token ∈ tokens, token.kind.Readable := by
  have layout {kind : TokenKind} (isMark : kind.isLayout = true) : kind.Readable := by
    apply TokenKind.readable_of_isLiteral
    cases kind <;> first | rfl | contradiction
  obtain ⟨added, last, runs, rfl⟩ := Layout.runs_of_tokenize tokenized
  intro token member
  rcases List.mem_append.mp member with isAdded | isFinal
  · rcases runs.origin token isAdded with isMark | ⟨lexeme, inSplit, stands⟩
    · exact layout isMark
    · exact Lexeme.readable_of_token? inSplit stands
  · exact layout (Layout.isLayout_of_mem_finish isFinal)

end Transpiler
