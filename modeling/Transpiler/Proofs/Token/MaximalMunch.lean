import Transpiler.Proofs.Token.LongestMatch

/-!
Contract: at every place of a source the longest match of the pattern table is taken.

Owns: that what is scanned is matched by a pattern of its kind, and when nothing is found
(`Munches`).
-/

namespace Transpiler
namespace Lexeme

open Pattern

variable {first : Char} {rest text letters : List Char} {kind : LexemeKind} {lexeme : Lexeme}

/-! ### What is scanned is matched -/

private theorem whole_takeWhile (isDigit : first.isDigit = true) (rest : List Char) :
    whole.Matches ((first :: rest).takeWhile (isDigitOrSeparator 10)) := by
  rw [List.takeWhile_cons_of_pos (isDigitOrSeparator_of_isDigit isDigit)]
  exact matches_seq_one.mpr
    ⟨first, _, rfl, isDigit, matches_star_one.mpr (List.all_eq_true.mp List.all_takeWhile)⟩

private theorem fits_decimalNumber (isDigit : first.isDigit = true) (rest : List Char) :
    Fits (decimalNumber (first :: rest)).kind (decimalNumber (first :: rest)).text := by
  have isWhole := whole_takeWhile isDigit rest
  simp only [decimalNumber]
  split
  · exact ⟨pointed, by simp [patternTable], _, _, rfl, isWhole, matches_seq_only.mpr ⟨_, rfl, _, _,
      rfl, matches_star_one.mpr (List.all_eq_true.mp List.all_takeWhile), exponent_exponentPart _⟩⟩
  · split
    · exact ⟨whole, by simp [patternTable], isWhole⟩
    next some =>
      exact ⟨scaled, by simp [patternTable], _, _, rfl, isWhole,
        (matches_optional.mp (exponent_exponentPart _)).resolve_right (by simpa using some)⟩

private theorem fits_of_rawInteger (raw : Numeral.RawInteger kind text) : Fits kind text := by
  have table : ∀ entry ∈ Numeral.radixMarks, ∃ small capital,
      (entry.2.2 = small ∨ entry.2.2 = capital) ∧
        (entry.1, marked small capital entry.2.1) ∈ patternTable := by
    simp only [Numeral.radixMarks, List.forall_mem_cons, patternTable]
    exact ⟨⟨'x', 'X', by simp⟩, ⟨'x', 'X', by simp⟩, ⟨'o', 'O', by simp⟩, ⟨'o', 'O', by simp⟩,
      ⟨'b', 'B', by simp⟩, ⟨'b', 'B', by simp⟩, by simp⟩
  cases raw with
  | decimal isDigit others =>
      exact ⟨whole, by simp [patternTable],
        matches_seq_one.mpr ⟨_, _, rfl, isDigit, matches_star_one.mpr others⟩⟩
  | marked isMark some others =>
      obtain ⟨small, capital, isLetter, listed⟩ := table _ isMark
      exact ⟨_, listed, matches_marked.mpr ⟨_, _, rfl, isLetter, some, others⟩⟩

private theorem fits_of_number? {input : List Char} (found : number? input = some lexeme) :
    Fits lexeme.kind lexeme.text := by
  unfold number? at found
  split at found
  next first rest =>
    split at found
    next isDigit =>
      obtain rfl := Option.some.inj found
      cases marked : markedInteger? (first :: rest) with
      | none => exact fits_decimalNumber isDigit rest
      | some lexeme => exact fits_of_rawInteger (Numeral.rawInteger_of_markedInteger? marked)
    split at found
    next isPoint =>
      obtain rfl := Option.some.inj found
      cases rest with
      | nil => simp at isPoint
      | cons digit others =>
          have isDigit : digit.isDigit = true := (Bool.and_eq_true_iff.mp isPoint).2
          show Fits .float _
          exact ⟨fraction, by simp [patternTable], matches_seq_only.mpr ⟨_, rfl, _, _, rfl,
            whole_takeWhile isDigit others, exponent_exponentPart _⟩⟩
    · cases found
  · cases found

theorem Trivia.fits {after : List Char} (trivia : Trivia kind text after)
    (notBlank : kind ≠ .blank) : Fits kind.withoutText text := by
  cases trivia with
  | blank => exact absurd rfl notBlank
  | comment inLine =>
      show Fits .comment _
      refine ⟨_, List.mem_cons_self, matches_seq_only.mpr ⟨_, rfl, matches_star_one.mpr ?_⟩⟩
      simpa using List.forall_mem_ne'.mpr inLine
  | continuation all ends =>
      show Fits .continuation _
      refine ⟨Pattern.continuation, by simp [patternTable], matches_seq_only.mpr ⟨_, rfl, _, _, rfl,
        matches_star_one.mpr all, ?_⟩⟩
      rcases ends with rfl | rfl
      · exact ⟨[], _, rfl, matches_optional.mpr (.inr rfl), matches_only.mpr rfl⟩
      · exact ⟨['\r'], _, rfl, matches_optional.mpr (.inl (matches_only.mpr rfl)),
          matches_only.mpr rfl⟩
  | lineBreak =>
      show Fits .lineBreak _
      exact ⟨only '\n', by simp [patternTable], matches_only.mpr rfl⟩

private theorem fits_identifier (starts : Text.isIdentifierStart first = true)
    (continues : ∀ character ∈ rest, Text.isIdentifierContinue character = true) :
    Fits .word (first :: rest) :=
  ⟨identifier, by simp [patternTable],
    matches_seq_one.mpr ⟨first, rest, rfl, starts, matches_star_one.mpr continues⟩⟩

/-- What is scanned is matched by a pattern of its kind. -/
private theorem fits_scan (notBlank : (scan first rest).kind ≠ .blank)
    (notStray : (scan first rest).kind ≠ .stray) :
    Fits (scan first rest).kind.withoutText (scan first rest).text := by
  have scans := scans_scan first rest
  obtain ⟨⟨after, shape⟩, _⟩ := scans.isPrefix
  by_cases isTrivia : (scan first rest).kind.isTrivia = true
  · exact (scans.trivia shape.symm isTrivia).fits notBlank
  generalize scanned : scan first rest = lexeme at *
  cases scans with
  | blank | lineBreak | comment => exact absurd rfl isTrivia
  | backslash =>
      have kinds := kind_backslash rest
      grind [LexemeKind.isTrivia]
  | literal found =>
      have bare : lexeme.kind.withoutText = lexeme.kind := by
        have kinds := kind_literal? found
        grind [LexemeKind.withoutText]
      rw [bare]
      exact ((fits_of_literal? found).resolve_right fun stray => notStray stray.1).2.1
  | number found =>
      have bare : lexeme.kind.withoutText = lexeme.kind := by
        have kinds := kind_number? found
        grind [LexemeKind.withoutText]
      rw [bare]
      exact fits_of_number? found
  | word =>
      have names : (scan first rest).kind.mayName = true := by rw [scanned]; rfl
      exact fits_identifier (scan_of_mayName names).1 (List.all_eq_true.mp List.all_takeWhile)
  | symbol found =>
      obtain ⟨entry, isFound, rfl⟩ := Option.map_eq_some_iff.mp found
      exact fits_symbol entry (List.mem_of_find?_eq_some isFound)
  | stray => exact absurd rfl notStray

/-- An unclosed formatted string is no lexeme. -/
theorem UnclosedFormatted.kind_scan (unclosed : UnclosedFormatted (first :: rest)) :
    (scan first rest).kind = .stray := by
  obtain ⟨letters, quote, following, shape, isLetters, isQuote, unclosed⟩ := unclosed
  have marks := matches_formattedLetters.mp isLetters
  have found := quoted?_formatted marks quote following
  rw [if_neg fun closed =>
    let ⟨body, inside, isPrefix⟩ := (closed_iff isQuote).mp closed
    unclosed body inside isPrefix] at found
  rw [scan_quoted shape (List.mem_append_right _ marks) isQuote found]

/-! ### Maximal munch -/

/-- The longest beginning of the input that any pattern matches, with the kind of all patterns that
match so much. -/
structure Longest (input : List Char) (kind : LexemeKind) (text : List Char) : Prop where
  isPrefix : text <+: input
  fits : Fits kind text
  longest : ∀ other rival, Fits other rival → rival <+: input → rival.length ≤ text.length
  decided : ∀ other rival, Fits other rival → rival <+: input → rival.length = text.length →
    other = kind

/-- The lexeme that the table of patterns gives for an input. -/
structure Munches (input : List Char) (lexeme : Lexeme) : Prop where
  blank_iff : lexeme.kind = .blank ↔ ∃ first ∈ input.head?, isInlineBlank first = true
  skipped : lexeme.kind = .blank → lexeme.text = input.takeWhile isInlineBlank
  taken : lexeme.kind ≠ .blank → lexeme.kind ≠ .stray →
    Longest input lexeme.kind.withoutText lexeme.text
  stray_iff : lexeme.kind ≠ .blank →
    (lexeme.kind = .stray ↔
      (∀ kind text, Fits kind text → ¬ text <+: input) ∨ UnclosedFormatted input)
  /-- The letters of an unclosed formatted string alone are an identifier. -/
  unclosed : UnclosedFormatted input → ∃ letters, Longest input .word letters

private theorem scan_kind_blank_iff :
    (scan first rest).kind = .blank ↔ isInlineBlank first = true := by
  constructor
  · intro isBlank
    have scans := scans_scan first rest
    generalize scan first rest = lexeme at *
    cases scans with
    | blank starts => exact starts
    | backslash => simpa [isBlank] using kind_backslash rest
    | literal found => simpa [isBlank] using kind_literal? found
    | number found => simpa [isBlank] using kind_number? found
    | symbol found =>
        obtain ⟨_, _, rfl⟩ := Option.map_eq_some_iff.mp found
        cases isBlank
    | lineBreak | comment | word | stray => cases isBlank
  · intro starts
    simp [scan, starts]

/-- The letters before the quote of a formatted string alone. -/
private theorem fits_letters (marks : letters.map Char.toLower ∈ formattedMarks) :
    Fits .word letters := by
  have table : ['r', 'R', 'b', 'B', 'f', 'F'].all Text.isIdentifierStart = true := by decide
  have starts : ∀ letter ∈ letters, Text.isIdentifierStart letter = true := by
    intro letter member
    have isLetter := (letters_of_marks (List.mem_append_right _ marks)).2 letter member
    exact List.all_eq_true.mp table letter (mem_of_isMarkLetter isLetter)
  cases letters with
  | nil => simp [formattedMarks] at marks
  | cons first more =>
      refine fits_identifier (starts first (by simp)) fun letter member => ?_
      exact Text.isIdentifierContinue_of_isIdentifierStart (starts letter (by simp [member]))

theorem UnclosedFormatted.longest (unclosed : UnclosedFormatted (first :: rest)) :
    ∃ letters, Longest (first :: rest) .word letters := by
  have isWord {other rival} (fits : Fits other rival) (isPrefix : rival <+: first :: rest) :
      other = .word ∧ identifier.Matches rival := by
    rcases fits.outdone isPrefix with outdoes | ⟨isWord, isMatch, _⟩
    · exact absurd unclosed.kind_scan outdoes.found
    · exact ⟨isWord, isMatch⟩
  obtain ⟨letters, quote, following, shape, isLetters, isQuote, _⟩ := id unclosed
  refine ⟨letters, ⟨quote :: following, shape.symm⟩,
    fits_letters (matches_formattedLetters.mp isLetters), ?_, ?_⟩
  · intro other rival fits isPrefix
    exact length_le_of_isQuote isQuote (isWord fits isPrefix).2 (shape ▸ isPrefix)
  · intro other rival fits isPrefix _
    exact (isWord fits isPrefix).1

private theorem munches_scan (first : Char) (rest : List Char) :
    Munches (first :: rest) (scan first rest) where
  blank_iff := by simp [scan_kind_blank_iff]
  skipped := by
    intro isBlank
    simp [scan, scan_kind_blank_iff.mp isBlank]
  taken := by
    intro notBlank notStray
    have outdoes {other rival} (fits : Fits other rival) (isPrefix : rival <+: first :: rest) :
        Outdoes (scan first rest) other rival :=
      (fits.outdone isPrefix).resolve_right fun unclosed => notStray unclosed.2.2.kind_scan
    exact ⟨(scans_scan first rest).isPrefix.1, fits_scan notBlank notStray,
      fun _ _ fits isPrefix => (outdoes fits isPrefix).longer,
      fun _ _ fits isPrefix same => ((outdoes fits isPrefix).sameKind same).symm⟩
  stray_iff := by
    intro notBlank
    constructor
    · intro isStray
      by_cases unclosed : UnclosedFormatted (first :: rest)
      · exact .inr unclosed
      · refine .inl fun kind text fits isPrefix => ?_
        rcases fits.outdone isPrefix with outdoes | ⟨_, _, isUnclosed⟩
        · exact outdoes.found isStray
        · exact unclosed isUnclosed
    · rintro (unmatched | unclosed)
      · by_contra notStray
        exact unmatched _ _ (fits_scan notBlank notStray) (scans_scan first rest).isPrefix.1
      · exact unclosed.kind_scan
  unclosed := UnclosedFormatted.longest

/-- Lexemes are cut by maximal munch: every lexeme of a source is what the longest match of the
table gives for the text from there on. -/
theorem split_maximal_munch (source : List Char) (before : List Lexeme) (lexeme : Lexeme)
    (after : List Lexeme) (cut : split source = before ++ lexeme :: after) :
    ∃ input, source = before.flatMap Lexeme.text ++ input ∧ Munches input lexeme := by
  have cuts := cuts_split source
  rw [cut] at cuts
  obtain ⟨first, taken, shape, scanned⟩ := cuts.scan_of_append
  refine ⟨first :: (taken ++ after.flatMap Lexeme.text), ?_, ?_⟩
  · rw [← cuts.flatMap_text, List.flatMap_append, List.flatMap_cons, shape, List.cons_append]
  · rw [← scanned]
    exact munches_scan first _

/-- An operator that three shorter ones begin, and a formatted string without its second quote. -/
theorem split_maximal_munch_of_assignment :
    split "x**=rf'a".toList =
        [⟨.word, ['x']⟩, ⟨.symbol (.augmented "**"), "**=".toList⟩] ++
          ⟨.stray, "rf'a".toList⟩ :: [] ∧
      ∃ input, "x**=rf'a".toList = "x**=".toList ++ input ∧
        Munches input ⟨.stray, "rf'a".toList⟩ := by
  have cut : split "x**=rf'a".toList =
      [⟨.word, ['x']⟩, ⟨.symbol (.augmented "**"), "**=".toList⟩] ++
        ⟨.stray, "rf'a".toList⟩ :: [] := by decide
  exact ⟨cut, split_maximal_munch _ _ _ _ cut⟩

end Lexeme
end Transpiler
