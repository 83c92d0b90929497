import Transpiler.Proofs.Token.Identifier

/-!
Contract: what one lexeme takes from the text before it, and how a text is cut up.

Owns: the cases of scanning a lexeme, that a lexeme is a part of the text that is not
empty, so that the lexemes of a text are the text, and the shape of the lexemes that
stand for no token.

Does not own: which tokens lexemes stand for.
-/

namespace Transpiler

/-- A kind of lexemes that stand for no token. -/
def LexemeKind.isTrivia : LexemeKind → Bool
  | .blank | .comment | .lineBreak | .continuation => true
  | _ => false

namespace Lexeme

/-! ### The cases of scanning -/

/-- What may be scanned from a text that begins with `first`. -/
inductive Scans (first : Char) (rest : List Char) : Lexeme → Prop where
  | blank (isBlank : isInlineBlank first = true) :
      Scans first rest ⟨.blank, (first :: rest).takeWhile isInlineBlank⟩
  | lineBreak (isBreak : first = '\n') : Scans first rest ⟨.lineBreak, ['\n']⟩
  | comment (isMark : first = '#') :
      Scans first rest ⟨.comment, (first :: rest).takeWhile (· != '\n')⟩
  | backslash (isMark : first = '\\') : Scans first rest (backslash rest)
  | literal {lexeme : Lexeme} (found : literal? (first :: rest) = some lexeme) :
      Scans first rest lexeme
  | number {lexeme : Lexeme} (found : number? (first :: rest) = some lexeme) :
      Scans first rest lexeme
  | word : Scans first rest ⟨.word, first :: rest.takeWhile Text.isIdentifierContinue⟩
  | symbol {lexeme : Lexeme} (found : symbol? (first :: rest) = some lexeme) :
      Scans first rest lexeme
  | stray : Scans first rest ⟨.stray, [first]⟩

theorem scans_scan (first : Char) (rest : List Char) : Scans first rest (scan first rest) := by
  unfold scan
  dsimp only
  split
  next isBlank => exact .blank isBlank
  split
  next isBreak => exact .lineBreak (by simpa using isBreak)
  split
  next isMark => exact .comment (by simpa using isMark)
  split
  next isMark => exact .backslash (by simpa using isMark)
  split
  next lexeme found =>
    rcases Option.or_eq_some_iff.mp found with inLiteral | ⟨_, inNumber⟩
    · exact .literal inLiteral
    · exact .number inNumber
  split
  next => exact .word
  cases found : symbol? (first :: rest) with
  | some lexeme => exact .symbol found
  | none => exact .stray

/-! ### A lexeme is the beginning of its text -/

/-- Two pieces, the second taken from what the first left. -/
theorem append_isPrefix {front next input : List Char} (isFront : front <+: input)
    (isNext : next <+: input.drop front.length) : front ++ next <+: input := by
  obtain ⟨rest, rfl⟩ := isFront
  rw [List.drop_left] at isNext
  exact (List.prefix_append_right_inj front).mpr isNext

private theorem exponentPart_isPrefix (input : List Char) : exponentPart input <+: input := by
  cases input with
  | nil => exact List.nil_prefix
  | cons mark rest =>
      simp only [exponentPart]
      split
      · split
        · exact List.nil_prefix
        · rw [List.prefix_cons_inj]
          refine append_isPrefix ?_ (List.takeWhile_prefix _)
          cases rest with
          | nil => exact List.nil_prefix
          | cons sign digits =>
              rw [List.take_succ_cons, List.take_zero, List.filter_singleton]
              cases sign == '+' || sign == '-' <;> simp
      · exact List.nil_prefix

/-- The digits after a point and the exponent after them. -/
private theorem fraction_isPrefix (rest : List Char) :
    rest.takeWhile (isDigitOrSeparator 10) ++
      exponentPart (rest.drop (rest.takeWhile (isDigitOrSeparator 10)).length) <+: rest :=
  append_isPrefix (List.takeWhile_prefix _) (exponentPart_isPrefix _)

private theorem markedInteger?_isPrefix {input : List Char} {lexeme : Lexeme}
    (found : markedInteger? input = some lexeme) :
    lexeme.text <+: input ∧ lexeme.text ≠ [] := by
  have digits (kind : LexemeKind) (radix : Nat) (mark : Char) (rest : List Char)
      (taken : (if (rest.takeWhile (isDigitOrSeparator radix)).isEmpty then none
        else some (⟨kind, '0' :: mark :: rest.takeWhile (isDigitOrSeparator radix)⟩ : Lexeme)) =
          some lexeme) :
      lexeme.text <+: '0' :: mark :: rest ∧ lexeme.text ≠ [] := by
    split at taken
    · simp at taken
    · obtain rfl := Option.some.inj taken
      exact ⟨by simpa using List.takeWhile_prefix _, by simp⟩
  unfold markedInteger? at found
  split at found
  next mark rest =>
    dsimp only at found
    split at found
    · exact digits _ _ _ _ found
    · split at found
      · exact digits _ _ _ _ found
      · split at found
        · exact digits _ _ _ _ found
        · simp at found
  next => simp at found

private theorem decimalNumber_isPrefix {first : Char} {rest : List Char}
    (isDigit : first.isDigit = true) :
    (decimalNumber (first :: rest)).text <+: first :: rest ∧
      (decimalNumber (first :: rest)).text ≠ [] := by
  have whole := List.takeWhile_prefix (l := first :: rest) (isDigitOrSeparator 10)
  have nonempty : (first :: rest).takeWhile (isDigitOrSeparator 10) ≠ [] := by
    rw [List.takeWhile_cons_of_pos (isDigitOrSeparator_of_isDigit isDigit)]
    simp
  unfold decimalNumber
  dsimp only
  split
  next fraction shape =>
    refine ⟨append_isPrefix whole ?_, by simp⟩
    rw [shape, List.prefix_cons_inj]
    exact fraction_isPrefix fraction
  next =>
    split
    · exact ⟨whole, nonempty⟩
    · exact ⟨append_isPrefix whole (exponentPart_isPrefix _), by simp [nonempty]⟩

private theorem number?_isPrefix {input : List Char} {lexeme : Lexeme}
    (found : number? input = some lexeme) : lexeme.text <+: input ∧ lexeme.text ≠ [] := by
  unfold number? at found
  split at found
  next first rest =>
    split at found
    next isDigit =>
      obtain rfl := Option.some.inj found
      cases marked : markedInteger? (first :: rest) with
      | some lexeme => exact markedInteger?_isPrefix marked
      | none => exact decimalNumber_isPrefix isDigit
    next =>
      split at found
      next isPoint =>
        obtain rfl := Option.some.inj found
        obtain ⟨isPoint, _⟩ : first = '.' ∧ _ := by simpa using isPoint
        subst isPoint
        refine ⟨?_, by simp [pointedNumber]⟩
        rw [pointedNumber, List.prefix_cons_inj]
        exact fraction_isPrefix rest
      next => simp at found
  next => simp at found

theorem literalBody_isPrefix (quote : Char) (input : List Char) :
    literalBody quote input <+: input := by
  fun_induction literalBody quote input with
  | case1 => exact List.nil_prefix
  | case2 escaped rest _ inductionHypothesis => simpa using inductionHypothesis
  | case3 => exact List.nil_prefix
  | case4 character rest _ _ inductionHypothesis => simpa using inductionHypothesis
  | case5 => exact List.nil_prefix

private theorem literal?_isPrefix {input : List Char} {lexeme : Lexeme}
    (found : literal? input = some lexeme) : lexeme.text <+: input ∧ lexeme.text ≠ [] := by
  unfold literal? at found
  have letters : (input.take 2).takeWhile (!isQuote ·) <+: input :=
    (List.takeWhile_prefix _).trans (List.take_prefix 2 input)
  generalize (input.take 2).takeWhile (!isQuote ·) = front at found letters
  dsimp only at found
  split at found
  next quote rest shape =>
    split at found
    next =>
      have body := literalBody_isPrefix quote rest
      have opened : front ++ quote :: literalBody quote rest <+: input := by
        refine append_isPrefix letters ?_
        rw [shape, List.prefix_cons_inj]
        exact body
      have closed (isClosed : (rest.drop (literalBody quote rest).length).head? = some quote) :
          front ++ quote :: literalBody quote rest ++ [quote] <+: input := by
        rw [List.append_assoc]
        refine append_isPrefix letters ?_
        rw [shape, List.cons_append, List.prefix_cons_inj]
        refine append_isPrefix body ?_
        rw [List.head?_eq_some_iff] at isClosed
        obtain ⟨others, isClosed⟩ := isClosed
        simp [isClosed]
      unfold quoted? at found
      dsimp only at found
      split at found
      · obtain rfl := Option.some.inj found
        split
        next isClosed => exact ⟨closed (by simpa using isClosed), by simp⟩
        next => exact ⟨opened, by simp⟩
      · split at found
        · obtain rfl := Option.some.inj found
          split
          next isClosed => exact ⟨closed (by simpa using isClosed), by simp⟩
          next => exact ⟨opened, by simp⟩
        · simp at found
    next => simp at found
  next => simp at found

private theorem symbol?_isPrefix {input : List Char} {lexeme : Lexeme}
    (found : symbol? input = some lexeme) : lexeme.text <+: input ∧ lexeme.text ≠ [] := by
  obtain ⟨entry, isFound, rfl⟩ := Option.map_eq_some_iff.mp found
  have fits : entry.1.toList <+: input := by
    simpa [List.isPrefixOf_iff_prefix] using List.find?_some isFound
  have nonempty : symbolTable.all (fun entry => !entry.1.toList.isEmpty) = true := by decide
  have here := List.all_eq_true.mp nonempty entry (List.mem_of_find?_eq_some isFound)
  exact ⟨fits, by simpa using here⟩

private theorem backslash_isPrefix (rest : List Char) :
    (backslash rest).text <+: '\\' :: rest ∧ (backslash rest).text ≠ [] := by
  have margin := List.takeWhile_prefix (l := rest) isSpaceOrTab
  unfold backslash
  dsimp only
  split
  next shape =>
    refine ⟨?_, by simp⟩
    rw [List.prefix_cons_inj]
    exact append_isPrefix margin (by simp [shape])
  next shape =>
    refine ⟨?_, by simp⟩
    rw [List.prefix_cons_inj]
    exact append_isPrefix margin (by simp [shape])
  next => exact ⟨by simpa using margin, by simp⟩

/-- What may be scanned is a beginning of the text, and not empty. -/
theorem Scans.isPrefix {first : Char} {rest : List Char} {lexeme : Lexeme}
    (scans : Scans first rest lexeme) : lexeme.text <+: first :: rest ∧ lexeme.text ≠ [] := by
  cases scans with
  | blank isBlank =>
      exact ⟨List.takeWhile_prefix _, by simp [List.takeWhile_cons_of_pos isBlank]⟩
  | lineBreak isBreak => exact ⟨by simp [isBreak], by simp⟩
  | comment isMark =>
      subst isMark
      exact ⟨List.takeWhile_prefix _, by simp⟩
  | backslash isMark =>
      subst isMark
      exact backslash_isPrefix rest
  | literal found => exact literal?_isPrefix found
  | number found => exact number?_isPrefix found
  | word => exact ⟨by simpa using List.takeWhile_prefix _, by simp⟩
  | symbol found => exact symbol?_isPrefix found
  | stray => exact ⟨by simp, by simp⟩

/-! ### The lexemes of a text -/

/-- A text is cut into lexemes, each scanned from what the ones before it left. -/
inductive Cuts : List Char → List Lexeme → Prop where
  | none : Cuts [] []
  | more {first : Char} {taken rest : List Char} {kind : LexemeKind} {lexemes : List Lexeme}
      (scanned : scan first (taken ++ rest) = ⟨kind, first :: taken⟩) (others : Cuts rest lexemes) :
      Cuts (first :: (taken ++ rest)) (⟨kind, first :: taken⟩ :: lexemes)

theorem cuts_split (text : List Char) : Cuts text (split text) := by
  induction length : text.length using Nat.strongRecOn generalizing text with
  | ind size inductionHypothesis =>
      cases text with
      | nil => exact .none
      | cons first others =>
          obtain ⟨⟨rest, shape⟩, nonempty⟩ := (scans_scan first others).isPrefix
          cases scanned : scan first others with
          | mk kind text =>
              rw [scanned] at shape nonempty
              obtain ⟨start, taken, rfl⟩ := List.exists_cons_of_ne_nil nonempty
              obtain ⟨rfl, rfl⟩ : start = first ∧ taken ++ rest = others := by simpa using shape
              rw [split_append scanned]
              refine .more scanned (inductionHypothesis rest.length ?_ rest rfl)
              rw [← length, List.length_cons, List.length_append]
              omega

theorem Cuts.flatMap_text {text : List Char} {lexemes : List Lexeme} (cuts : Cuts text lexemes) :
    lexemes.flatMap Lexeme.text = text := by
  induction cuts with
  | none => rfl
  | more _ _ inductionHypothesis => simp [inductionHypothesis]

/-- Each lexeme is scanned from itself and what follows it. -/
theorem Cuts.scan_of_append {text : List Char} {before after : List Lexeme} {lexeme : Lexeme}
    (cuts : Cuts text (before ++ lexeme :: after)) :
    ∃ first taken, lexeme.text = first :: taken ∧
      scan first (taken ++ after.flatMap Lexeme.text) = lexeme := by
  induction before generalizing text with
  | nil =>
      cases cuts with
      | more scanned others => exact ⟨_, _, rfl, by rw [others.flatMap_text, scanned]⟩
  | cons head rest inductionHypothesis =>
      cases cuts with
      | more _ others => exact inductionHypothesis others

/-! ### Lexemes that stand for no token -/

/-- What lexemes that stand for no token look like, with the text after them. A comment
goes to the end of its line. -/
inductive Trivia : LexemeKind → List Char → List Char → Prop where
  | blank {text after : List Char} (all : ∀ character ∈ text, isInlineBlank character = true) :
      Trivia .blank text after
  | comment {body after : List Char} (inLine : '\n' ∉ body)
      (toEnd : ∀ next ∈ after.head?, next = '\n') :
      Trivia .comment ('#' :: body) after
  | continuation {margin ending after : List Char}
      (all : ∀ character ∈ margin, isSpaceOrTab character = true)
      (ends : ending = ['\n'] ∨ ending = ['\r', '\n']) :
      Trivia .continuation ('\\' :: (margin ++ ending)) after
  | lineBreak {after : List Char} : Trivia .lineBreak ['\n'] after

theorem Trivia.text_of_lineBreak {text after : List Char} (trivia : Trivia .lineBreak text after) :
    text = ['\n'] := by
  cases trivia
  rfl

private theorem isTrivia_literal? {input : List Char} {lexeme : Lexeme}
    (found : literal? input = some lexeme) : lexeme.kind.isTrivia = false :=
  eq_false_of_mem_kinds (kind_literal? found) rfl

private theorem isTrivia_number? {input : List Char} {lexeme : Lexeme}
    (found : number? input = some lexeme) : lexeme.kind.isTrivia = false :=
  eq_false_of_mem_kinds (kind_number? found) rfl

private theorem isTrivia_symbol? {input : List Char} {lexeme : Lexeme}
    (found : symbol? input = some lexeme) : lexeme.kind.isTrivia = false := by
  obtain ⟨entry, _, rfl⟩ := Option.map_eq_some_iff.mp found
  rfl

/-- A symbol stands for a token of the table. -/
theorem Scans.mem_symbolTable {first : Char} {rest : List Char} {lexeme : Lexeme}
    {token : TokenKind} (scans : Scans first rest lexeme) (isSymbol : lexeme.kind = .symbol token) :
    token ∈ symbolTable.map (·.2) := by
  cases scans with
  | backslash => simpa [isSymbol] using kind_backslash rest
  | literal found => simpa [isSymbol] using kind_literal? found
  | number found => simpa [isSymbol] using kind_number? found
  | symbol found =>
      obtain ⟨entry, isFound, rfl⟩ := Option.map_eq_some_iff.mp found
      obtain rfl := LexemeKind.symbol.inj isSymbol
      exact List.mem_map_of_mem (List.mem_of_find?_eq_some isFound)
  | blank => contradiction
  | lineBreak => contradiction
  | comment => contradiction
  | word => contradiction
  | stray => contradiction

/-- What follows characters that were taken as far as possible begins with another one. -/
theorem takes_eq_false_of_takeWhile {takes : Char → Bool} {text rest : List Char}
    (shape : text = text.takeWhile takes ++ rest) : ∀ next ∈ rest.head?, takes next = false := by
  have dropped : rest = text.dropWhile takes := by
    have whole : text.takeWhile takes ++ rest = text.takeWhile takes ++ text.dropWhile takes := by
      rw [← shape, List.takeWhile_append_dropWhile]
    exact List.append_cancel_left whole
  rw [dropped]
  intro next member
  simpa [Option.mem_def.mp member] using List.head?_dropWhile_not takes text

private theorem trivia_backslash (input rest : List Char)
    (isTrivia : (backslash input).kind.isTrivia = true) :
    Trivia (backslash input).kind (backslash input).text rest := by
  have margin := List.all_eq_true.mp (List.all_takeWhile (p := isSpaceOrTab) (l := input))
  unfold backslash at *
  dsimp only at *
  split at isTrivia
  next => exact .continuation margin (.inl rfl)
  next => exact .continuation margin (.inr rfl)
  next => simp [LexemeKind.isTrivia] at isTrivia

/-- A backslash before a line break is a continuation, with either line ending. -/
theorem scan_continuation {margin ending : List Char}
    (all : ∀ character ∈ margin, isSpaceOrTab character = true)
    (ends : ending = ['\n'] ∨ ending = ['\r', '\n']) (more : List Char) :
    scan '\\' (margin ++ ending ++ more) = ⟨.continuation, '\\' :: (margin ++ ending)⟩ := by
  rw [List.append_assoc]
  change backslash (margin ++ (ending ++ more)) = _
  rcases ends with rfl | rfl
  · rw [backslash, Text.takeWhile_run all (by simp [isSpaceOrTab]), List.drop_left]
    rfl
  · rw [backslash, Text.takeWhile_run all (by simp [isSpaceOrTab]), List.drop_left]
    rfl

/-- A lexeme that stands for no token has the look of its kind. -/
theorem Scans.trivia {first : Char} {input rest : List Char} {lexeme : Lexeme}
    (scans : Scans first input lexeme) (shape : first :: input = lexeme.text ++ rest)
    (isTrivia : lexeme.kind.isTrivia = true) : Trivia lexeme.kind lexeme.text rest := by
  cases scans with
  | blank isBlank =>
      exact .blank (List.all_eq_true.mp List.all_takeWhile)
  | lineBreak isBreak => exact .lineBreak
  | comment isMark =>
      subst isMark
      have ends : ∀ next ∈ rest.head?, (next != '\n') = false := takes_eq_false_of_takeWhile shape
      rw [List.takeWhile_cons_of_pos (by decide)]
      refine .comment ?_ fun next member => by simpa using ends next member
      intro member
      simpa using List.all_eq_true.mp List.all_takeWhile _ member
  | backslash isMark => exact trivia_backslash input rest isTrivia
  | literal found => simp [isTrivia_literal? found] at isTrivia
  | number found => simp [isTrivia_number? found] at isTrivia
  | word => simp [LexemeKind.isTrivia] at isTrivia
  | symbol found => simp [isTrivia_symbol? found] at isTrivia
  | stray => simp [LexemeKind.isTrivia] at isTrivia

/-- Wherever a text is cut, lexemes that stand for no token have the look of their kind. -/
theorem Cuts.trivia {text : List Char} {before after : List Lexeme} {lexeme : Lexeme}
    (cuts : Cuts text (before ++ lexeme :: after)) (isTrivia : lexeme.kind.isTrivia = true) :
    Trivia lexeme.kind lexeme.text (after.flatMap Lexeme.text) := by
  obtain ⟨first, taken, shape, scanned⟩ := cuts.scan_of_append
  have scans := scans_scan first (taken ++ after.flatMap Lexeme.text)
  rw [scanned] at scans
  exact scans.trivia (by rw [shape, List.cons_append]) isTrivia

end Lexeme
end Transpiler
