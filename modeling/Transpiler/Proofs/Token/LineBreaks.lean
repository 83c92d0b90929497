import Transpiler.Proofs.Token.Scanning

/-!
Contract: no lexeme reaches over a line break that is put after its text.

Owns: the first line of a text; that every part of a lexeme is the same with and without a line
break, and any text after it, behind the text that it is scanned from; and so the lexemes of two
texts with a line break between them. Numbers and symbols end at a carriage return as well.

A backslash is the one exception: at the end of a text it is stray, and a line break makes
it a continuation. But what follows the line break makes no difference to it.
-/

namespace Transpiler

/-- A text is one line, or a line and what follows its line feed. -/
theorem Text.exists_line (text : List Char) :
    ∃ line, '\n' ∉ line ∧ (text = line ∨ ∃ more, text = line ++ '\n' :: more) := by
  induction text with
  | nil => exact ⟨[], by simp, .inl rfl⟩
  | cons first rest inductionHypothesis =>
      by_cases isBreak : first = '\n'
      · exact ⟨[], by simp, .inr ⟨rest, by rw [isBreak]; rfl⟩⟩
      · obtain ⟨line, oneLine, shape⟩ := inductionHypothesis
        refine ⟨first :: line, by simp [Ne.symm isBreak, oneLine], ?_⟩
        rcases shape with rfl | ⟨more, rfl⟩
        · exact .inl rfl
        · exact .inr ⟨more, rfl⟩

namespace Lexeme

section Marks

variable (text more : List Char)

/-! ### Parts of a lexeme -/

theorem takeWhile_append_mark {takes : Char → Bool} {mark : Char} (stops : takes mark = false) :
    (text ++ mark :: more).takeWhile takes = text.takeWhile takes := by
  induction text with
  | nil => simp [stops]
  | cons first rest inductionHypothesis =>
      rw [List.cons_append, List.takeWhile_cons, List.takeWhile_cons, inductionHypothesis]

theorem drop_takeWhile_append (takes : Char → Bool) :
    (text ++ more).drop (text.takeWhile takes).length =
      text.drop (text.takeWhile takes).length ++ more :=
  List.drop_append_of_le_length (List.takeWhile_prefix _).length_le

variable {mark : Char} (ends : mark = '\n' ∨ mark = '\r')
include ends

theorem takeWhile_digits_append_mark (radix : Nat) :
    (text ++ mark :: more).takeWhile (isDigitOrSeparator radix) =
      text.takeWhile (isDigitOrSeparator radix) := by
  apply takeWhile_append_mark
  rcases ends with rfl | rfl <;> rfl

private theorem exponentPart_append_mark :
    exponentPart (text ++ mark :: more) = exponentPart text := by
  cases text with
  | nil => rcases ends with rfl | rfl <;> rfl
  | cons first rest =>
      have sign : ((rest ++ mark :: more).take 1).filter (fun c => c == '+' || c == '-') =
          (rest.take 1).filter (fun c => c == '+' || c == '-') := by
        cases rest with
        | nil => rcases ends with rfl | rfl <;> rfl
        | cons => rfl
      have within : ((rest.take 1).filter (fun c => c == '+' || c == '-')).length ≤ rest.length :=
        (List.length_filter_le _ _).trans (List.length_take_le' 1 rest)
      simp only [List.cons_append, exponentPart, sign, List.drop_append_of_le_length within,
        takeWhile_digits_append_mark _ _ ends]

private theorem markedInteger?_append_mark :
    markedInteger? (text ++ mark :: more) = markedInteger? text := by
  match text with
  | [] => rcases ends with rfl | rfl <;> rfl
  | [first] =>
      by_cases isZero : first = '0'
      · subst isZero
        rcases ends with rfl | rfl <;> rfl
      · simp [markedInteger?, isZero]
  | first :: second :: rest =>
      by_cases isZero : first = '0'
      · subst isZero
        simp only [List.cons_append, markedInteger?, takeWhile_digits_append_mark _ _ ends]
      · simp [markedInteger?, isZero]

private theorem decimalNumber_append_mark :
    decimalNumber (text ++ mark :: more) = decimalNumber text := by
  simp only [decimalNumber, takeWhile_digits_append_mark _ _ ends, drop_takeWhile_append]
  cases text.drop (text.takeWhile (isDigitOrSeparator 10)).length with
  | nil => rcases ends with rfl | rfl <;> rfl
  | cons next others =>
      by_cases isPoint : next = '.'
      · subst isPoint
        simp only [List.cons_append, takeWhile_digits_append_mark _ _ ends, drop_takeWhile_append,
          exponentPart_append_mark _ _ ends]
      · have exponent := exponentPart_append_mark (next :: others) more ends
        rw [List.cons_append] at exponent ⊢
        simp [isPoint, exponent]

/-! ### Numbers and symbols -/

theorem number?_append_mark : number? (text ++ mark :: more) = number? text := by
  cases text with
  | nil => rcases ends with rfl | rfl <;> rfl
  | cons first rest =>
      have head : ((rest ++ mark :: more).head?.map Char.isDigit).getD false =
          (rest.head?.map Char.isDigit).getD false := by
        cases rest with
        | nil => rcases ends with rfl | rfl <;> rfl
        | cons => rfl
      have pointed : pointedNumber (rest ++ mark :: more) = pointedNumber rest := by
        simp only [pointedNumber, takeWhile_digits_append_mark _ _ ends, drop_takeWhile_append,
          exponentPart_append_mark _ _ ends]
      rw [List.cons_append, number?, number?, head, pointed, ← List.cons_append,
        markedInteger?_append_mark _ _ ends, decimalNumber_append_mark _ _ ends]

omit ends in
private theorem isPrefixOf_append_mark {front : List Char} (noMark : mark ∉ front) :
    front.isPrefixOf (text ++ mark :: more) = front.isPrefixOf text := by
  induction front generalizing text with
  | nil => simp
  | cons first others inductionHypothesis =>
      simp only [List.mem_cons, not_or] at noMark
      cases text with
      | nil => simp [List.isPrefixOf, Ne.symm noMark.1]
      | cons next rest =>
          rw [List.cons_append, List.isPrefixOf, List.isPrefixOf,
            inductionHypothesis rest noMark.2]

theorem symbol?_append_mark : symbol? (text ++ mark :: more) = symbol? text := by
  have noMarks : symbolTable.all (fun entry => !entry.1.toList.contains mark) = true := by
    rcases ends with rfl | rfl <;> decide
  rw [symbol?, symbol?, ← List.head?_filter, ← List.head?_filter]
  congr 2
  refine List.filter_congr fun entry member => isPrefixOf_append_mark text more ?_
  simpa using List.all_eq_true.mp noMarks entry member

end Marks

section LineBreaks

variable (text more : List Char)

/-! ### Literals -/

private theorem literalBody_append_lineBreak (quote : Char) :
    literalBody quote (text ++ '\n' :: more) = literalBody quote text := by
  fun_induction literalBody quote text with
  | case1 escaped rest isBreak => simp [literalBody, isBreak]
  | case2 escaped rest notBreak inductionHypothesis =>
      simp [literalBody, notBreak, inductionHypothesis]
  | case3 character rest notPair stops =>
      rw [List.cons_append]
      cases rest with
      | nil =>
          unfold literalBody
          grind
      | cons =>
          rw [literalBody]
          · simp [stops]
          · grind
  | case4 character rest notPair goes inductionHypothesis =>
      simp only [Bool.or_eq_true, not_or] at goes
      rw [List.cons_append, literalBody]
      · simp [goes, inductionHypothesis]
      · grind
  | case5 => simp [literalBody]

private theorem quoted?_append_lineBreak (letters : List Char) {quote : Char}
    (opens : isQuote quote = true) :
    quoted? letters quote (text ++ '\n' :: more) = quoted? letters quote text := by
  have notBreak : '\n' ≠ quote := by
    rintro rfl
    contradiction
  have closed :
      (((text ++ '\n' :: more).drop (literalBody quote text).length).head? == some quote) =
        ((text.drop (literalBody quote text).length).head? == some quote) := by
    rw [List.drop_append_of_le_length (literalBody_isPrefix quote text).length_le]
    cases text.drop (literalBody quote text).length with
    | nil => simp [notBreak]
    | cons => rfl
  simp only [quoted?, literalBody_append_lineBreak, closed]

private theorem literal?_append_lineBreak : literal? (text ++ '\n' :: more) = literal? text := by
  have plainBreak : isQuote '\n' = false := by decide
  match text with
  | [] => exact literal?_eq_none_of_first more plainBreak (by decide)
  | [first] =>
      cases opens : isQuote first with
      | true =>
          have quoted := quoted?_append_lineBreak [] more [] opens
          simpa [literal?, opens] using quoted
      | false =>
          -- The line break counts as a letter, and is a letter of no mark.
          have noMark (quote : Char) (rest : List Char) :
              quoted? [first, '\n'] quote rest = none :=
            quoted?_eq_none (by simp [plainMarks]) (by simp [formattedMarks])
          cases more with
          | nil => simp [literal?, opens, plainBreak]
          | cons next others => simp [literal?, opens, plainBreak, noMark]
  | first :: second :: rest =>
      have letters : ((first :: second :: rest ++ '\n' :: more).take 2) =
          (first :: second :: rest).take 2 := rfl
      have within : (((first :: second :: rest).take 2).takeWhile (!isQuote ·)).length ≤
          (first :: second :: rest).length :=
        ((List.takeWhile_prefix _).trans (List.take_prefix 2 _)).length_le
      simp only [literal?, letters, List.drop_append_of_le_length within]
      cases (first :: second :: rest).drop
          (((first :: second :: rest).take 2).takeWhile (!isQuote ·)).length with
      | nil => simp [plainBreak]
      | cons quote others =>
          cases opens : isQuote quote with
          | true => simp [opens, quoted?_append_lineBreak others more _ opens]
          | false => simp [opens]

/-! ### Lexemes of every kind -/

private theorem backslash_append_lineBreak (closed : (backslash text).kind ≠ .stray) :
    backslash (text ++ '\n' :: more) = backslash text := by
  have margin := takeWhile_append_mark text more (show isSpaceOrTab '\n' = false by decide)
  unfold backslash at *
  dsimp only at *
  rw [margin, drop_takeWhile_append]
  split at closed
  next shape =>
    rw [shape]
    rfl
  next shape =>
    rw [shape]
    rfl
  next => exact absurd rfl closed

/-- A lexeme does not reach over a line break that is put after its text. -/
theorem scan_append_lineBreak_of_ne {first : Char} (rest : List Char) (notMark : first ≠ '\\') :
    scan first (rest ++ '\n' :: more) = scan first rest := by
  have whole : first :: (rest ++ '\n' :: more) = (first :: rest) ++ '\n' :: more := rfl
  have blanks := takeWhile_append_mark (first :: rest) more
    (show isInlineBlank '\n' = false by decide)
  have comment : ((first :: rest) ++ '\n' :: more).takeWhile (· != '\n') =
      (first :: rest).takeWhile (· != '\n') :=
    takeWhile_append_mark (first :: rest) more (by decide)
  have word := takeWhile_append_mark rest more
    (show Text.isIdentifierContinue '\n' = false by decide)
  simp only [scan, whole, blanks, comment, word, literal?_append_lineBreak,
    number?_append_mark _ _ (.inl rfl), symbol?_append_mark _ _ (.inl rfl), beq_iff_eq, notMark,
    if_false]

/-- The same for a backslash, unless it is stray. -/
private theorem scan_append_lineBreak (first : Char) (rest : List Char)
    (closed : (scan first rest).kind ≠ .stray) :
    scan first (rest ++ '\n' :: more) = scan first rest := by
  by_cases isMark : first = '\\'
  · subst isMark
    exact backslash_append_lineBreak rest more closed
  · exact scan_append_lineBreak_of_ne more rest isMark

end LineBreaks

theorem split_cons_lineBreak (more : List Char) :
    split ('\n' :: more) = ⟨.lineBreak, ['\n']⟩ :: split more :=
  split_append (show scan '\n' ([] ++ more) = _ from rfl)

/-- The lexemes before and after a line break are those of the two texts, unless the first
text has a stray one. -/
theorem split_append_lineBreak {text : List Char} (more : List Char)
    (closed : ∀ lexeme ∈ split text, lexeme.kind ≠ .stray) :
    split (text ++ '\n' :: more) = split text ++ ⟨.lineBreak, ['\n']⟩ :: split more := by
  have cuts := cuts_split text
  generalize split text = lexemes at closed cuts
  induction cuts with
  | none => exact split_cons_lineBreak more
  | @more first taken rest kind lexemes scanned _ inductionHypothesis =>
      have here : (scan first (taken ++ rest)).kind ≠ .stray := by
        rw [scanned]
        exact closed _ List.mem_cons_self
      have scannedAgain :
          scan first (taken ++ (rest ++ '\n' :: more)) = ⟨kind, first :: taken⟩ := by
        rw [← List.append_assoc, scan_append_lineBreak more first (taken ++ rest) here, scanned]
      rw [List.cons_append, List.append_assoc, split_append scannedAgain,
        inductionHypothesis fun lexeme member => closed lexeme (List.mem_cons_of_mem _ member),
        List.cons_append]

/-! ### What follows a line break -/

private theorem backslash_lineBreak (text more others : List Char) :
    backslash (text ++ '\n' :: more) = backslash (text ++ '\n' :: others) := by
  have margin (rest : List Char) :=
    takeWhile_append_mark text rest (show isSpaceOrTab '\n' = false by decide)
  simp only [backslash, margin, drop_takeWhile_append]
  cases text.drop (text.takeWhile isSpaceOrTab).length with
  | nil => rfl
  | cons first rest =>
      by_cases isReturn : first = '\r'
      · subst isReturn
        cases rest with
        | nil => rfl
        | cons second rest => by_cases isBreak : second = '\n' <;> simp [isBreak]
      · by_cases isBreak : first = '\n' <;> simp [isBreak, isReturn]

/-- What follows a line break plays no part in the lexemes before it. -/
private theorem scan_lineBreak (first : Char) (rest more others : List Char) :
    scan first (rest ++ '\n' :: more) = scan first (rest ++ '\n' :: others) := by
  by_cases isMark : first = '\\'
  · subst isMark
    exact backslash_lineBreak rest more others
  · rw [scan_append_lineBreak_of_ne more rest isMark,
      scan_append_lineBreak_of_ne others rest isMark]

/-- Where a line break is a lexeme of its own, the text after it can be exchanged. -/
theorem Cuts.split_lineBreak {text : List Char} {before after : List Lexeme}
    (cuts : Cuts text (before ++ ⟨.lineBreak, ['\n']⟩ :: after)) (others : List Char) :
    split (before.flatMap Lexeme.text ++ '\n' :: others) =
      before ++ ⟨.lineBreak, ['\n']⟩ :: split others := by
  induction before generalizing text with
  | nil => exact split_cons_lineBreak others
  | cons lexeme before inductionHypothesis =>
      cases cuts with
      | @more first taken rest kind _ scanned further =>
          have shape : rest = before.flatMap Lexeme.text ++ '\n' :: after.flatMap Lexeme.text := by
            rw [← further.flatMap_text]
            simp
          rw [shape, ← List.append_assoc, scan_lineBreak _ _ _ others, List.append_assoc] at scanned
          rw [List.flatMap_cons, List.cons_append, List.cons_append, List.append_assoc,
            split_append scanned, inductionHypothesis further, List.cons_append]

/-- The lexemes of a text that ends with a line break, and of what follows it. -/
theorem split_append_line (text more : List Char) :
    split (text ++ '\n' :: more) = split (text ++ ['\n']) ++ split more := by
  have cuts := cuts_split (text ++ ['\n'])
  generalize split (text ++ ['\n']) = lexemes at cuts
  rw [List.append_cons]
  generalize shape : text ++ ['\n'] = line at cuts ⊢
  induction cuts generalizing text with
  | none => simp at shape
  | @more first taken rest kind lexemes scanned others inductionHypothesis =>
      have again : scan first (taken ++ (rest ++ more)) = ⟨kind, first :: taken⟩ := by
        rw [← List.append_assoc]
        cases text with
        | nil =>
            obtain ⟨rfl, _⟩ := List.cons.inj shape
            exact scanned
        | cons start text =>
            obtain ⟨_, (inner : text ++ ['\n'] = taken ++ rest)⟩ := List.cons.inj shape
            rw [← inner] at scanned ⊢
            rw [List.append_assoc, ← scanned]
            exact scan_lineBreak first text more []
      rw [List.cons_append, List.append_assoc, split_append again, List.cons_append]
      rcases List.eq_nil_or_concat rest with rfl | ⟨inner, last, isLast⟩
      · cases others
        rfl
      · rw [List.concat_eq_append] at isLast
        subst isLast
        rw [← List.append_assoc, ← List.cons_append] at shape
        rw [inductionHypothesis inner (by rw [(List.append_inj' shape rfl).2])]

end Lexeme
end Transpiler
