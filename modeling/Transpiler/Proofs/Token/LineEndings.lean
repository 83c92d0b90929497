import Transpiler.Proofs.Token.Alike

/-!
Contract: line endings do not matter.

Owns: texts with a carriage return put before every line feed (`Text.crlf`), and that they have
tokens of the same kinds, or the same kind of error, as long as there was no carriage return
before.

A carriage return before a line feed is a blank between lexemes. It becomes part of a comment, a
continuation or a literal that is not closed, none of which is told apart by it.
-/

namespace Transpiler

/-! ### Carriage returns before line feeds -/

/-- The text with a carriage return before every line feed. -/
def Text.crlf (text : List Char) : List Char :=
  text.flatMap fun character => if character = '\n' then ['\r', '\n'] else [character]

namespace Text

@[simp] theorem crlf_nil : crlf [] = [] := rfl

theorem crlf_cons_lineFeed (rest : List Char) : crlf ('\n' :: rest) = '\r' :: '\n' :: crlf rest :=
  rfl

theorem crlf_append (front back : List Char) : crlf (front ++ back) = crlf front ++ crlf back :=
  List.flatMap_append

theorem crlf_of_oneLine {line : List Char} (oneLine : '\n' ∉ line) : crlf line = line := by
  induction line with
  | nil => rfl
  | cons first rest inductionHypothesis =>
      simp only [List.mem_cons, not_or] at oneLine
      simp [crlf, Ne.symm oneLine.1] at *
      exact inductionHypothesis oneLine.2

theorem byteLength_le_crlf (text : List Char) : byteLength text ≤ byteLength (crlf text) := by
  induction text with
  | nil => exact Nat.le_refl _
  | cons first rest inductionHypothesis =>
      rw [← List.singleton_append, crlf_append, byteLength_append, byteLength_append]
      by_cases isBreak : first = '\n'
      · subst isBreak
        exact Nat.add_le_add (by decide) inductionHypothesis
      · rw [crlf_of_oneLine (by simpa using Ne.symm isBreak)]
        exact Nat.add_le_add_left inductionHypothesis _

end Text

namespace Lexeme

private theorem split_cons (first : Char) (rest : List Char) :
    split (first :: rest) =
      scan first rest :: split (rest.drop ((scan first rest).text.length - 1)) := by
  rw [← splitFrom_eq_split_drop]
  rfl

/-! ### Backslashes -/

/-- The spaces and tabs at the front of a text. -/
theorem exists_margin (text : List Char) :
    ∃ margin after, text = margin ++ after ∧
      (∀ character ∈ margin, isSpaceOrTab character = true) ∧
      ∀ next ∈ after.head?, isSpaceOrTab next = false := by
  have shape := (@List.takeWhile_append_dropWhile _ isSpaceOrTab text).symm
  exact ⟨_, _, shape, List.all_eq_true.mp List.all_takeWhile, takes_eq_false_of_takeWhile shape⟩

section Backslash

variable {margin : List Char} (all : ∀ character ∈ margin, isSpaceOrTab character = true)
include all

private theorem split_continuation {ending : List Char}
    (ends : ending = ['\n'] ∨ ending = ['\r', '\n']) (more : List Char) :
    split ('\\' :: (margin ++ (ending ++ more))) =
      ⟨.continuation, '\\' :: (margin ++ ending)⟩ :: split more := by
  rw [← List.append_assoc]
  exact split_append (scan_continuation all ends more)

/-- A backslash before anything else is stray. -/
private theorem scan_strayBackslash {next : Char} {more : List Char}
    (notSpace : isSpaceOrTab next = false) (notBreak : next ≠ '\n') (notReturn : next ≠ '\r') :
    scan '\\' (margin ++ next :: more) = ⟨.stray, '\\' :: margin⟩ := by
  change backslash (margin ++ next :: more) = _
  rw [backslash, Text.takeWhile_run all (by simpa using notSpace), List.drop_left]
  simp [notBreak, notReturn]

end Backslash

/-! ### Literals -/

/-- A closed literal stays as it is, whatever is put after the text. -/
private theorem literalBody_append_of_closed {quote : Char} {text : List Char} (more : List Char)
    (opens : isQuote quote = true)
    (closed : (text.drop (literalBody quote text).length).head? = some quote) :
    literalBody quote (text ++ more) = literalBody quote text := by
  have notMark : quote ≠ '\\' := by
    rintro rfl
    contradiction
  fun_induction literalBody quote text with
  | case1 escaped rest isBreak => simp [literalBody, isBreak]
  | case2 escaped rest notBreak inductionHypothesis =>
      simp only [List.length_cons, List.drop_succ_cons] at closed
      simp [literalBody, notBreak, inductionHypothesis closed]
  | case3 character rest notPair stops =>
      obtain rfl : character = quote := by simpa using closed
      rw [List.cons_append, literalBody]
      · simp
      · exact fun _ _ isMark => absurd isMark notMark
  | case4 character rest notPair goes inductionHypothesis =>
      simp only [List.length_cons, List.drop_succ_cons] at closed
      have goesOn : character ≠ '\\' := by
        rintro rfl
        simp at goes
      rw [List.cons_append, literalBody]
      · simp [goes, inductionHypothesis closed]
      · exact fun _ _ isMark => absurd isMark goesOn
  | case5 => simp at closed

/-- A literal that is not closed in its line is not closed by a carriage return at the end. -/
private theorem literalBody_append_return {quote : Char} {text : List Char} (oneLine : '\n' ∉ text)
    (opens : isQuote quote = true)
    (unclosed : (text.drop (literalBody quote text).length).head? ≠ some quote) :
    ((text ++ ['\r']).drop (literalBody quote (text ++ ['\r'])).length).head? ≠ some quote := by
  have notReturn : quote ≠ '\r' := by
    rintro rfl
    contradiction
  fun_induction literalBody quote text with
  | case1 escaped rest isBreak => simp_all
  | case2 escaped rest notBreak inductionHypothesis =>
      simp only [List.length_cons, List.drop_succ_cons] at unclosed
      simp only [List.mem_cons, not_or] at oneLine
      simpa [literalBody, notBreak] using inductionHypothesis oneLine.2.2 unclosed
  | case3 character rest notPair stops =>
      -- only a backslash at the end of the line is left, and it takes the carriage return along
      have notQuote : character ≠ quote := by simpa using unclosed
      have notBreak : character ≠ '\n' := by
        rintro rfl
        simp at oneLine
      obtain rfl : character = '\\' := by simpa [notQuote, notBreak] using stops
      cases rest with
      | nil => simp [literalBody]
      | cons escaped others => exact absurd rfl (notPair escaped others rfl)
  | case4 character rest notPair goes inductionHypothesis =>
      simp only [List.length_cons, List.drop_succ_cons] at unclosed
      simp only [List.mem_cons, not_or] at oneLine
      have goesOn : character ≠ '\\' := by
        rintro rfl
        simp at goes
      rw [List.cons_append, literalBody]
      · simpa [goes] using inductionHypothesis oneLine.2 unclosed
      · exact fun _ _ isMark => absurd isMark goesOn
  | case5 => simp [literalBody, notReturn.symm]

/-- What a carriage return at the end of a line may do to a lexeme: nothing, or become part of
one that stands for no token anyway. -/
def ReturnsAlike (lexeme other : Lexeme) : Prop :=
  other = lexeme ∨ lexeme.Alike other ∧ ∃ cause, lexeme.token? = .error cause

/-- Lexemes that stand for no token by their kind. -/
private theorem returnsAlike_of_fault {kind : LexemeKind}
    (isFault : kind = .unterminatedString ∨ kind = .stray) {first second : List Char}
    (head : first.headD '\x00' = second.headD '\x00') :
    ReturnsAlike ⟨kind, first⟩ ⟨kind, second⟩ := by
  rcases isFault with rfl | rfl
  · exact .inr ⟨⟨rfl, head, by simp, rfl⟩, _, rfl⟩
  · exact .inr ⟨⟨rfl, head, by simp, by simp only [token?, head]⟩, _, rfl⟩

private theorem quoted?_append_return (letters : List Char) {quote : Char} {text : List Char}
    (oneLine : '\n' ∉ text) (opens : isQuote quote = true) :
    Option.Rel ReturnsAlike (quoted? letters quote text)
      (quoted? letters quote (text ++ ['\r'])) := by
  by_cases closed : (text.drop (literalBody quote text).length).head? = some quote
  · have sameBody := literalBody_append_of_closed ['\r'] opens closed
    have closedAgain : ((text ++ ['\r']).drop (literalBody quote text).length).head? =
        some quote := by
      rw [List.drop_append_of_le_length (literalBody_isPrefix quote text).length_le,
        List.head?_append, closed]
      rfl
    have same : quoted? letters quote (text ++ ['\r']) = quoted? letters quote text := by
      simp only [quoted?, sameBody, closed, closedAgain]
    rw [same]
    cases quoted? letters quote text with
    | none => exact .none
    | some lexeme => exact .some (.inl rfl)
  · have stillOpen := literalBody_append_return oneLine opens closed
    have isOpen : ((text.drop (literalBody quote text).length).head? == some quote) = false := by
      simpa using closed
    have isOpenAgain : (((text ++ ['\r']).drop
        (literalBody quote (text ++ ['\r'])).length).head? == some quote) = false := by
      simpa using stillOpen
    have head (body : List Char) : (letters ++ quote :: body).headD '\x00' =
        letters.headD quote := by
      cases letters <;> rfl
    simp only [quoted?, isOpen, isOpenAgain, Bool.false_eq_true, if_false]
    split
    · exact .some (returnsAlike_of_fault (.inl rfl) (by rw [head, head]))
    · split
      · exact .some (returnsAlike_of_fault (.inr rfl) (by rw [head, head]))
      · exact .none

private theorem literal?_append_return {text : List Char} (oneLine : '\n' ∉ text)
    (nonempty : text ≠ []) :
    Option.Rel ReturnsAlike (literal? text) (literal? (text ++ ['\r'])) := by
  have plainReturn : isQuote '\r' = false := by decide
  cases text with
  | nil => exact absurd rfl nonempty
  | cons first others =>
      cases others with
      | nil =>
          cases opens : isQuote first with
          | true =>
              have quoted := quoted?_append_return [] (List.not_mem_nil (a := '\n')) opens
              simpa [literal?, opens] using quoted
          | false =>
              have noLiteral : literal? [first] = none := by simp [literal?, opens]
              have stillNone : literal? ([first] ++ ['\r']) = none := by
                simp [literal?, opens, plainReturn]
              rw [noLiteral, stillNone]
              exact .none
      | cons second rest =>
          have letters : (first :: second :: rest ++ ['\r']).take 2 =
              (first :: second :: rest).take 2 := rfl
          have within : (((first :: second :: rest).take 2).takeWhile (!isQuote ·)).length ≤
              (first :: second :: rest).length :=
            ((List.takeWhile_prefix _).trans (List.take_prefix 2 _)).length_le
          have rest : (first :: second :: rest).drop
              (((first :: second :: rest).take 2).takeWhile (!isQuote ·)).length <:+
                first :: second :: rest := List.drop_suffix _ _
          simp only [literal?, letters, List.drop_append_of_le_length within]
          generalize (first :: second :: _).drop _ = back at rest ⊢
          cases back with
          | nil => simp [plainReturn, Option.rel_none_none]
          | cons quote body =>
              cases opens : isQuote quote with
              | true =>
                  have inLine : '\n' ∉ body := fun member =>
                    oneLine (rest.subset (List.mem_cons_of_mem _ member))
                  simpa [opens] using quoted?_append_return _ inLine opens
              | false => simp [opens, Option.rel_none_none]

/-- A carriage return at the end of a line, after a lexeme that is no blank, no comment and no
backslash. -/
private theorem scan_append_return {first : Char} {rest : List Char}
    (oneLine : '\n' ∉ first :: rest) (notBlank : isInlineBlank first = false)
    (notComment : first ≠ '#') (notMark : first ≠ '\\') :
    ReturnsAlike (scan first rest) (scan first (rest ++ ['\r'])) := by
  have notBreak : first ≠ '\n' := fun isBreak => oneLine (isBreak ▸ List.mem_cons_self)
  have whole : first :: (rest ++ ['\r']) = (first :: rest) ++ ['\r'] := rfl
  have word := takeWhile_append_mark rest []
    (show Text.isIdentifierContinue '\r' = false by decide)
  have literal := literal?_append_return oneLine (List.cons_ne_nil first rest)
  simp only [scan, notBlank, whole, word, number?_append_mark _ _ (.inr rfl),
    symbol?_append_mark _ _ (.inr rfl), beq_iff_eq, notBreak, notComment, notMark,
    Bool.false_eq_true, if_false]
  generalize literal? (first :: rest) = found at literal ⊢
  generalize literal? ((first :: rest) ++ ['\r']) = foundAgain at literal ⊢
  cases literal with
  | none => exact .inl rfl
  | some alike => exact alike

end Lexeme

/-! ### Whole texts -/

namespace Layout

open Lexeme Text

/-- In alike states, the text has tokens of the same kinds with either line ending. -/
def EndingsAlike (text : List Char) : Prop :=
  ∀ (first second : State) (offset place : Nat), first.Alike second →
    tokenKinds (arrange first offset (split (crlf text))) =
      tokenKinds (arrange second place (split text))

theorem State.Alike.widen {first second : State} {text other : List Char}
    (alike : first.Alike second)
    (same : ∀ column, countColumns column text = countColumns column other) :
    (first.widen text).Alike (second.widen other) := by
  refine ⟨alike.depth, ?_, alike.blocks⟩
  cases hasMargin : first.margin with
  | none => simp [State.widen, hasMargin, alike.margin_eq_none hasMargin]
  | some margin =>
      obtain ⟨otherMargin, isOther, width⟩ := alike.exists_margin hasMargin
      simp [State.widen, hasMargin, isOther, Margin.extend, width, same]

theorem endingsAlike_oneLine {line : List Char} (oneLine : '\n' ∉ line) : EndingsAlike line := by
  intro first second offset place alike
  rw [crlf_of_oneLine oneLine]
  exact tokenKinds_arrange alike _ offset place

/-- The lexeme of a line feed, which comes after whatever the carriage return became part of. -/
private theorem tokenKinds_lineFeed {rest : List Char} (others : EndingsAlike rest)
    {first second : State} (alike : first.Alike second) (offset place : Nat) :
    tokenKinds (arrange first offset (split ('\n' :: crlf rest))) =
      tokenKinds (arrange second place (split ('\n' :: rest))) := by
  rw [split_cons_lineBreak, split_cons_lineBreak]
  apply tokenKinds_arrange_cons alike (.refl _)
  exact fun next other offset place alike => others next other offset place alike

private theorem endingsAlike_lineFeed {rest : List Char} (others : EndingsAlike rest) :
    EndingsAlike ('\n' :: rest) := by
  intro first second offset place alike
  have blank : ∀ character ∈ ['\r'], isInlineBlank character = true := by simp [isInlineBlank]
  have widened : (first.widen ['\r']).Alike (second.widen []) := alike.widen fun _ => rfl
  rw [State.widen_nil] at widened
  rw [crlf_cons_lineFeed]
  exact (tokenKinds_blanks blank first _ offset offset).trans
    (tokenKinds_lineFeed others widened offset place)

private theorem endingsAlike_blanks {blanks rest : List Char}
    (all : ∀ character ∈ blanks, isInlineBlank character = true) (others : EndingsAlike rest) :
    EndingsAlike (blanks ++ rest) := by
  intro first second offset place alike
  have oneLine : '\n' ∉ blanks := fun member => absurd (all '\n' member) (by decide)
  rw [crlf_append, crlf_of_oneLine oneLine, tokenKinds_blanks all first _ offset offset,
    tokenKinds_blanks all second _ place place]
  exact others _ _ _ _ (alike.widen fun _ => rfl)

private theorem endingsAlike_comment {body more : List Char} (inLine : '\n' ∉ body)
    (others : EndingsAlike more) : EndingsAlike ('#' :: (body ++ '\n' :: more)) := by
  intro first second offset place alike
  have shape : crlf ('#' :: (body ++ '\n' :: more)) =
      '#' :: ((body ++ ['\r']) ++ '\n' :: crlf more) := by
    rw [← List.cons_append, crlf_append, crlf_of_oneLine (by simpa using inLine),
      crlf_cons_lineFeed]
    simp
  rw [shape, tokenKinds_comment (by simpa using inLine) (by simp) first offset offset,
    tokenKinds_comment inLine (by simp) second place place]
  exact tokenKinds_lineFeed others alike offset place

private theorem endingsAlike_backslash {rest : List Char} (noReturn : '\r' ∉ rest)
    (others : ∀ more, more <:+ rest → EndingsAlike more) : EndingsAlike ('\\' :: rest) := by
  obtain ⟨margin, after, rfl, all, stops⟩ := exists_margin rest
  have oneLine : '\n' ∉ '\\' :: margin := by
    simpa using fun member => absurd (all '\n' member) (by decide)
  have shape : crlf ('\\' :: (margin ++ after)) = '\\' :: (margin ++ crlf after) := by
    rw [← List.cons_append, crlf_append, crlf_of_oneLine oneLine, List.cons_append]
  cases after with
  | nil => exact endingsAlike_oneLine (by simpa using oneLine)
  | cons next more =>
      intro first second offset place alike
      by_cases isBreak : next = '\n'
      · subst isBreak
        have lexemes : (Lexeme.mk .continuation ('\\' :: (margin ++ ['\r', '\n']))).Alike
            ⟨.continuation, '\\' :: (margin ++ ['\n'])⟩ := by
          refine ⟨rfl, rfl, fun _ column => ?_, rfl⟩
          rw [← List.cons_append, ← List.cons_append, countColumns_append, countColumns_append]
          rfl
        have unix := split_continuation all (.inl rfl) more
        have dos := split_continuation all (.inr rfl) (crlf more)
        rw [shape, crlf_cons_lineFeed]
        simp only [List.cons_append, List.nil_append] at unix dos
        rw [unix, dos]
        refine tokenKinds_arrange_cons alike lexemes ?_ offset place
        exact others more ((List.suffix_cons _ _).trans (List.suffix_append margin _))
      · have notReturn : next ≠ '\r' := by
          rintro rfl
          simp at noReturn
        have same : crlf (next :: more) = next :: crlf more := by
          rw [← List.singleton_append, crlf_append,
            crlf_of_oneLine (by simpa using Ne.symm isBreak), List.singleton_append]
        rw [shape, same, split_cons, split_cons]
        have stray (back : List Char) : scan '\\' (margin ++ next :: back) =
            ⟨.stray, '\\' :: margin⟩ := scan_strayBackslash all (stops next rfl) isBreak notReturn
        rw [stray, stray]
        exact tokenKinds_arrange_fault alike (.refl _) rfl offset place

private theorem endingsAlike_visible {start : Char} {rest : List Char} (notBreak : start ≠ '\n')
    (notBlank : isInlineBlank start = false) (notComment : start ≠ '#') (notMark : start ≠ '\\')
    (others : ∀ more, more <:+ rest → EndingsAlike more) : EndingsAlike (start :: rest) := by
  obtain ⟨line, oneLine, shape⟩ := exists_line rest
  have wholeLine : '\n' ∉ start :: line := by simp [Ne.symm notBreak, oneLine]
  rcases shape with rfl | ⟨more, rfl⟩
  · exact endingsAlike_oneLine wholeLine
  intro first second offset place alike
  have scanned : scan start (line ++ '\n' :: more) = scan start line :=
    scan_append_lineBreak_of_ne more line notMark
  have scannedAgain : scan start (line ++ '\r' :: '\n' :: crlf more) =
      scan start (line ++ ['\r']) := by
    have shape : line ++ '\r' :: '\n' :: crlf more = (line ++ ['\r']) ++ '\n' :: crlf more := by
      simp
    rw [shape, scan_append_lineBreak_of_ne _ _ notMark]
  have shape : crlf (start :: (line ++ '\n' :: more)) =
      start :: (line ++ '\r' :: '\n' :: crlf more) := by
    rw [← List.cons_append, crlf_append, crlf_of_oneLine wholeLine, crlf_cons_lineFeed,
      List.cons_append]
  have returns := scan_append_return wholeLine notBlank notComment notMark
  rw [shape, split_cons, split_cons, scanned, scannedAgain]
  rcases returns with same | ⟨lexemes, cause, wrong⟩
  · rw [same]
    apply tokenKinds_arrange_cons alike (.refl _)
    intro next other offset place alike
    have within : (scan start line).text.length - 1 ≤ line.length := by
      have length := (scans_scan start line).isPrefix.1.length_le
      rw [List.length_cons] at length
      omega
    have back : crlf ((line ++ '\n' :: more).drop ((scan start line).text.length - 1)) =
        (line ++ '\r' :: '\n' :: crlf more).drop ((scan start line).text.length - 1) := by
      have inLine : '\n' ∉ line.drop ((scan start line).text.length - 1) :=
        fun member => oneLine (List.mem_of_mem_drop member)
      rw [List.drop_append_of_le_length within, List.drop_append_of_le_length within, crlf_append,
        crlf_of_oneLine inLine, crlf_cons_lineFeed]
    rw [← back]
    exact others _ (List.drop_suffix _ _) next other offset place alike
  · exact (tokenKinds_arrange_fault alike.symm lexemes wrong place offset).symm

/-- Line endings do not matter to the kinds of the tokens. -/
theorem endingsAlike_of_noReturn {text : List Char} (noReturn : '\r' ∉ text) :
    EndingsAlike text := by
  -- the induction is on the length: a lexeme may take any part of what follows
  induction length : text.length using Nat.strong_induction_on generalizing text with
  | h _ shorter =>
    subst length
    cases text with
    | nil => exact endingsAlike_oneLine (by simp)
    | cons first rest =>
        have others (more : List Char) (suffix : more <:+ rest) : EndingsAlike more :=
          shorter more.length (Nat.lt_succ_of_le suffix.length_le)
            (fun member => noReturn (List.mem_cons_of_mem _ (suffix.subset member))) rfl
        by_cases isBreak : first = '\n'
        · subst isBreak
          exact endingsAlike_lineFeed (others rest List.suffix_rfl)
        by_cases isBlank : isInlineBlank first = true
        · have all : ∀ character ∈ [first], isInlineBlank character = true := by simpa using isBlank
          exact endingsAlike_blanks all (others rest List.suffix_rfl)
        by_cases isComment : first = '#'
        · subst isComment
          obtain ⟨body, inLine, shape⟩ := exists_line rest
          rcases shape with rfl | ⟨more, rfl⟩
          · exact endingsAlike_oneLine (by simpa using inLine)
          · exact endingsAlike_comment inLine
              (others more ((List.suffix_cons _ _).trans (List.suffix_append body _)))
        by_cases isMark : first = '\\'
        · subst isMark
          exact endingsAlike_backslash
            (fun member => noReturn (List.mem_cons_of_mem _ member)) others
        · exact endingsAlike_visible isBreak (by simpa using isBlank) isComment isMark others

end Layout
end Transpiler
