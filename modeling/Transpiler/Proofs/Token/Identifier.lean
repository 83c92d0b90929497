import Mathlib.Data.List.TakeWhile
import Transpiler.Proofs.Token.Spelling

/-!
Contract: the texts that are read as a single identifier.

Owns: the sources whose only token is an identifier with the whole text as its name, and
that such a text is one word which is not reserved.
-/

namespace Transpiler

/-- The text is read as one identifier, which is the whole text. -/
def IsIdentifier (name : String) : Prop :=
  (tokenize name).map (·.map Token.kind) = .ok [.ident name, .newline, .endOfFile]

instance (name : String) : Decidable (IsIdentifier name) :=
  inferInstanceAs (Decidable (_ = _))

/-! ### Which lexemes stand for identifiers -/

/-- A kind of lexemes that may stand for an identifier. -/
def LexemeKind.mayName : LexemeKind → Bool
  | .word | .symbol (.ident _) => true
  | _ => false

/-- A kind of tokens that number and string literals stand for. -/
def TokenKind.isLiteral : TokenKind → Bool
  | .int _ | .bigInt _ | .float _ | .str _ | .bytes _ | .formattedString => true
  | _ => false

namespace Lexeme

/-- The tokens that number and string literals stand for, with their values. -/
inductive ValueToken : TokenKind → Prop
  | integer (value : Nat) : ValueToken (.ofInteger value)
  | float (digits : List Char) : ValueToken (.float (Numeral.nearestDouble digits))
  | str (text : String) : ValueToken (.str text)
  | bytes (content : List UInt8) : ValueToken (.bytes content)
  | formattedString : ValueToken .formattedString

theorem ValueToken.isLiteral {kind : TokenKind} (literal : ValueToken kind) :
    kind.isLiteral = true := by
  cases literal with
  | integer value =>
      unfold TokenKind.ofInteger
      split <;> rfl
  | float => rfl
  | str => rfl
  | bytes => rfl
  | formattedString => rfl

private theorem valueToken_of_numberToken {α : Type} {text : List Char} {token : α → TokenKind}
    {value : Option α} {kind : TokenKind} (literal : ∀ found ∈ value, ValueToken (token found))
    (stands : (numberToken text token value).map some = .ok (some kind)) : ValueToken kind := by
  cases value with
  | none => simp [numberToken, Except.map] at stands
  | some value =>
      obtain rfl : token value = kind := by simpa [numberToken, Except.map] using stands
      exact literal value rfl

private theorem valueToken_of_map {α : Type} {result : Except LexErrorKind α}
    {token : α → TokenKind} {kind : TokenKind} (literal : ∀ value, ValueToken (token value))
    (stands : (result.map token).map some = .ok (some kind)) : ValueToken kind := by
  cases result with
  | error cause => simp [Except.map] at stands
  | ok value =>
      obtain rfl : token value = kind := by simpa [Except.map] using stands
      exact literal value

private theorem valueToken_of_literalToken {text : List Char} {kind : TokenKind}
    (stands : (literalToken text).map some = .ok (some kind)) : ValueToken kind := by
  unfold literalToken at stands
  dsimp only at stands
  split at stands
  · split at stands
    · simp [Except.map] at stands
    · split at stands
      · obtain rfl := Option.some.inj (Except.ok.inj stands)
        exact .bytes _
      · exact valueToken_of_map .bytes stands
  · split at stands
    · obtain rfl := Option.some.inj (Except.ok.inj stands)
      exact .str _
    · exact valueToken_of_map (fun _ => .str _) stands

/-- What has a value as a number with a point or an exponent is the nearest double of its
digits. -/
private theorem valueToken_of_floatValue? {text : List Char} :
    ∀ found ∈ Numeral.floatValue? text, ValueToken (.float found) := by
  intro found isValue
  unfold Numeral.floatValue? at isValue
  split at isValue
  · cases isValue
    exact .float _
  · cases isValue

/-- What has a token as an integer has the token of its value. -/
private theorem valueToken_of_ofInteger? {radix : Nat} (positive : 0 < radix) {marked : Bool}
    {body : List Char} : ∀ found ∈ TokenKind.ofInteger? radix marked body, ValueToken found := by
  intro found isValue
  rw [Numeral.ofInteger?_eq positive] at isValue
  obtain ⟨digits, _, rfl⟩ := Option.map_eq_some_iff.mp isValue
  exact .integer _

private theorem valueToken_of_ofDecimal? {text : List Char} :
    ∀ found ∈ TokenKind.ofDecimal? text, ValueToken found := by
  intro found isValue
  unfold TokenKind.ofDecimal? at isValue
  split at isValue
  · cases isValue
  · exact valueToken_of_ofInteger? (by decide) found isValue

/-- The tokens that a lexeme may stand for: its symbol, its word, or the value of a
literal. -/
theorem token?_origin {lexeme : Lexeme} {kind : TokenKind}
    (stands : lexeme.token? = .ok (some kind)) :
    lexeme.kind = .symbol kind ∨
      lexeme.kind = .word ∧ kind = .ofWord (String.ofList lexeme.text) ∨ ValueToken kind := by
  have marked {radix : Nat} (positive : 0 < radix) :
      ∀ found ∈ TokenKind.ofMarked? radix lexeme.text, ValueToken (id found) :=
    valueToken_of_ofInteger? positive
  unfold token? at stands
  split at stands
  case h_5 token isKind =>
    obtain rfl : token = kind := by simpa using stands
    exact .inl isKind
  case h_6 => exact .inr (.inr (valueToken_of_numberToken valueToken_of_ofDecimal? stands))
  case h_7 => exact .inr (.inr (valueToken_of_numberToken (marked (by decide)) stands))
  case h_8 => exact .inr (.inr (valueToken_of_numberToken (marked (by decide)) stands))
  case h_9 => exact .inr (.inr (valueToken_of_numberToken (marked (by decide)) stands))
  case h_10 => exact .inr (.inr (valueToken_of_numberToken valueToken_of_floatValue? stands))
  case h_11 => exact .inr (.inr (valueToken_of_literalToken stands))
  case h_13 =>
    obtain rfl := Option.some.inj (Except.ok.inj stands)
    exact .inr (.inr .formattedString)
  case h_14 isKind =>
    obtain rfl := Option.some.inj (Except.ok.inj stands)
    exact .inr (.inl ⟨isKind, rfl⟩)
  all_goals simp at stands

theorem token?_cases {lexeme : Lexeme} {kind : TokenKind}
    (stands : lexeme.token? = .ok (some kind)) :
    lexeme.kind = .symbol kind ∨
      lexeme.kind = .word ∧ kind = .ofWord (String.ofList lexeme.text) ∨
      kind.isLiteral = true := by
  rcases token?_origin stands with isSymbol | isWord | literal
  · exact .inl isSymbol
  · exact .inr (.inl isWord)
  · exact .inr (.inr literal.isLiteral)

/-- Only words and no other text stand for identifiers. -/
private theorem mayName_of_token? {lexeme : Lexeme} {name : String}
    (stands : lexeme.token? = .ok (some (.ident name))) : lexeme.kind.mayName = true := by
  rcases token?_cases stands with isSymbol | ⟨isWord, _⟩ | isLiteral
  · rw [isSymbol]
    rfl
  · rw [isWord]
    rfl
  · simp [TokenKind.isLiteral] at isLiteral

/-- The kinds of what is found where a string literal begins. -/
theorem kind_literal? {input : List Char} {lexeme : Lexeme}
    (found : literal? input = some lexeme) :
    lexeme.kind ∈ [LexemeKind.string, .unterminatedString, .formattedString, .stray] := by
  unfold literal? quoted? at found
  grind

/-- The kinds of numbers. -/
theorem kind_number? {input : List Char} {lexeme : Lexeme}
    (found : number? input = some lexeme) :
    lexeme.kind ∈
      [LexemeKind.decimalInteger, .hexInteger, .octalInteger, .binaryInteger, .float] := by
  unfold number? markedInteger? decimalNumber pointedNumber at found
  grind

theorem kind_backslash (rest : List Char) :
    (backslash rest).kind ∈ [LexemeKind.continuation, .stray] := by
  unfold backslash
  grind

theorem eq_false_of_mem_kinds {lexeme : Lexeme} {kinds : List LexemeKind}
    {holds : LexemeKind → Bool} (member : lexeme.kind ∈ kinds) (none : kinds.any holds = false) :
    holds lexeme.kind = false := by
  simpa using List.any_eq_false.mp none _ member

private theorem mayName_literal? {input : List Char} {lexeme : Lexeme}
    (found : literal? input = some lexeme) : lexeme.kind.mayName = false :=
  eq_false_of_mem_kinds (kind_literal? found) rfl

private theorem mayName_number? {input : List Char} {lexeme : Lexeme}
    (found : number? input = some lexeme) : lexeme.kind.mayName = false :=
  eq_false_of_mem_kinds (kind_number? found) rfl

private theorem mayName_symbol? {input : List Char} {lexeme : Lexeme}
    (found : symbol? input = some lexeme) : lexeme.kind.mayName = false := by
  obtain ⟨entry, isFound, rfl⟩ := Option.map_eq_some_iff.mp found
  have noNames : ∀ entry ∈ symbolTable, (LexemeKind.symbol entry.2).mayName = false := by decide
  exact noNames entry (List.mem_of_find?_eq_some isFound)

/-- Text that stands for an identifier is scanned as a word. -/
theorem scan_of_mayName {first : Char} {rest : List Char}
    (names : (scan first rest).kind.mayName = true) :
    Text.isIdentifierStart first = true ∧
      scan first rest = ⟨.word, first :: rest.takeWhile Text.isIdentifierContinue⟩ := by
  have notBlank : isInlineBlank first = false := by
    by_contra blank
    rw [Bool.not_eq_false] at blank
    simp [scan, blank, LexemeKind.mayName] at names
  have notSpecial : first ∉ ['\n', '#', '\\'] := by
    simp only [List.mem_cons, List.not_mem_nil, or_false]
    rintro (rfl | rfl | rfl)
    · simp [scan, isInlineBlank, LexemeKind.mayName] at names
    · simp [scan, isInlineBlank, LexemeKind.mayName] at names
    · rw [scan, if_neg (by decide), if_neg (by decide), if_neg (by decide), if_pos (by decide)]
        at names
      have nameless : (backslash rest).kind.mayName = false :=
        eq_false_of_mem_kinds (kind_backslash rest) rfl
      simp [nameless] at names
  have noLiteral : literal? (first :: rest) = none := by
    cases found : literal? (first :: rest) with
    | none => rfl
    | some lexeme =>
        simp only [List.mem_cons, List.not_mem_nil, or_false, not_or] at notSpecial
        simp [scan, notBlank, notSpecial, found, mayName_literal? found] at names
  rw [scan_of_literal?_eq_none notBlank notSpecial noLiteral] at names ⊢
  have noNumber : number? (first :: rest) = none := by
    cases found : number? (first :: rest) with
    | none => rfl
    | some lexeme => simp [found, mayName_number? found] at names
  rw [noNumber, Option.getD_none] at names ⊢
  by_cases starts : Text.isIdentifierStart first = true
  · exact ⟨starts, if_pos starts⟩
  · rw [if_neg starts] at names
    cases found : symbol? (first :: rest) with
    | none => simp [found, LexemeKind.mayName] at names
    | some lexeme => simp [found, mayName_symbol? found] at names

/-- Every lexeme of a text is the longest one at its place. -/
theorem exists_scan_of_mem_split {text : List Char} {lexeme : Lexeme}
    (member : lexeme ∈ split text) :
    ∃ before first rest, text = before ++ first :: rest ∧ lexeme = scan first rest := by
  suffices general : ∀ covered, lexeme ∈ splitFrom covered text →
      ∃ before first rest, text = before ++ first :: rest ∧ lexeme = scan first rest from
    general 0 member
  clear member
  induction text with
  | nil => simp [splitFrom]
  | cons first rest inductionHypothesis =>
      intro covered member
      have later : ∀ count, lexeme ∈ splitFrom count rest → ∃ before next others,
          first :: rest = before ++ next :: others ∧ lexeme = scan next others := by
        intro count inRest
        obtain ⟨before, next, others, shape, scanned⟩ := inductionHypothesis count inRest
        exact ⟨first :: before, next, others, by rw [shape, List.cons_append], scanned⟩
      cases covered with
      | succ left => exact later left member
      | zero =>
          rcases List.mem_cons.mp member with here | inRest
          · exact ⟨[], first, rest, rfl, here⟩
          · exact later _ inRest

end Lexeme

/-! ### Which tokens a layout adds -/

namespace Layout

private theorem enterLine_kinds {blocks : List Nat} {margin : Margin} {offset : Nat}
    {marks : List Token} {remaining : List Nat}
    (entered : enterLine blocks margin offset = .ok (marks, remaining)) (name : String) :
    ∀ token ∈ marks, token.kind ≠ .ident name := by
  unfold enterLine at entered
  grind

/-- What a lexeme in a line adds after the marks that open or close blocks. -/
def afterMarks (state : State) (offset : Nat) (lexeme : Lexeme) (marks : List Token)
    (blocks : List Nat) : Except (Halt LexError) (List Token × State) :=
  let span : Span := ⟨offset, offset + Text.byteLength lexeme.text⟩
  match lexeme.token? with
  | .error cause => .error (.fault ⟨cause, span⟩)
  | .ok none => .ok (marks, ⟨state.depth, none, blocks⟩)
  | .ok (some kind) =>
      .ok (marks ++ [⟨kind, span⟩], ⟨depthAfter state.depth kind, none, blocks⟩)

/-- An identifier that a lexeme adds is the one that it stands for. -/
private theorem token?_of_mem_step {state next : State} {offset : Nat} {lexeme : Lexeme}
    {tokens : List Token} (stepped : step state offset lexeme = .ok (tokens, next))
    {token : Token} (member : token ∈ tokens) {name : String} (isName : token.kind = .ident name) :
    lexeme.token? = .ok (some (.ident name)) := by
  unfold step at stepped
  dsimp only at stepped
  split at stepped
  case h_6 =>
    -- Blocks are opened and closed by marks of their own, before the token of the lexeme.
    have marked : ∃ marks blocks, (∀ mark ∈ marks, mark.kind ≠ .ident name) ∧
        afterMarks state offset lexeme marks blocks = .ok (tokens, next) := by
      cases margin : state.margin with
      | none =>
          rw [margin] at stepped
          exact ⟨[], state.blocks, by simp, stepped⟩
      | some start =>
          rw [margin] at stepped
          dsimp only at stepped
          cases entered : enterLine state.blocks start offset with
          | error cause =>
              rw [entered] at stepped
              contradiction
          | ok entry =>
              rw [entered] at stepped
              exact ⟨entry.1, entry.2, enterLine_kinds entered name, stepped⟩
    obtain ⟨marks, blocks, noNames, taken⟩ := marked
    unfold afterMarks at taken
    split at taken
    · contradiction
    · obtain ⟨rfl, _⟩ : marks = tokens ∧ _ = next := by simpa using taken
      exact absurd isName (noNames token member)
    next kind isToken =>
      obtain ⟨rfl, _⟩ : marks ++ [_] = tokens ∧ _ = next := by simpa using taken
      rcases List.mem_append.mp member with inMarks | isLast
      · exact absurd isName (noNames token inMarks)
      · obtain rfl := List.mem_singleton.mp isLast
        rw [isToken, ← isName]
  all_goals grind

/-- Every identifier among the tokens of lexemes comes from one of them. -/
theorem token?_of_mem_arrange {lexemes : List Lexeme} {state : State} {offset : Nat}
    {tokens : List Token} (arranged : arrange state offset lexemes = .ok tokens) {token : Token}
    (member : token ∈ tokens) {name : String} (isName : token.kind = .ident name) :
    ∃ lexeme ∈ lexemes, lexeme.token? = .ok (some (.ident name)) := by
  induction lexemes generalizing state offset tokens with
  | nil =>
      obtain rfl : finish state offset = tokens := by simpa [arrange] using arranged
      unfold finish at member
      grind
  | cons lexeme rest inductionHypothesis =>
      unfold arrange at arranged
      cases stepped : step state offset lexeme with
      | error cause =>
          rw [stepped] at arranged
          contradiction
      | ok result =>
          obtain ⟨added, next⟩ := result
          cases others : arrange next (offset + Text.byteLength lexeme.text) rest with
          | error cause => simp [stepped, others, bind, Except.bind] at arranged
          | ok more =>
              obtain rfl : added ++ more = tokens := by
                simpa [stepped, others, bind, Except.bind, pure, Except.pure] using arranged
              rcases List.mem_append.mp member with inAdded | inMore
              · exact ⟨lexeme, by simp, token?_of_mem_step stepped inAdded isName⟩
              · obtain ⟨found, inRest, stands⟩ := inductionHypothesis others inMore
                exact ⟨found, by simp [inRest], stands⟩

end Layout

/-! ### Identifiers are words -/

theorem TokenKind.eq_of_ofWord_eq_ident {word name : String} (isIdent : ofWord word = .ident name) :
    word = name := by
  unfold ofWord at isIdent
  grind

/-- The identifier that a lexeme stands for is the word which begins where the lexeme does. -/
theorem Lexeme.exists_word_of_mem_split {text : List Char} {lexeme : Lexeme} {name : String}
    (member : lexeme ∈ split text) (stands : lexeme.token? = .ok (some (.ident name))) :
    ∃ before first rest, text = before ++ first :: rest ∧ Text.isIdentifierStart first = true ∧
      name.toList = first :: rest.takeWhile Text.isIdentifierContinue ∧
      TokenKind.ofWord name = .ident name := by
  obtain ⟨before, first, rest, shape, rfl⟩ := exists_scan_of_mem_split member
  obtain ⟨starts, scanned⟩ := scan_of_mayName (mayName_of_token? stands)
  rw [scanned] at stands
  have isIdent : TokenKind.ofWord
      (String.ofList (first :: rest.takeWhile Text.isIdentifierContinue)) = .ident name := by
    simpa [Lexeme.token?] using stands
  have word := TokenKind.eq_of_ofWord_eq_ident isIdent
  refine ⟨before, first, rest, shape, starts, ?_, word ▸ isIdent⟩
  rw [← word, String.toList_ofList]

/-- A text that is read as one identifier is a word that is not reserved. -/
theorem IsIdentifier.isWord {name : String} (identifier : IsIdentifier name) :
    Lexeme.isWord name.toList = true ∧ TokenKind.ofWord name = .ident name := by
  obtain ⟨tokens, arranged, kinds⟩ : ∃ tokens,
      Layout.arrange .initial 0 (Lexeme.split name.toList) = .ok tokens ∧
        tokens.map Token.kind = [.ident name, .newline, .endOfFile] := by
    unfold IsIdentifier tokenize at identifier
    dsimp only at identifier
    split at identifier
    · contradiction
    · cases arranged : Layout.arrange .initial 0 (Lexeme.split name.toList) with
      | error cause => simp [arranged, Except.map] at identifier
      | ok tokens => exact ⟨tokens, rfl, by simpa [arranged, Except.map] using identifier⟩
  have inKinds : TokenKind.ident name ∈ tokens.map Token.kind := by simp [kinds]
  obtain ⟨token, member, isName⟩ := List.mem_map.mp inKinds
  obtain ⟨lexeme, inSplit, stands⟩ := Layout.token?_of_mem_arrange arranged member isName
  obtain ⟨before, first, rest, shape, starts, text, isIdent⟩ :=
    Lexeme.exists_word_of_mem_split inSplit stands
  -- The word is as long as the whole text, so nothing stands before or after it.
  have taken := (List.takeWhile_prefix (l := rest) Text.isIdentifierContinue).length_le
  have lengths := congrArg List.length (text.symm.trans shape)
  simp only [List.length_cons, List.length_append] at lengths
  obtain rfl : before = [] := List.length_eq_zero_iff.mp (by omega)
  have whole : rest.takeWhile Text.isIdentifierContinue = rest :=
    (List.cons.inj (text.symm.trans shape)).2
  refine ⟨?_, isIdent⟩
  rw [text, whole, Lexeme.isWord, starts, Bool.true_and, List.all_eq_true]
  exact List.takeWhile_eq_self_iff.mp whole

end Transpiler
