import Transpiler.Proofs.Generate.EscapedLiteral
import Transpiler.Proofs.Token.Spelling

/-!
Contract: the literals of a listing read back as the values they were written for.

Owns: how each character stands between the quotes, that the literal ends at its closing
quote and nowhere before, and that the escapes decode to the characters and bytes they were
written for. Strings and bytes share one argument, which only asks of the reader of escapes
that it knows the short ones and the ones by two hexadecimal digits.

Does not own: where a listing has literals.
-/

namespace Transpiler

/-! ### Readers of escapes -/

namespace Escape

/-- The reader knows the one-letter escapes and the escapes by two hexadecimal digits. -/
structure ReadsEscapes {α : Type} (plain : Char → α)
    (read : Char → List Char → Except EscapeError (Reading α)) : Prop where
  short : ∀ {letter character : Char} (following : List Char),
    oneLetter? letter = some character → read letter following = .ok ⟨[plain character], 0⟩
  hex : ∀ {high low character : Char} (following : List Char),
    Text.isRadixDigit 16 high = true → Text.isRadixDigit 16 low = true →
      Text.positionalValue 16 [high, low] = character.toNat → character.toNat < 256 →
        read 'x' (high :: low :: following) = .ok ⟨[plain character], 2⟩

private theorem hexValue_two {high low : Char} (following : List Char)
    (highHex : Text.isRadixDigit 16 high = true) (lowHex : Text.isRadixDigit 16 low = true) :
    hexValue 'x' 2 (high :: low :: following) = .ok (Text.positionalValue 16 [high, low]) := by
  simp [hexValue, highHex, lowHex]

theorem readsEscapes_string : ReadsEscapes id readInString where
  short := by
    intro letter character following stands
    simp only [readInString, stands]
    rfl
  hex := by
    intro high low character following highHex lowHex stands _
    have valid : character.toNat.isValidChar := character.valid
    have noLetter : oneLetter? 'x' = none := by decide
    have noOctal : Text.isRadixDigit 8 'x' = false := by decide
    simp only [readInString, noLetter, noOctal, hexValue_two following highHex lowHex, stands,
      beq_self_eq_true, if_true, Bool.false_eq_true, if_false]
    show (do return ⟨[← Escape.character 'x' character.toNat], 2⟩ :
      Except EscapeError (Reading Char)) = _
    rw [Escape.character, if_pos valid, Char.ofNat_toNat]
    rfl

theorem readsEscapes_bytes : ReadsEscapes asciiByte readInBytes where
  short := by
    intro letter character following stands
    simp only [readInBytes, stands]
  hex := by
    intro high low character following highHex lowHex stands small
    have noLetter : oneLetter? 'x' = none := by decide
    have noOctal : Text.isRadixDigit 8 'x' = false := by decide
    simp only [readInBytes, noLetter, noOctal, hexValue_two following highHex lowHex, stands,
      beq_self_eq_true, if_true, Bool.false_eq_true, if_false]
    show (do return ⟨[← byte character.toNat], 2⟩ : Except EscapeError (Reading UInt8)) = _
    rw [byte, if_pos small]
    rfl

end Escape

namespace Literal

open Escape (ReadsEscapes decodeFrom)

/-! ### One character -/

/-- The ways a character stands between quotes. -/
inductive Written (quote character : Char) : List Char → Prop where
  | plain (notQuote : character ≠ quote) (notEscape : character ≠ '\\')
      (notBreak : character ≠ '\n') : Written quote character [character]
  | short {letter : Char} (stands : Escape.oneLetter? letter = some character)
      (notBreak : letter ≠ '\n') : Written quote character ['\\', letter]
  | hex {high low : Char} (highHex : Text.isRadixDigit 16 high = true)
      (lowHex : Text.isRadixDigit 16 low = true)
      (stands : Text.positionalValue 16 [high, low] = character.toNat)
      (small : character.toNat < 256) : Written quote character ['\\', 'x', high, low]

/-- A code point below 256 has two hexadecimal digits. -/
private theorem hexEscape_eq {code : Nat} (small : code < 256) :
    ∃ high low, hexEscape code = ['\\', 'x', high, low] ∧ Text.isRadixDigit 16 high = true ∧
      Text.isRadixDigit 16 low = true ∧ Text.positionalValue 16 [high, low] = code := by
  have checked : ∀ code < 256, let digits := Text.padZeros 2 (Text.hexDigits code)
      digits.length = 2 ∧ digits.all (Text.isRadixDigit 16) = true ∧
        Text.positionalValue 16 digits = code := by
    decide +kernel
  obtain ⟨two, hex, value⟩ := checked code small
  obtain ⟨high, low, digits⟩ := List.length_eq_two.mp two
  rw [digits] at hex value
  simp only [List.all_cons, List.all_nil, Bool.and_true, Bool.and_eq_true] at hex
  exact ⟨high, low, by rw [hexEscape, digits]; rfl, hex.1, hex.2, value⟩

private theorem written_escapeCharacter {quote : Char} {byCode : Char → Bool} {character : Char}
    (isQuote : Lexeme.isQuote quote = true)
    (small : byCode character = true → character.toNat < 256) :
    Written quote character (escapeCharacter quote byCode character) := by
  unfold escapeCharacter
  by_cases isBackslash : character = '\\'
  · subst isBackslash
    exact .short rfl (by decide)
  rw [if_neg (by simpa using isBackslash)]
  by_cases isBreak : character = '\n'
  · subst isBreak
    exact .short rfl (by decide)
  rw [if_neg (by simpa using isBreak)]
  by_cases isReturn : character = '\r'
  · subst isReturn
    exact .short rfl (by decide)
  rw [if_neg (by simpa using isReturn)]
  by_cases isTab : character = '\t'
  · subst isTab
    exact .short rfl (by decide)
  rw [if_neg (by simpa using isTab)]
  by_cases same : character = quote
  · subst same
    have either : character = '"' ∨ character = '\'' := by simpa [Lexeme.isQuote] using isQuote
    rw [if_pos (by simp)]
    rcases either with rfl | rfl
    · exact .short rfl (by decide)
    · exact .short rfl (by decide)
  rw [if_neg (by simpa using same)]
  by_cases coded : byCode character = true
  · rw [if_pos coded]
    obtain ⟨high, low, shape, highHex, lowHex, stands⟩ := hexEscape_eq (small coded)
    rw [shape]
    exact .hex highHex lowHex stands (small coded)
  · rw [if_neg coded]
    exact .plain same isBackslash isBreak

section

variable {quote character : Char} {written : List Char}

/-- No hexadecimal digit ends a literal or begins an escape. -/
private theorem plain_of_hex {digit : Char} (isQuote : Lexeme.isQuote quote = true)
    (hex : Text.isRadixDigit 16 digit = true) :
    digit ≠ quote ∧ digit ≠ '\n' ∧ digit ≠ '\\' := by
  have apart : digit ∉ ['"', '\'', '\n', '\\'] :=
    Lexeme.not_mem_of_class hex (by decide)
  simp only [List.mem_cons, List.not_mem_nil, or_false, not_or] at apart
  have either : quote = '"' ∨ quote = '\'' := by simpa [Lexeme.isQuote] using isQuote
  rcases either with rfl | rfl
  · exact ⟨apart.1, apart.2.2⟩
  · exact ⟨apart.2.1, apart.2.2⟩

/-- A literal does not end inside a character. -/
theorem Written.literalBody_append (isWritten : Written quote character written)
    (isQuote : Lexeme.isQuote quote = true) (rest : List Char) :
    Lexeme.literalBody quote (written ++ rest) = written ++ Lexeme.literalBody quote rest := by
  cases isWritten with
  | plain notQuote notEscape notBreak => simp [Lexeme.literalBody, notQuote, notEscape, notBreak]
  | short _ notBreak => simp [Lexeme.literalBody, notBreak]
  | hex highHex lowHex =>
      have high := plain_of_hex isQuote highHex
      have low := plain_of_hex isQuote lowHex
      simp [Lexeme.literalBody, high, low]

/-- A character decodes to itself. -/
theorem Written.decodeFrom_append {α : Type} {plain : Char → α}
    {read : Char → List Char → Except EscapeError (Escape.Reading α)}
    (isWritten : Written quote character written) (reads : ReadsEscapes plain read)
    (rest : List Char) :
    decodeFrom plain read 0 (written ++ rest) =
      (decodeFrom plain read 0 rest).map (plain character :: ·) := by
  cases isWritten with
  | plain _ notEscape _ => exact Escape.decodeFrom_plain rest notEscape
  | short stands _ => exact Escape.decodeFrom_escape (reads.short rest stands)
  | hex highHex lowHex stands small =>
      exact Escape.decodeFrom_escape (reads.hex rest highHex lowHex stands small)

end

/-! ### The contents -/

/-- The contents of a literal, each character written. -/
def body (byCode : Char → Bool) (contents : List Char) : List Char :=
  contents.flatMap (escapeCharacter (quoteFor contents) byCode)

theorem isQuote_quoteFor (contents : List Char) : Lexeme.isQuote (quoteFor contents) = true := by
  unfold quoteFor
  split <;> decide

theorem quoteContents_eq (byCode : Char → Bool) (contents : List Char) :
    quoteContents byCode contents =
      quoteFor contents :: (body byCode contents ++ [quoteFor contents]) := rfl

section

variable {byCode : Char → Bool} {contents : List Char}

/-- The quote after the contents is the first that closes the literal. -/
theorem literalBody_body
    (small : ∀ character ∈ contents, byCode character = true → character.toNat < 256)
    (rest : List Char) :
    Lexeme.literalBody (quoteFor contents) (body byCode contents ++ quoteFor contents :: rest) =
      body byCode contents := by
  have isQuote := isQuote_quoteFor contents
  unfold body
  generalize quoteFor contents = quote at isQuote
  induction contents with
  | nil =>
      have notEscape : quote ≠ '\\' := by
        rintro rfl
        exact absurd isQuote (by decide)
      cases rest <;> simp [Lexeme.literalBody, notEscape]
  | cons first others inductionHypothesis =>
      have written := written_escapeCharacter isQuote (small first List.mem_cons_self)
      have others := inductionHypothesis fun character member =>
        small character (List.mem_cons_of_mem first member)
      rw [List.flatMap_cons, List.append_assoc, written.literalBody_append isQuote, others]

/-- The contents decode to what they were written for. -/
private theorem decodeFrom_body {α : Type} {plain : Char → α}
    {read : Char → List Char → Except EscapeError (Escape.Reading α)}
    (reads : ReadsEscapes plain read)
    (small : ∀ character ∈ contents, byCode character = true → character.toNat < 256) :
    decodeFrom plain read 0 (body byCode contents) = .ok (contents.map plain) := by
  have isQuote := isQuote_quoteFor contents
  unfold body
  generalize quoteFor contents = quote at isQuote
  induction contents with
  | nil => rfl
  | cons first others inductionHypothesis =>
      have written := written_escapeCharacter isQuote (small first List.mem_cons_self)
      have others := inductionHypothesis fun character member =>
        small character (List.mem_cons_of_mem first member)
      rw [List.flatMap_cons, written.decodeFrom_append reads, others]
      rfl

end

end Literal

/-! ### The lexeme of a literal -/

namespace Lexeme

theorem scan_of_literal? {first : Char} {rest : List Char} {lexeme : Lexeme}
    (notBlank : isInlineBlank first = false) (notSpecial : first ∉ ['\n', '#', '\\'])
    (found : literal? (first :: rest) = some lexeme) : scan first rest = lexeme := by
  simp only [List.mem_cons, List.not_mem_nil, or_false, not_or] at notSpecial
  simp [scan, notBlank, notSpecial, found]

/-- A literal that is closed behind its contents. -/
private theorem quoted?_of_closed {letters contents rest : List Char} {quote : Char}
    (marks : plainMarks.contains (letters.map Char.toLower) = true)
    (ends : literalBody quote (contents ++ quote :: rest) = contents) :
    quoted? letters quote (contents ++ quote :: rest) =
      some ⟨.string, letters ++ quote :: contents ++ [quote]⟩ := by
  have closed : ((contents ++ quote :: rest).drop contents.length).head? = some quote := by
    rw [List.drop_left]
    rfl
  simp only [quoted?, ends, closed, marks, beq_self_eq_true, if_true]

/-- A literal with nothing or the letter of bytes before its quote. -/
theorem split_quoted {letters contents rest : List Char} {quote : Char}
    (marked : letters = [] ∨ letters = ['b']) (isQuote : isQuote quote = true)
    (ends : literalBody quote (contents ++ quote :: rest) = contents) :
    split (letters ++ quote :: (contents ++ [quote]) ++ rest) =
      ⟨.string, letters ++ quote :: (contents ++ [quote])⟩ :: split rest := by
  have plain : Lexeme.isQuote 'b' = false := by decide
  have taken : ((letters ++ quote :: (contents ++ quote :: rest)).take 2).takeWhile
      (!Lexeme.isQuote ·) = letters := by
    rcases marked with rfl | rfl <;> simp [isQuote, plain]
  have marks : plainMarks.contains (letters.map Char.toLower) = true := by
    rcases marked with rfl | rfl <;> decide
  have found : literal? (letters ++ quote :: (contents ++ quote :: rest)) =
      some ⟨.string, letters ++ quote :: (contents ++ [quote])⟩ := by
    simp only [literal?, taken, List.drop_left, isQuote, if_true, quoted?_of_closed marks ends]
    simp
  rcases marked with rfl | rfl
  · obtain ⟨notBlank, notSpecial⟩ := not_special_of_class isQuote (by decide)
    apply split_append
    apply scan_of_literal? notBlank notSpecial
    simpa using found
  · apply split_append
    apply scan_of_literal? (by decide) (by decide)
    simpa using found

end Lexeme

/-! ### The token of a literal -/

namespace Literal

/-- Between the quotes of a string stand control characters by their code. -/
theorem small_of_isControl (character : Char) (control : isControl character = true) :
    character.toNat < 256 := by
  simp only [isControl, Bool.or_eq_true, Bool.and_eq_true, decide_eq_true_eq] at control
  omega

/-- The characters of bytes. -/
def charactersOf (content : List UInt8) : List Char :=
  content.map fun byte => Char.ofNat byte.toNat

private theorem toNat_ofNat_byte (byte : UInt8) : (Char.ofNat byte.toNat).toNat = byte.toNat := by
  have small : byte.toNat < 256 := byte.toNat_lt
  have valid : byte.toNat.isValidChar := Or.inl (by omega)
  rw [Char.ofNat, dif_pos valid]
  rfl

theorem small_of_mem_charactersOf {content : List UInt8} {character : Char}
    (member : character ∈ charactersOf content) : character.toNat < 256 := by
  obtain ⟨byte, _, rfl⟩ := List.mem_map.mp member
  rw [toNat_ofNat_byte]
  exact byte.toNat_lt

private theorem map_asciiByte_charactersOf (content : List UInt8) :
    (charactersOf content).map Escape.asciiByte = content := by
  rw [charactersOf, List.map_map]
  apply List.map_id''
  intro byte
  show UInt8.ofNat (Char.ofNat byte.toNat).toNat = byte
  rw [toNat_ofNat_byte, UInt8.ofNat_toNat]

/-- Nothing but ASCII stands between the quotes of bytes. -/
private theorem ascii_body (content : List UInt8) :
    (body isUnprintable (charactersOf content)).find? (128 ≤ ·.toNat) = none := by
  have checked : ∀ code < 256, ['"', '\''].all (fun quote =>
      (escapeCharacter quote isUnprintable (Char.ofNat code)).all (·.toNat < 128)) = true := by
    decide +kernel
  apply List.find?_eq_none.mpr
  intro character member
  obtain ⟨original, isOriginal, inEscape⟩ := List.mem_flatMap.mp member
  obtain ⟨byte, _, rfl⟩ := List.mem_map.mp isOriginal
  have isQuote := isQuote_quoteFor (charactersOf content)
  have either : quoteFor (charactersOf content) ∈ ['"', '\''] := by
    simpa [Lexeme.isQuote] using isQuote
  have ascii := List.all_eq_true.mp
    (List.all_eq_true.mp (checked byte.toNat byte.toNat_lt) _ either) character inEscape
  simp only [decide_eq_true_eq] at ascii ⊢
  omega

private theorem literalParts_quoted {letters contents : List Char} {quote : Char}
    (marked : letters = [] ∨ letters = ['b']) (isQuote : Lexeme.isQuote quote = true) :
    Lexeme.literalParts (letters ++ quote :: (contents ++ [quote])) = (letters, contents) := by
  have plain : Lexeme.isQuote 'b' = false := by decide
  have taken : (letters ++ quote :: (contents ++ [quote])).takeWhile (!Lexeme.isQuote ·) =
      letters := by
    rcases marked with rfl | rfl <;> simp [isQuote, plain]
  rw [Lexeme.literalParts, taken]
  simp [List.drop_append]

theorem literalToken_string (text : List Char) :
    Lexeme.literalToken (quoteContents isControl text) = .ok (.str (String.ofList text)) := by
  have decoded : Escape.decodeString (body isControl text) = .ok (text.map id) :=
    decodeFrom_body Escape.readsEscapes_string fun character _ => small_of_isControl character
  rw [List.map_id] at decoded
  have parts : Lexeme.literalParts ([] ++ quoteContents isControl text) =
      ([], body isControl text) :=
    literalParts_quoted (.inl rfl) (isQuote_quoteFor text)
  rw [List.nil_append] at parts
  simp [Lexeme.literalToken, parts, decoded, Except.mapError, Except.map]

theorem literalToken_bytes (content : List UInt8) :
    Lexeme.literalToken ('b' :: quoteContents isUnprintable (charactersOf content)) =
      .ok (.bytes content) := by
  have decoded : Escape.decodeBytes (body isUnprintable (charactersOf content)) =
      .ok ((charactersOf content).map Escape.asciiByte) :=
    decodeFrom_body Escape.readsEscapes_bytes fun _ member _ => small_of_mem_charactersOf member
  rw [map_asciiByte_charactersOf] at decoded
  have parts : Lexeme.literalParts (['b'] ++ quoteContents isUnprintable (charactersOf content)) =
      (['b'], body isUnprintable (charactersOf content)) :=
    literalParts_quoted (.inr rfl) (isQuote_quoteFor (charactersOf content))
  rw [List.singleton_append] at parts
  have isBytes : ['b'.toLower].contains 'b' = true := by decide
  have notRaw : ['b'.toLower].contains 'r' = false := by decide
  simp only [Lexeme.literalToken, parts, List.map_cons, List.map_nil, isBytes, notRaw, ascii_body,
    decoded, if_true, Bool.false_eq_true, if_false]
  rfl

end Literal

/-! ### Sources of one literal -/

/-- A source that is a single lexeme has its token, the end of the line and the end of file. -/
theorem tokenize_of_lexeme {source : String} {lexeme : Lexeme} {kind : TokenKind}
    (cut : Lexeme.split source.toList = [lexeme]) (whole : lexeme.text = source.toList)
    (stands : lexeme.token? = .ok (some kind)) (fits : source.utf8ByteSize ≤ Span.offsetLimit) :
    tokenize source = .ok [⟨kind, ⟨0, source.utf8ByteSize⟩⟩,
      ⟨.newline, .point source.utf8ByteSize⟩, ⟨.endOfFile, .point source.utf8ByteSize⟩] := by
  have flush : Layout.IsFlush .initial := ⟨rfl, by rintro _ ⟨⟩; rfl⟩
  rw [tokenize_of_small fits, cut, Layout.arrange, Layout.step_of_token flush stands, whole,
    ← Text.byteLength_toList, Nat.zero_add]
  rfl

/-- A source that is a literal is cut into that literal alone. -/
theorem Literal.tokenize_quoted {byCode : Char → Bool} {letters contents : List Char}
    {kind : TokenKind} {source : String} (marked : letters = [] ∨ letters = ['b'])
    (small : ∀ character ∈ contents, byCode character = true → character.toNat < 256)
    (shape : source.toList = letters ++ quoteContents byCode contents)
    (stands : Lexeme.literalToken source.toList = .ok kind)
    (fits : source.utf8ByteSize ≤ Span.offsetLimit) :
    tokenize source = .ok [⟨kind, ⟨0, source.utf8ByteSize⟩⟩,
      ⟨.newline, .point source.utf8ByteSize⟩, ⟨.endOfFile, .point source.utf8ByteSize⟩] := by
  have cut : Lexeme.split source.toList = [⟨.string, source.toList⟩] := by
    have alone := Lexeme.split_quoted marked (isQuote_quoteFor contents)
      (literalBody_body small [])
    rwa [List.append_nil, ← quoteContents_eq, ← shape] at alone
  apply tokenize_of_lexeme cut rfl _ fits
  simp [Lexeme.token?, stands, Except.map]

/-- Literals read back: the literal of a string is a source of one string token with that value,
and the literal of bytes a source of one bytes token, each followed by the end of its line and
of the file only. -/
theorem tokenize_literals :
    (∀ text : String, (Literal.ofString text).utf8ByteSize ≤ Span.offsetLimit →
      let size := (Literal.ofString text).utf8ByteSize
      tokenize (Literal.ofString text) = .ok [⟨.str text, ⟨0, size⟩⟩, ⟨.newline, .point size⟩,
        ⟨.endOfFile, .point size⟩]) ∧
      ∀ content : List UInt8, (Literal.ofBytes content).utf8ByteSize ≤ Span.offsetLimit →
        let size := (Literal.ofBytes content).utf8ByteSize
        tokenize (Literal.ofBytes content) = .ok [⟨.bytes content, ⟨0, size⟩⟩,
          ⟨.newline, .point size⟩, ⟨.endOfFile, .point size⟩] := by
  constructor
  · intro text fits
    have shape : (Literal.ofString text).toList =
        [] ++ Literal.quoteContents Literal.isControl text.toList :=
      String.toList_ofList
    apply Literal.tokenize_quoted (.inl rfl)
      (fun character _ => Literal.small_of_isControl character) shape _ fits
    rw [shape, List.nil_append, Literal.literalToken_string, String.ofList_toList]
  · intro content fits
    have shape : (Literal.ofBytes content).toList =
        ['b'] ++ Literal.quoteContents Literal.isUnprintable (Literal.charactersOf content) :=
      String.toList_ofList
    apply Literal.tokenize_quoted (.inr rfl)
      (fun _ member _ => Literal.small_of_mem_charactersOf member) shape _ fits
    rw [shape, List.singleton_append, Literal.literalToken_bytes]

/-- A string with both quotes, a backslash, escapes of every form and a character outside ASCII,
and bytes likewise. -/
theorem tokenize_literals_mixed :
    tokenize "'\\'\"\\\\\\n\\x00\\x9fé'" = .ok [⟨.str "'\"\\\n\x00\u009fé", ⟨0, 19⟩⟩,
        ⟨.newline, .point 19⟩, ⟨.endOfFile, .point 19⟩] ∧
      tokenize "b\"'\\\\\\t\\xff\"" = .ok [⟨.bytes [39, 92, 9, 255], ⟨0, 12⟩⟩,
        ⟨.newline, .point 12⟩, ⟨.endOfFile, .point 12⟩] := by
  have text : Literal.ofString "'\"\\\n\x00\u009fé" = "'\\'\"\\\\\\n\\x00\\x9fé'" := by
    decide +kernel
  have content : Literal.ofBytes [39, 92, 9, 255] = "b\"'\\\\\\t\\xff\"" := by decide +kernel
  rw [← text, ← content]
  exact ⟨tokenize_literals.1 _ (by decide +kernel), tokenize_literals.2 _ (by decide +kernel)⟩

end Transpiler
