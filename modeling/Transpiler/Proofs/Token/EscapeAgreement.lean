import Mathlib.Data.List.TakeWhile
import Transpiler.Proofs.Generate.EscapedLiteral

/-!
Contract: string and bytes literals agree on the escapes that both have.

Owns: that an escape is read from the digits after its letter only, so that reading starts
afresh at every backslash; what the two readers make of one escape (`ReadAlike`); and what
they make of a whole body without the escapes that only strings have.

The two part at an octal escape whose value is a character but no byte. A string reads on
there, so it may still stop at a later escape that is truncated.
-/

namespace Transpiler

namespace Escape

/-! ### Reading starts afresh at a backslash -/

/-- The letters of the escapes in a text, from left to right. -/
def letters : List Char → List Char
  | '\\' :: letter :: rest => letter :: letters rest
  | _ :: rest => letters rest
  | [] => []

private theorem letters_escape (letter : Char) (rest : List Char) :
    letters ('\\' :: letter :: rest) = letter :: letters rest := rfl

theorem letters_plain {first : Char} (rest : List Char) (notEscape : first ≠ '\\') :
    letters (first :: rest) = letters rest := by
  rw [letters]
  intro _ _ isEscape
  exact absurd isEscape notEscape

/-- Digits are no letters of escapes. -/
private theorem letters_drop {text : List Char} {count : Nat}
    (digits : ∀ character ∈ text.take count, character ≠ '\\') :
    letters (text.drop count) = letters text := by
  induction count generalizing text with
  | zero => rfl
  | succ count inductionHypothesis =>
      cases text with
      | nil => rfl
      | cons first rest =>
          rw [List.take_succ_cons] at digits
          rw [List.drop_succ_cons, letters_plain rest (digits first List.mem_cons_self)]
          exact inductionHypothesis fun character member =>
            digits character (List.mem_cons_of_mem first member)

/-- A text that ends between escapes: no backslash is left without its letter. -/
inductive Whole : List Char → Prop where
  | nil : Whole []
  | plain {first : Char} {rest : List Char} (notEscape : first ≠ '\\') (whole : Whole rest) :
      Whole (first :: rest)
  | escape {letter : Char} {rest : List Char} (whole : Whole rest) :
      Whole ('\\' :: letter :: rest)

theorem Whole.drop {text : List Char} (whole : Whole text) {count : Nat}
    (digits : ∀ character ∈ text.take count, character ≠ '\\') : Whole (text.drop count) := by
  induction count generalizing text with
  | zero => exact whole
  | succ count inductionHypothesis =>
      cases whole with
      | nil => exact .nil
      | plain notEscape others =>
          rw [List.take_succ_cons] at digits
          exact inductionHypothesis others fun character member =>
            digits character (List.mem_cons_of_mem _ member)
      | escape others => exact absurd rfl (digits '\\' (by simp))

/-- A reader of escapes looks at the digits after a letter and no further. -/
structure ReadsDigits {α : Type} (read : Char → List Char → Except EscapeError (Reading α)) :
    Prop where
  stops (escape : Char) (following rest : List Char) :
    read escape (following ++ '\\' :: rest) = read escape following
  digits {escape : Char} {following : List Char} {reading : Reading α}
    (found : read escape following = .ok reading) :
    reading.used ≤ following.length ∧
      ∀ character ∈ following.take reading.used, character ≠ '\\'

private theorem moreOctalDigits_append (following rest : List Char) :
    moreOctalDigits (following ++ '\\' :: rest) = moreOctalDigits following := by
  have stops : Text.isRadixDigit 8 '\\' = false := by decide
  cases following with
  | nil => simp [moreOctalDigits, stops]
  | cons first others =>
      cases others with
      | nil => simp [moreOctalDigits, List.takeWhile_cons, stops]
      | cons second others => simp [moreOctalDigits]

private theorem take_moreOctalDigits (following : List Char) :
    following.take (moreOctalDigits following).length = moreOctalDigits following := by
  have isPrefix : moreOctalDigits following <+: following :=
    (List.takeWhile_prefix _).trans (List.take_prefix 2 following)
  exact (List.prefix_iff_eq_take.mp isPrefix).symm

private theorem ne_backslash_of_digit {radix : Nat} {character : Char}
    (isDigit : Text.isRadixDigit radix character = true) : character ≠ '\\' := by
  rintro rfl
  have noDigit : Text.isRadixDigit radix '\\' = false := by
    rw [Text.isRadixDigit, show Text.digitValue? radix '\\' = none from rfl]
    rfl
  rw [noDigit] at isDigit
  contradiction

private theorem moreOctalDigits_digits (following : List Char) :
    (moreOctalDigits following).length ≤ following.length ∧
      ∀ character ∈ following.take (moreOctalDigits following).length, character ≠ '\\' := by
  constructor
  · exact Nat.le_trans (List.takeWhile_sublist _).length_le (List.length_take_le' 2 following)
  · intro character member
    rw [take_moreOctalDigits] at member
    exact ne_backslash_of_digit (List.all_eq_true.mp List.all_takeWhile character member)

private theorem hexValue_append (escape : Char) (count : Nat) (following rest : List Char) :
    hexValue escape count (following ++ '\\' :: rest) = hexValue escape count following := by
  by_cases enough : count ≤ following.length
  · rw [hexValue, hexValue, List.take_append_of_le_length enough]
  · -- the digits would have to go on past the backslash
    have noDigits :
        ((following ++ '\\' :: rest).take count).all (Text.isRadixDigit 16) = false := by
      rw [List.all_eq_false]
      refine ⟨'\\', ?_, by decide⟩
      rw [List.take_append]
      apply List.mem_append_right
      obtain ⟨more, isMore⟩ : ∃ more, count - following.length = more + 1 :=
        ⟨count - following.length - 1, by omega⟩
      simp [isMore]
    have short : (following.take count).length ≠ count := by
      rw [List.length_take]
      omega
    rw [hexValue, hexValue, if_neg (by simp [noDigits]), if_neg (by simp only [short]; simp)]

private theorem digits_of_hexValue {escape : Char} {count : Nat} {following : List Char}
    {value : Nat} (found : hexValue escape count following = .ok value) :
    (count ≤ following.length ∧ ∀ character ∈ following.take count, character ≠ '\\') ∧
      value < 16 ^ count := by
  unfold hexValue at found
  extract_lets digits at found
  split at found
  case isTrue areDigits =>
    obtain ⟨enough, areHex⟩ : digits.length = count ∧ digits.all (Text.isRadixDigit 16) = true := by
      simpa using areDigits
    have bound := Text.positionalValue_lt_pow (show 0 < 16 by decide) digits
    rw [enough, Except.ok.inj found] at bound
    refine ⟨⟨?_, ?_⟩, bound⟩
    · rw [← enough]
      exact List.length_take_le' count following
    · intro character member
      exact ne_backslash_of_digit (List.all_eq_true.mp areHex character member)
  case isFalse => contradiction

private theorem error_of_hexValue {escape : Char} {count : Nat} {following : List Char}
    {error : EscapeError} (failed : hexValue escape count following = .error error) :
    error = .truncated escape count := by
  unfold hexValue at failed
  extract_lets digits at failed
  split at failed
  · contradiction
  · exact (Except.error.inj failed).symm

/-- The digits that belong to an escape. -/
inductive Uses (escape : Char) (following : List Char) : Nat → Prop where
  | nothing : Uses escape following 0
  | octal : Uses escape following (moreOctalDigits following).length
  | hex {count value : Nat} (found : hexValue escape count following = .ok value) :
      Uses escape following count

theorem Uses.digits {escape : Char} {following : List Char} {used : Nat}
    (uses : Uses escape following used) :
    used ≤ following.length ∧ ∀ character ∈ following.take used, character ≠ '\\' := by
  cases uses with
  | nothing => simp
  | octal => exact moreOctalDigits_digits following
  | hex found => exact (digits_of_hexValue found).1

/-- A step of reading that succeeds, and what follows it. -/
private theorem exists_of_bind {α β : Type} {first : Except EscapeError α}
    {next : α → Except EscapeError β} {result : β} (ran : first >>= next = .ok result) :
    ∃ value, first = .ok value ∧ next value = .ok result := by
  cases first with
  | error => contradiction
  | ok value => exact ⟨value, rfl, ran⟩

private theorem uses_readInString {escape : Char} {following : List Char} {reading : Reading Char}
    (found : readInString escape following = .ok reading) :
    Uses escape following reading.used := by
  unfold readInString at found
  extract_lets hex at found
  have hexadecimal {count : Nat} (read : hex count = .ok reading) :
      Uses escape following reading.used := by
    obtain ⟨value, valued, read⟩ := exists_of_bind read
    obtain ⟨decoded, _, read⟩ := exists_of_bind read
    cases read
    exact .hex valued
  split at found
  · cases found
    exact .nothing
  split at found
  · obtain ⟨decoded, _, read⟩ := exists_of_bind found
    cases read
    exact .octal
  split at found
  · exact hexadecimal found
  split at found
  · exact hexadecimal found
  split at found
  · exact hexadecimal found
  split at found
  · contradiction
  · cases found
    exact .nothing

private theorem uses_readInBytes {escape : Char} {following : List Char} {reading : Reading UInt8}
    (found : readInBytes escape following = .ok reading) :
    Uses escape following reading.used := by
  unfold readInBytes at found
  split at found
  · cases found
    exact .nothing
  split at found
  · obtain ⟨decoded, _, read⟩ := exists_of_bind found
    cases read
    exact .octal
  split at found
  next isHex =>
    obtain rfl := eq_of_beq isHex
    obtain ⟨value, valued, read⟩ := exists_of_bind found
    obtain ⟨decoded, _, read⟩ := exists_of_bind read
    cases read
    exact .hex valued
  next =>
    cases found
    exact .nothing

private theorem readsDigits_string : ReadsDigits readInString where
  stops escape following rest := by
    simp only [readInString, moreOctalDigits_append, hexValue_append]
  digits found := (uses_readInString found).digits

theorem readsDigits_bytes : ReadsDigits readInBytes where
  stops escape following rest := by
    simp only [readInBytes, moreOctalDigits_append, hexValue_append]
  digits found := (uses_readInBytes found).digits

section

variable {α : Type} {plain : Char → α} {read : Char → List Char → Except EscapeError (Reading α)}

theorem decodeFrom_of_error {escape : Char} {following : List Char} {error : EscapeError}
    (failed : read escape following = .error error) :
    decodeFrom plain read 0 ('\\' :: escape :: following) = .error error := by
  rw [decodeFrom]
  simp only [beq_self_eq_true, if_true, failed]
  rfl

/-- A text that ends between escapes is decoded by itself, if an escape follows. -/
private theorem decodeFrom_append (reads : ReadsDigits read) {before : List Char}
    (whole : Whole before) (rest : List Char) :
    decodeFrom plain read 0 (before ++ '\\' :: rest) =
      (decodeFrom plain read 0 before).bind fun values =>
        (decodeFrom plain read 0 ('\\' :: rest)).map (values ++ ·) := by
  induction length : before.length using Nat.strongRecOn generalizing before with
  | ind size inductionHypothesis =>
      cases whole with
      | nil =>
          change _ = (decodeFrom plain read 0 ('\\' :: rest)).map ([] ++ ·)
          rw [List.nil_append]
          cases decodeFrom plain read 0 ('\\' :: rest) <;> rfl
      | plain notEscape others =>
          rename_i first following
          rw [List.cons_append, decodeFrom_plain _ notEscape, decodeFrom_plain _ notEscape,
            inductionHypothesis _ (by simp [← length]) others rfl]
          cases decodeFrom plain read 0 following with
          | error => rfl
          | ok values => cases decodeFrom plain read 0 ('\\' :: rest) <;> rfl
      | escape others =>
          rename_i letter following
          rw [List.cons_append, List.cons_append]
          have stops := reads.stops letter following rest
          cases found : read letter following with
          | error error =>
              rw [decodeFrom_of_error found, decodeFrom_of_error (stops.trans found)]
              rfl
          | ok reading =>
              obtain ⟨enough, digits⟩ := reads.digits found
              have shorter : (following.drop reading.used).length < size := by
                rw [List.length_drop, ← length]
                simp only [List.length_cons]
                omega
              rw [decodeFrom_escape found, decodeFrom_escape (stops.trans found),
                List.drop_append_of_le_length enough,
                inductionHypothesis _ shorter (others.drop digits) rfl]
              cases decodeFrom plain read 0 (following.drop reading.used) with
              | error => rfl
              | ok values =>
                  cases decodeFrom plain read 0 ('\\' :: rest) with
                  | error => rfl
                  | ok more => simp [Except.bind, Except.map]

end

/-! ### One escape -/

private theorem toNat_asciiByte {character : Char} (small : character.toNat < 256) :
    (asciiByte character).toNat = character.toNat := by
  rw [asciiByte, UInt8.toNat_ofNat', Nat.mod_eq_of_lt small]

private theorem oneLetter?_ascii {letter character : Char}
    (stands : oneLetter? letter = some character) :
    character.toNat < 128 := by
  unfold oneLetter? at stands
  split at stands <;> cases stands <;> decide

/-- What the two readers make of an escape that both know. -/
inductive ReadAlike (escape : Char) (following : List Char) :
    Except EscapeError (Reading Char) → Except EscapeError (Reading UInt8) → Prop where
  | values {characters : List Char} {bytes : List UInt8} {used : Nat}
      (same : characters.map Char.toNat = bytes.map UInt8.toNat) :
      ReadAlike escape following (.ok ⟨characters, used⟩) (.ok ⟨bytes, used⟩)
  | truncated :
      ReadAlike escape following (.error (.truncated 'x' 2)) (.error (.truncated 'x' 2))
  /-- The value is a character, but it is no byte. -/
  | oversize {value : Nat} (octal : Text.isRadixDigit 8 escape = true)
      (stands : Text.positionalValue 8 (escape :: moreOctalDigits following) = value)
      (large : 255 < value) (character : (Char.ofNat value).toNat = value) :
      ReadAlike escape following
        (.ok ⟨[Char.ofNat value], (moreOctalDigits following).length⟩)
        (.error (.byteOutOfRange value))

theorem toNat_ofNat_of_lt {value : Nat} (small : value < 512) :
    value.isValidChar ∧ (Char.ofNat value).toNat = value := by
  have valid : value.isValidChar := Or.inl (Nat.lt_trans small (by decide))
  refine ⟨valid, ?_⟩
  rw [Char.ofNat, dif_pos valid]
  rfl

/-- The value of an octal escape, three digits at most. -/
private theorem octalValue_lt (escape : Char) (following : List Char) :
    Text.positionalValue 8 (escape :: moreOctalDigits following) < 512 := by
  have bound := Text.positionalValue_lt_pow (show 0 < 8 by decide)
    (escape :: moreOctalDigits following)
  have power : 8 ^ (escape :: moreOctalDigits following).length ≤ 8 ^ 3 :=
    Nat.pow_le_pow_right (by decide) (Nat.succ_le_succ (length_moreOctalDigits_le following))
  exact Nat.lt_of_lt_of_le bound power

/-- An octal escape in a string always has a character. -/
private theorem readInString_of_octal {escape : Char} (following : List Char)
    (octal : Text.isRadixDigit 8 escape = true) :
    readInString escape following =
      .ok ⟨[Char.ofNat (Text.positionalValue 8 (escape :: moreOctalDigits following))],
        (moreOctalDigits following).length⟩ := by
  have valid := (toNat_ofNat_of_lt (octalValue_lt escape following)).1
  simp only [readInString, oneLetter?_of_octal octal, octal, if_true, character, if_pos valid]
  rfl

private theorem readInBytes_of_octal {escape : Char} (following : List Char)
    (octal : Text.isRadixDigit 8 escape = true) :
    readInBytes escape following =
      (byte (Text.positionalValue 8 (escape :: moreOctalDigits following))).map
        (⟨[·], (moreOctalDigits following).length⟩) := by
  simp only [readInBytes, oneLetter?_of_octal octal, octal, if_true]
  cases byte _ <;> rfl

private theorem readAlike_of_octal {escape : Char} (following : List Char)
    (octal : Text.isRadixDigit 8 escape = true) :
    ReadAlike escape following (readInString escape following)
      (readInBytes escape following) := by
  obtain ⟨valid, code⟩ := toNat_ofNat_of_lt (octalValue_lt escape following)
  rw [readInString_of_octal following octal, readInBytes_of_octal following octal]
  by_cases small : Text.positionalValue 8 (escape :: moreOctalDigits following) < 256
  · rw [byte, if_pos small]
    exact .values (by simp [code, Nat.mod_eq_of_lt small])
  · rw [byte, if_neg small]
    exact .oversize octal rfl (by omega) code

private theorem readAlike_of_hex (following : List Char) :
    ReadAlike 'x' following (readInString 'x' following) (readInBytes 'x' following) := by
  have noLetter : oneLetter? 'x' = none := by decide
  have noOctal : Text.isRadixDigit 8 'x' = false := by decide
  simp only [readInString, readInBytes, noLetter, noOctal, Bool.false_eq_true, if_false,
    beq_self_eq_true, if_true]
  cases found : hexValue 'x' 2 following with
  | error error =>
      rw [error_of_hexValue found]
      exact .truncated
  | ok value =>
      have small : value < 256 := (digits_of_hexValue found).2
      obtain ⟨valid, code⟩ := toNat_ofNat_of_lt (show value < 512 by omega)
      change ReadAlike 'x' following (do return ⟨[← character 'x' value], 2⟩)
        (do return ⟨[← byte value], 2⟩)
      rw [character, if_pos valid, byte, if_pos small]
      exact .values (by simp [code, Nat.mod_eq_of_lt small])

private theorem readAlike {escape : Char} (following : List Char) (ascii : escape.toNat < 128)
    (known : escape ∉ ['u', 'U', 'N']) :
    ReadAlike escape following (readInString escape following)
      (readInBytes escape following) := by
  simp only [List.mem_cons, List.not_mem_nil, or_false, not_or] at known
  obtain ⟨notU, notLongU, notN⟩ := known
  by_cases octal : Text.isRadixDigit 8 escape = true
  · exact readAlike_of_octal following octal
  by_cases isHex : escape = 'x'
  · subst isHex
    exact readAlike_of_hex following
  simp only [readInString, readInBytes]
  cases short : oneLetter? escape with
  | some resolved =>
      have small := oneLetter?_ascii short
      exact .values (by simp [toNat_asciiByte (Nat.lt_trans small (by decide))])
  | none =>
      simp only [octal, beq_false_of_ne isHex, beq_false_of_ne notU, beq_false_of_ne notLongU,
        beq_false_of_ne notN, Bool.false_eq_true, if_false]
      exact .values (by simp [toNat_asciiByte (Nat.lt_trans ascii (by decide)),
        toNat_asciiByte (show '\\'.toNat < 256 by decide)])

/-! ### Whole bodies -/

private theorem decodeBytes_plain {first : Char} (rest : List Char) (notEscape : first ≠ '\\') :
    decodeBytes (first :: rest) = (decodeBytes rest).map (asciiByte first :: ·) :=
  decodeFrom_plain rest notEscape

private theorem decodeBytes_escape {escape : Char} {following : List Char} {reading : Reading UInt8}
    (read : readInBytes escape following = .ok reading) :
    decodeBytes ('\\' :: escape :: following) =
      (decodeBytes (following.drop reading.used)).map (reading.values ++ ·) :=
  decodeFrom_escape read

theorem Whole.append {text rest : List Char} (digits : ∀ character ∈ text, character ≠ '\\')
    (whole : Whole rest) : Whole (text ++ rest) := by
  induction text with
  | nil => exact whole
  | cons first others inductionHypothesis =>
      exact .plain (digits first List.mem_cons_self) (inductionHypothesis fun character member =>
        digits character (List.mem_cons_of_mem first member))

theorem Whole.letters_append {before : List Char} (whole : Whole before) (rest : List Char) :
    letters (before ++ rest) = letters before ++ letters rest := by
  induction whole with
  | nil => rfl
  | plain notEscape _ inductionHypothesis =>
      rw [List.cons_append, letters_plain _ notEscape, letters_plain _ notEscape,
        inductionHypothesis]
  | escape _ inductionHypothesis =>
      rw [List.cons_append, List.cons_append, letters_escape, letters_escape,
        inductionHypothesis, List.cons_append]

/-- A text is decoded as bytes up to an octal escape that stands for no byte. -/
structure OversizeAt (before digits : List Char) (value : Nat) : Prop where
  whole : Whole before
  accepted : ∃ bytes, decodeBytes before = .ok bytes
  three : digits.length = 3
  octal : ∀ digit ∈ digits, Text.isRadixDigit 8 digit = true
  stands : Text.positionalValue 8 digits = value
  large : 255 < value

/-- The first escape of a body that bytes cannot have is an octal one above 255. -/
def OversizeFirst (body : List Char) (value : Nat) : Prop :=
  ∃ before digits after, body = before ++ '\\' :: (digits ++ after) ∧
    OversizeAt before digits value

section Oversize

variable {value : Nat} {following : List Char}

/-- The escape itself: only with three digits the value gets above 255. -/
theorem OversizeFirst.here {escape : Char} (octal : Text.isRadixDigit 8 escape = true)
    (stands : Text.positionalValue 8 (escape :: moreOctalDigits following) = value)
    (large : 255 < value) : OversizeFirst ('\\' :: escape :: following) value := by
  refine ⟨[], escape :: moreOctalDigits following,
    following.drop (moreOctalDigits following).length, ?_, .nil, ⟨[], rfl⟩, ?_, ?_, stands, large⟩
  · have split := List.take_append_drop (moreOctalDigits following).length following
    rw [take_moreOctalDigits] at split
    rw [List.nil_append, List.cons_append, split]
  · have bound := Text.positionalValue_lt_pow (show 0 < 8 by decide)
      (escape :: moreOctalDigits following)
    have short := length_moreOctalDigits_le following
    by_contra notThree
    have power : 8 ^ (escape :: moreOctalDigits following).length ≤ 8 ^ 2 := by
      apply Nat.pow_le_pow_right (by decide)
      rw [List.length_cons] at notThree ⊢
      omega
    omega
  · intro digit member
    rcases List.mem_cons.mp member with rfl | inMore
    · exact octal
    · exact List.all_eq_true.mp List.all_takeWhile digit inMore

theorem OversizeFirst.plain {first : Char} (notEscape : first ≠ '\\')
    (later : OversizeFirst following value) : OversizeFirst (first :: following) value := by
  obtain ⟨before, digits, after, rfl, oversize⟩ := later
  obtain ⟨bytes, accepted⟩ := oversize.accepted
  have decoded : decodeBytes (first :: before) = .ok (asciiByte first :: bytes) := by
    rw [decodeBytes_plain before notEscape, accepted]
    rfl
  exact ⟨first :: before, digits, after, rfl,
    { oversize with whole := .plain notEscape oversize.whole, accepted := ⟨_, decoded⟩ }⟩

theorem OversizeFirst.escape {letter : Char} {reading : Reading UInt8}
    (found : readInBytes letter following = .ok reading)
    (later : OversizeFirst (following.drop reading.used) value) :
    OversizeFirst ('\\' :: letter :: following) value := by
  obtain ⟨enough, noEscape⟩ := readsDigits_bytes.digits found
  have split := List.take_append_drop reading.used following
  have counted : (following.take reading.used).length = reading.used := by
    rw [List.length_take, Nat.min_eq_left enough]
  generalize following.take reading.used = taken at noEscape split counted
  obtain ⟨before, digits, after, shape, oversize⟩ := later
  obtain ⟨bytes, accepted⟩ := oversize.accepted
  rw [shape, ← List.append_assoc] at split
  -- nothing of what follows the text before the escape takes part in reading the letter
  have alone : readInBytes letter (taken ++ before) = .ok reading := by
    rw [← found, ← split, readsDigits_bytes.stops]
  have decoded :
      decodeBytes ('\\' :: letter :: (taken ++ before)) = .ok (reading.values ++ bytes) := by
    rw [decodeBytes_escape alone, ← counted, List.drop_left, accepted]
    rfl
  exact ⟨'\\' :: letter :: (taken ++ before), digits, after, by rw [← split]; rfl,
    { oversize with
      whole := .escape (.append noEscape oversize.whole), accepted := ⟨_, decoded⟩ }⟩

/-- The escape as the two readers see it, whatever follows its three digits. -/
theorem OversizeAt.read {before digits : List Char} (oversize : OversizeAt before digits value)
    (after : List Char) :
    ∃ letter more, digits = letter :: more ∧ more.length = 2 ∧
      readInString letter (more ++ after) = .ok ⟨[Char.ofNat value], 2⟩ ∧
      readInBytes letter (more ++ after) = .error (.byteOutOfRange value) := by
  obtain ⟨letter, more, rfl⟩ := List.exists_cons_of_length_eq_add_one oversize.three
  have two : more.length = 2 := by simpa using oversize.three
  have octal := oversize.octal letter List.mem_cons_self
  have sameDigits : moreOctalDigits (more ++ after) = more := by
    rw [moreOctalDigits, ← two, List.take_left]
    apply List.takeWhile_eq_self_iff.mpr
    exact fun digit member => oversize.octal digit (List.mem_cons_of_mem letter member)
  refine ⟨letter, more, rfl, two, ?_, ?_⟩
  · rw [readInString_of_octal _ octal, sameDigits, oversize.stands, two]
  · have large := oversize.large
    rw [readInBytes_of_octal _ octal, sameDigits, oversize.stands, byte, if_neg (by omega)]
    rfl

/-- Reading bytes stops at the first escape that is none, with its value. -/
theorem OversizeFirst.decodeBytes_eq {body : List Char} (first : OversizeFirst body value) :
    decodeBytes body = .error (.byteOutOfRange value) := by
  obtain ⟨before, digits, after, rfl, oversize⟩ := first
  obtain ⟨bytes, accepted⟩ := oversize.accepted
  obtain ⟨letter, more, rfl, _, _, failed⟩ := oversize.read after
  have stopped : decodeBytes ('\\' :: letter :: (more ++ after)) =
      .error (.byteOutOfRange value) := decodeFrom_of_error failed
  rw [decodeBytes, decodeFrom_append readsDigits_bytes oversize.whole]
  change (decodeBytes before).bind (fun bytes =>
    (decodeBytes ('\\' :: letter :: (more ++ after))).map (bytes ++ ·)) = _
  rw [accepted, stopped]
  rfl

end Oversize

/-- How a body is decoded as a string and as bytes. -/
inductive DecodeAlike (body : List Char) :
    Except EscapeError (List Char) → Except EscapeError (List UInt8) → Prop where
  | values {text : List Char} {bytes : List UInt8}
      (same : text.map Char.toNat = bytes.map UInt8.toNat) :
      DecodeAlike body (.ok text) (.ok bytes)
  | truncated : DecodeAlike body (.error (.truncated 'x' 2)) (.error (.truncated 'x' 2))
  /-- A string keeps the value and reads on. -/
  | oversize {text : List Char} {value : Nat} (first : OversizeFirst body value)
      (kept : ∃ character ∈ text, 255 < character.toNat) :
      DecodeAlike body (.ok text) (.error (.byteOutOfRange value))
  | oversizeTruncated {value : Nat} (first : OversizeFirst body value) :
      DecodeAlike body (.error (.truncated 'x' 2)) (.error (.byteOutOfRange value))

/-- Values in front of a body that is decoded. -/
theorem DecodeAlike.extend {body rest : List Char} {decoded : Except EscapeError (List Char)}
    {decodedBytes : Except EscapeError (List UInt8)}
    (alike : DecodeAlike rest decoded decodedBytes) (front : List Char) (bytes : List UInt8)
    (same : front.map Char.toNat = bytes.map UInt8.toNat)
    (further : ∀ value, OversizeFirst rest value → OversizeFirst body value) :
    DecodeAlike body (decoded.map (front ++ ·)) (decodedBytes.map (bytes ++ ·)) := by
  cases alike with
  | values sameRest => exact .values (by rw [List.map_append, List.map_append, same, sameRest])
  | truncated => exact .truncated
  | oversize first kept =>
      obtain ⟨character, member, large⟩ := kept
      exact .oversize (further _ first) ⟨character, List.mem_append_right front member, large⟩
  | oversizeTruncated first => exact .oversizeTruncated (further _ first)

/-- Every outcome of reading the rest, behind an escape that is no byte. -/
theorem DecodeAlike.behindOversize {body rest : List Char} {value : Nat}
    {decoded : Except EscapeError (List Char)} {decodedBytes : Except EscapeError (List UInt8)}
    (alike : DecodeAlike rest decoded decodedBytes) (first : OversizeFirst body value)
    (large : 255 < (Char.ofNat value).toNat) :
    DecodeAlike body (decoded.map ([Char.ofNat value] ++ ·)) (.error (.byteOutOfRange value)) := by
  cases alike with
  | values | oversize => exact .oversize first ⟨_, List.mem_cons_self, large⟩
  | truncated | oversizeTruncated => exact .oversizeTruncated first

private theorem decodeAlike {body : List Char} (ascii : ∀ character ∈ body, character.toNat < 128)
    (known : ∀ letter ∈ letters body, letter ∉ ['u', 'U', 'N']) :
    DecodeAlike body (decodeString body) (decodeBytes body) := by
  -- an escape takes its digits along, so the induction is on the length of what is left
  induction length : body.length using Nat.strongRecOn generalizing body with
  | ind size inductionHypothesis =>
      cases body with
      | nil => exact .values rfl
      | cons first rest =>
          have asciiRest : ∀ character ∈ rest, character.toNat < 128 := fun character member =>
            ascii character (List.mem_cons_of_mem first member)
          by_cases notEscape : first ≠ '\\'
          · rw [letters_plain rest notEscape] at known
            have firstSmall := Nat.lt_trans (ascii first List.mem_cons_self) (by decide : 128 < 256)
            rw [decodeString_plain rest notEscape, decodeBytes_plain rest notEscape]
            refine (inductionHypothesis _ ?_ asciiRest known rfl).extend [first]
              [asciiByte first] ?_ ?_
            · simp [← length]
            · simp [toNat_asciiByte firstSmall]
            · exact fun value later => later.plain notEscape
          · obtain rfl : first = '\\' := not_not.mp notEscape
            cases rest with
            | nil => exact .values (by decide)
            | cons letter following =>
                rw [letters_escape] at known
                have behind {count : Nat}
                    (digits : ∀ character ∈ following.take count, character ≠ '\\') :
                    DecodeAlike (following.drop count) (decodeString (following.drop count))
                      (decodeBytes (following.drop count)) := by
                  refine inductionHypothesis _ ?_ ?_ ?_ rfl
                  · rw [List.length_drop, ← length, List.length_cons, List.length_cons]
                    omega
                  · exact fun character member =>
                      asciiRest character (List.mem_cons_of_mem _ (List.mem_of_mem_drop member))
                  · rw [letters_drop digits]
                    exact fun other member => known other (List.mem_cons_of_mem letter member)
                have alike := readAlike following (asciiRest letter List.mem_cons_self)
                  (known letter List.mem_cons_self)
                generalize inString : readInString letter following = string,
                  inBytes : readInBytes letter following = bytes at alike
                cases alike with
                | values same =>
                    rw [decodeString_escape inString, decodeBytes_escape inBytes]
                    exact (behind (readsDigits_bytes.digits inBytes).2).extend _ _ same
                      fun value later => later.escape inBytes
                | truncated =>
                    rw [decodeString, decodeFrom_of_error inString, decodeBytes,
                      decodeFrom_of_error inBytes]
                    exact .truncated
                | oversize octal stands large code =>
                    rw [decodeString_escape inString, decodeBytes, decodeFrom_of_error inBytes]
                    exact (behind (readsDigits_string.digits inString).2).behindOversize
                      (.here octal stands large) (by rw [code]; exact large)

/-- How decoding a body as a string and as bytes agrees. -/
structure Agree (body : List Char) : Prop where
  values : ∀ bytes, decodeBytes body = .ok bytes ↔
    ∃ text, decodeString body = .ok text ∧ (∀ character ∈ text, character.toNat ≤ 255) ∧
      text.map Char.toNat = bytes.map UInt8.toNat
  truncated : ∀ escape digits, decodeBytes body = .error (.truncated escape digits) ↔
    decodeString body = .error (.truncated escape digits) ∧ ¬ ∃ value, OversizeFirst body value
  oversize : ∀ value,
    decodeBytes body = .error (.byteOutOfRange value) ↔ OversizeFirst body value
  /-- The escape at which bytes stop is a character of the string. -/
  readsOn : ∀ before digits after value, body = before ++ '\\' :: (digits ++ after) →
    OversizeAt before digits value → ∃ text, decodeString before = .ok text ∧
      decodeString body = (decodeString after).map (text ++ Char.ofNat value :: ·)
  stringFaults : ∀ error, decodeString body = .error error → error = .truncated 'x' 2
  bytesFaults : ∀ error, decodeBytes body = .error error →
    error = .truncated 'x' 2 ∨ ∃ value, error = .byteOutOfRange value

section Outcomes

variable {body : List Char}

theorem eq_of_map_toNat {bytes others : List UInt8}
    (same : bytes.map UInt8.toNat = others.map UInt8.toNat) : bytes = others :=
  (List.map_inj_right fun _ _ => UInt8.toNat_inj.mp).mp same

/-- Bytes are decoded exactly if the characters of the string are bytes. -/
theorem DecodeAlike.values_iff {decoded : Except EscapeError (List Char)}
    {decodedBytes : Except EscapeError (List UInt8)}
    (alike : DecodeAlike body decoded decodedBytes) (bytes : List UInt8) :
    decodedBytes = .ok bytes ↔
      ∃ text, decoded = .ok text ∧ (∀ character ∈ text, character.toNat ≤ 255) ∧
        text.map Char.toNat = bytes.map UInt8.toNat := by
  cases alike with
  | values same =>
      rename_i text others
      constructor
      · rintro ⟨⟩
        refine ⟨text, rfl, ?_, same⟩
        intro character member
        have code : character.toNat ∈ text.map Char.toNat := List.mem_map_of_mem member
        rw [same] at code
        obtain ⟨byte, _, isCode⟩ := List.mem_map.mp code
        have small := byte.toNat_lt
        omega
      · rintro ⟨_, ⟨⟩, _, sameToo⟩
        rw [eq_of_map_toNat (same.symm.trans sameToo)]
  | truncated | oversizeTruncated => simp
  | oversize first kept =>
      obtain ⟨character, member, large⟩ := kept
      constructor
      · rintro ⟨⟩
      · rintro ⟨_, ⟨⟩, small, _⟩
        exact absurd (small character member) (by omega)

/-- The two stop at the same truncated escape, unless bytes stop before. -/
theorem DecodeAlike.truncated_iff {decoded : Except EscapeError (List Char)}
    {decodedBytes : Except EscapeError (List UInt8)}
    (alike : DecodeAlike body decoded decodedBytes) (isBytes : decodeBytes body = decodedBytes)
    (escape : Char) (digits : Nat) :
    decodedBytes = .error (.truncated escape digits) ↔
      decoded = .error (.truncated escape digits) ∧ ¬ ∃ value, OversizeFirst body value := by
  cases alike with
  | values => simp
  | truncated =>
      have notFirst : ¬ ∃ value, OversizeFirst body value := by
        rintro ⟨value, first⟩
        rw [first.decodeBytes_eq] at isBytes
        cases isBytes
      simp [notFirst]
  | oversize => simp
  | oversizeTruncated first =>
      constructor
      · rintro ⟨⟩
      · rintro ⟨_, notFirst⟩
        exact absurd ⟨_, first⟩ notFirst

/-- A string reads on behind an escape that stands for no byte. -/
theorem OversizeAt.decodeString_eq {before digits after : List Char} {value : Nat}
    (oversize : OversizeAt before digits value)
    (ascii : ∀ character ∈ before, character.toNat < 128)
    (known : ∀ letter ∈ letters before, letter ∉ ['u', 'U', 'N']) :
    ∃ text, decodeString before = .ok text ∧
      decodeString (before ++ '\\' :: (digits ++ after)) =
        (decodeString after).map (text ++ Char.ofNat value :: ·) := by
  obtain ⟨bytes, accepted⟩ := oversize.accepted
  obtain ⟨text, isText, _⟩ := ((decodeAlike ascii known).values_iff bytes).mp accepted
  obtain ⟨letter, more, rfl, two, found, _⟩ := oversize.read after
  refine ⟨text, isText, ?_⟩
  have behind := decodeString_escape found
  rw [← two, List.drop_left] at behind
  rw [decodeString, decodeFrom_append readsDigits_string oversize.whole]
  change (decodeString before).bind (fun text =>
    (decodeString ('\\' :: letter :: (more ++ after))).map (text ++ ·)) = _
  rw [isText, behind]
  cases decodeString after <;> rfl

end Outcomes

/-- On an ASCII body without the escapes that only strings have, decoding yields bytes exactly
if it yields a text of characters up to 255, which are then those bytes. Both stop at the same
truncated escape, unless an octal escape above 255 comes first: there bytes stop with its value,
and a string takes the value for a character and reads on. -/
theorem decoders_agree {body : List Char}
    (ascii : ∀ character ∈ body, character.toNat < 128)
    (known : ∀ letter ∈ letters body, letter ∉ ['u', 'U', 'N']) : Agree body := by
  have alike := decodeAlike ascii known
  constructor
  case values => exact alike.values_iff
  case truncated => exact alike.truncated_iff rfl
  case oversize =>
    intro value
    refine ⟨?_, OversizeFirst.decodeBytes_eq⟩
    intro stopped
    rw [stopped] at alike
    generalize decodeString body = decoded at alike
    cases alike with
    | oversize first => exact first
    | oversizeTruncated first => exact first
  case readsOn =>
    rintro before digits after value rfl oversize
    rw [oversize.whole.letters_append] at known
    exact oversize.decodeString_eq
      (fun character member => ascii character (List.mem_append_left _ member))
      (fun letter member => known letter (List.mem_append_left _ member))
  case stringFaults =>
    intro error failed
    rw [failed] at alike
    generalize decodeBytes body = decodedBytes at alike
    cases alike with
    | truncated | oversizeTruncated => rfl
  case bytesFaults =>
    intro error failed
    rw [failed] at alike
    generalize decodeString body = decoded at alike
    cases alike with
    | truncated => exact .inl rfl
    | oversize | oversizeTruncated => exact .inr ⟨_, rfl⟩

/-- An octal escape above 255 before one that is truncated. -/
theorem decoders_agree_oversize :
    (∀ character ∈ ['A', '\\', '7', '7', '7', '\\', 'x', '4'], character.toNat < 128) ∧
      (∀ letter ∈ letters ['A', '\\', '7', '7', '7', '\\', 'x', '4'],
        letter ∉ ['u', 'U', 'N']) ∧
      Agree ['A', '\\', '7', '7', '7', '\\', 'x', '4'] := by
  have ascii : ∀ character ∈ ['A', '\\', '7', '7', '7', '\\', 'x', '4'],
      character.toNat < 128 := by simp
  have known : ∀ letter ∈ letters ['A', '\\', '7', '7', '7', '\\', 'x', '4'],
      letter ∉ ['u', 'U', 'N'] := by simp [letters]
  exact ⟨ascii, known, decoders_agree ascii known⟩

/-- Where an octal escape above 255 comes first, it is not bytes alone that fail: a string can
still stop at a later escape. -/
theorem not_only_bytes_fail :
    ¬ ∀ (body : List Char) (value : Nat), (∀ character ∈ body, character.toNat < 128) →
      (∀ letter ∈ letters body, letter ∉ ['u', 'U', 'N']) → OversizeFirst body value →
        decodeBytes body = .error (.byteOutOfRange value) ∧
          ∃ text, decodeString body = .ok text := by
  intro onlyBytes
  have first : OversizeFirst ['\\', '4', '0', '0', '\\', 'x', '4'] 256 :=
    .here (by decide) (by decide) (by decide)
  obtain ⟨_, text, decoded⟩ := onlyBytes _ _ (by simp) (by simp [letters]) first
  have stopped : decodeString ['\\', '4', '0', '0', '\\', 'x', '4'] =
      .error (.truncated 'x' 2) := by decide
  rw [stopped] at decoded
  cases decoded

end Escape
end Transpiler
