import Transpiler.Proofs.Diagnostic.LabelPlaces

/-!
Contract: the line table inverts.

Owns: that the line of an offset is told by the line feeds among the bytes before it, that
offsets between characters and their positions determine each other and stand in the same
order, and that the lines of the table are the pieces of the source between line feeds
(`LineTable.inverts`).

Offsets count bytes, so the line is compared with a count over the bytes of the source. No
byte of a longer character is a line feed, which makes the line right at every offset, also
inside a character and past the end. Numbers that do not fit are taken for the greatest that does:
this keeps the end of a text of four gigabytes from its own position
(`LineTable.position_not_injective`).

Does not own: what is shown at the offsets that a diagnostic names.
-/

namespace Transpiler

/-! ### Line feeds among bytes -/

namespace Text

/-- The number of line feeds among the first bytes of a text. -/
def lineFeedsBefore (offset : Nat) (text : String) : Nat :=
  (text.toUTF8.data.toList.take offset).count 10

theorem bytes_eq_flatMap (text : String) :
    text.toUTF8.data.toList = text.toList.flatMap String.utf8EncodeChar := by
  have encoded : text.toUTF8 = (text.toList.flatMap String.utf8EncodeChar).toByteArray :=
    String.utf8Encode_toList.symm
  rw [encoded, List.data_toByteArray]

/-- Only the line feed has its byte. -/
theorem lineFeed_not_mem_utf8EncodeChar {character : Char} (notBreak : character ≠ '\n') :
    10 ∉ String.utf8EncodeChar character := by
  have other : character.val.toNat ≠ 10 := by
    intro same
    exact notBreak (Char.ext (UInt32.toNat_inj.mp same))
  have unequal {value : Nat} (small : value < 256) (differs : value ≠ 10) :
      ¬ (10 : UInt8) = UInt8.ofNat value := by
    intro same
    have values := congrArg UInt8.toNat same
    rw [UInt8.toNat_ofNat_of_lt' small] at values
    exact differs values.symm
  -- all bytes of a longer character have their highest bit set
  have high {value : Nat} (large : 128 ≤ value) (small : value < 256) :
      ¬ (10 : UInt8) = UInt8.ofNat value :=
    unequal small (by omega)
  unfold String.utf8EncodeChar
  dsimp only
  split_ifs with ascii
  all_goals simp only [List.mem_cons, List.not_mem_nil, or_false, not_or]
  · exact unequal (by omega) other
  · exact ⟨high (by omega) (by omega), high (by omega) (by omega)⟩
  · exact ⟨high (by omega) (by omega), high (by omega) (by omega), high (by omega) (by omega)⟩
  · exact ⟨high (by omega) (by omega), high (by omega) (by omega), high (by omega) (by omega),
      high (by omega) (by omega)⟩

end Text

namespace LineTable

/-- A line has started up to an offset for each line feed among the bytes before it. -/
private theorem countP_startsAfter (base offset : Nat) (text : List Char) :
    (startsAfter base text).countP (· ≤ offset) =
      ((text.flatMap String.utf8EncodeChar).take (offset - base)).count 10 := by
  induction text generalizing base with
  | nil => simp [startsAfter]
  | cons character rest inductionHypothesis =>
      have later : offset - base - character.utf8Size = offset - (base + character.utf8Size) := by
        omega
      rw [List.flatMap_cons, List.take_append, String.length_utf8EncodeChar, List.count_append,
        later, ← inductionHypothesis, startsAfter]
      split
      case isTrue isBreak =>
        obtain rfl := eq_of_beq isBreak
        have encoded : String.utf8EncodeChar '\n' = [10] := by decide
        have size : '\n'.utf8Size = 1 := rfl
        rw [List.countP_cons, encoded, size, Nat.add_comm]
        by_cases reached : base + 1 ≤ offset
        · obtain ⟨more, left⟩ : ∃ more, offset - base = more + 1 := ⟨offset - base - 1, by omega⟩
          simp [reached, left]
        · have none : offset - base = 0 := by omega
          simp [reached, none]
      case isFalse notBreak =>
        have absent : 10 ∉ (String.utf8EncodeChar character).take (offset - base) := fun member =>
          Text.lineFeed_not_mem_utf8EncodeChar (by simpa using notBreak)
            (List.mem_of_mem_take member)
        rw [List.count_eq_zero_of_not_mem absent, Nat.zero_add]

private theorem lineFeedsBefore_of_append {source : String} {front rest : List Char}
    (split : source.toList = front ++ rest) :
    Text.lineFeedsBefore (Text.byteLength front) source = front.count '\n' := by
  have counted := countP_startsAfter 0 (Text.byteLength front) source.toList
  rw [split, countP_startsAfter_append, Nat.sub_zero, ← split] at counted
  rw [Text.lineFeedsBefore, Text.bytes_eq_flatMap, counted]

private theorem lineOf_eq_lineFeedsBefore {source : String}
    (small : source.utf8ByteSize ≤ counterMax) (offset : Nat) :
    (ofText source).lineOf offset =
      min (1 + Text.lineFeedsBefore offset source) counterMax := by
  rw [lineOf_ofText small, List.countP_cons, countP_startsAfter, Nat.sub_zero,
    Text.lineFeedsBefore, Text.bytes_eq_flatMap, if_pos (by simp), Nat.add_comm]

end LineTable

/-! ### Positions in order -/

/-- The first position is on an earlier line, or further left on the same line. -/
def Position.Precedes (first second : Position) : Prop :=
  first.line < second.line ∨ first.line = second.line ∧ first.column < second.column

theorem Position.Precedes.asymm {first second : Position} (precedes : first.Precedes second) :
    ¬ second.Precedes first := by
  unfold Precedes at *
  omega

theorem Position.not_precedes_self (position : Position) : ¬ position.Precedes position :=
  fun precedes => precedes.asymm precedes

private theorem precedes_positionAfter (text : List Char) {more : List Char}
    (nonempty : more ≠ []) :
    (positionAfter text).Precedes (positionAfter (text ++ more)) := by
  rw [positionAfter_append]
  by_cases hasBreak : '\n' ∈ more
  · left
    have positive := List.count_pos_iff.mpr hasBreak
    simp only [positionAfter]
    omega
  · right
    have positive := List.length_pos_iff.mpr nonempty
    simp only [positionAfter, if_neg hasBreak, Layout.lastLine_of_oneLine hasBreak,
      List.count_eq_zero.mpr hasBreak]
    omega

namespace Text

/-- A valid position is the end of the characters before it. -/
theorem exists_front_of_isValid {source : String} {offset : Nat}
    (valid : String.Pos.Raw.IsValid source ⟨offset⟩) :
    ∃ front rest : String, source = front ++ rest ∧ offset = byteLength front.toList := by
  obtain ⟨front, rest, split, isEnd⟩ := String.Pos.Raw.isValid_iff_exists_append.mp valid
  refine ⟨front, rest, split, ?_⟩
  rw [byteLength_toList]
  exact congrArg String.Pos.Raw.byteIdx isEnd

/-- Of two beginnings of a text, the one with fewer bytes begins the other. -/
theorem exists_more_of_byteLength_lt {text first second : List Char} (firstBegins : first <+: text)
    (secondBegins : second <+: text) (less : byteLength first < byteLength second) :
    ∃ more, more ≠ [] ∧ second = first ++ more := by
  rcases List.prefix_or_prefix_of_prefix firstBegins secondBegins with ⟨more, rfl⟩ | ⟨more, rfl⟩
  · refine ⟨more, ?_, rfl⟩
    rintro rfl
    simp at less
  · rw [byteLength_append] at less
    omega

end Text

/-! ### Walking back -/

namespace LineTable

/-- The offset of a position: so many characters after the start of its line as its column
tells. -/
def offsetAt? (table : LineTable) (position : Position) : Option Nat := do
  let start ← table.starts[position.line - 1]?
  let fromStart ← Text.dropBytes? start table.text
  return start + Text.byteLength (fromStart.take (position.column - 1))

private theorem offsetAt?_positionAfter {source : String} {front rest : List Char}
    (small : source.utf8ByteSize ≤ counterMax) (split : source.toList = front ++ rest) :
    (ofText source).offsetAt? (positionAfter front) = some (Text.byteLength front) := by
  obtain ⟨before, shape, ending⟩ := Layout.exists_before_lastLine front
  have whole : source.toList = before ++ (Layout.lastLine front ++ rest) := by
    rw [split, ← List.append_assoc, ← shape]
  have start := getElem?_starts_of_append small whole ending
  have walked : (Layout.lastLine front ++ rest).take (Layout.lastLine front).length =
      Layout.lastLine front := List.take_left
  have ended : Text.byteLength before + Text.byteLength (Layout.lastLine front) =
      Text.byteLength front := by
    rw [← Text.byteLength_append, ← shape]
  unfold offsetAt? positionAfter
  simp only [Nat.add_sub_cancel, Layout.count_before_lastLine shape, start, Option.bind_eq_bind,
    Option.bind_some]
  rw [show (ofText source).text = source.toList from rfl, whole, Text.dropBytes?_append,
    Option.bind_some, walked, ended]
  rfl

end LineTable

/-! ### Pieces between line feeds -/

namespace Text

theorem IsLine.below {first text line : List Char} {number : Nat} (oneLine : '\n' ∉ first)
    (isLine : IsLine text number line) : IsLine (first ++ '\n' :: text) (number + 1) line := by
  obtain ⟨before, after, rfl, inLine, ending, next, rfl⟩ := isLine
  refine ⟨first ++ '\n' :: before, after, by simp, inLine, .inr ?_, next, ?_⟩
  · rcases ending with rfl | ⟨lines, rfl⟩
    · exact ⟨first, rfl⟩
    · exact ⟨first ++ '\n' :: lines, by simp⟩
  · rw [List.count_append, List.count_eq_zero.mpr oneLine, List.count_cons_self, Nat.zero_add]

/-- The pieces of a text between its line feeds are its lines. -/
theorem isLine_of_splitOn {text line : List Char} {index : Nat}
    (found : (text.splitOn '\n')[index]? = some line) : IsLine text (index + 1) line := by
  induction index generalizing text with
  | zero =>
      obtain ⟨first, oneLine, rfl | ⟨more, rfl⟩⟩ := exists_line text
      · rw [List.splitOn_eq_singleton oneLine] at found
        obtain rfl := Option.some.inj found
        exact ⟨[], [], by simp, oneLine, .inl rfl, .inl rfl, rfl⟩
      · rw [List.splitOn_append_cons_self_of_not_mem oneLine] at found
        obtain rfl := Option.some.inj found
        exact ⟨[], '\n' :: more, rfl, oneLine, .inl rfl, .inr ⟨more, rfl⟩, rfl⟩
  | succ index inductionHypothesis =>
      obtain ⟨first, oneLine, rfl | ⟨more, rfl⟩⟩ := exists_line text
      · rw [List.splitOn_eq_singleton oneLine] at found
        contradiction
      · rw [List.splitOn_append_cons_self_of_not_mem oneLine, List.getElem?_cons_succ] at found
        exact (inductionHypothesis found).below oneLine

theorem length_splitOn (text : List Char) :
    (text.splitOn '\n').length = text.count '\n' + 1 := by
  induction text with
  | nil => rfl
  | cons character rest inductionHypothesis =>
      rw [List.splitOn_cons_eq_if_modifyHead, List.count_cons]
      split
      · rw [List.length_cons, inductionHypothesis]
      · rw [List.length_modifyHead, inductionHypothesis, Nat.add_zero]

end Text

namespace LineTable

private theorem lineCount_eq_length_splitOn (source : String) :
    (ofText source).lineCount = (source.toList.splitOn '\n').length := by
  rw [lineCount_ofText, Text.length_splitOn]

/-- The table has the pieces of the source, without carriage returns at their ends, and no
further lines. -/
private theorem lineText?_eq_splitOn {source : String} (small : source.utf8ByteSize ≤ counterMax)
    (line : Nat) :
    (ofText source).lineText? line =
      if line = 0 then none
      else (source.toList.splitOn '\n')[line - 1]?.map (·.rdropWhile (· == '\r')) := by
  cases line with
  | zero => rfl
  | succ index =>
      rw [if_neg (Nat.succ_ne_zero index), Nat.add_sub_cancel]
      cases found : (source.toList.splitOn '\n')[index]? with
      | some piece =>
          rw [lineText?_of_isLine small (Text.isLine_of_splitOn found), Option.map_some]
      | none =>
          have past : (ofText source).starts[index]? = none := by
            rw [List.getElem?_eq_none_iff] at found ⊢
            rwa [← lineCount_eq_length_splitOn] at found
          rw [lineText?, if_neg (Nat.succ_ne_zero index), Nat.add_sub_cancel, past]
          rfl

end LineTable

/-! ### The whole table -/

/-- Between the start of a line and an offset on it stand the characters `inside`. -/
def Text.OnLine (text : List Char) (start offset : Nat) (inside : List Char) : Prop :=
  ∃ before after, text = before ++ (inside ++ after) ∧ '\n' ∉ inside ∧
    (before = [] ∨ ∃ lines, before = lines ++ ['\n']) ∧
    start = byteLength before ∧ offset = byteLength (before ++ inside)

namespace LineTable

section

variable {source : String} {offset first second : Nat}
  (small : source.utf8ByteSize ≤ counterMax)
include small

/-- Where a line and a column fit, they are found, and lead back to their offset. -/
private theorem position_of_isValid (valid : String.Pos.Raw.IsValid source ⟨offset⟩)
    (located : ¬ Text.Outgrows source.toList offset) :
    (ofText source).lineOf offset = 1 + Text.lineFeedsBefore offset source ∧
      (∃ start inside, Text.OnLine source.toList start offset inside ∧
        (ofText source).position offset = ⟨(ofText source).lineOf offset, 1 + inside.length⟩) ∧
      (ofText source).offsetAt? ((ofText source).position offset) = some offset := by
  obtain ⟨front, rest, rfl, rfl⟩ := Text.exists_front_of_isValid valid
  have split : (front ++ rest).toList = front.toList ++ rest.toList := String.toList_append
  obtain ⟨fits, _⟩ := Text.fits_of_not_outgrows (by rwa [Text.byteLength_toList]) split located
  have line := lineOf_of_append small split
  rw [saturatingSucc, Nat.min_eq_left fits] at line
  rw [position_of_not_outgrows small split located]
  refine ⟨?_, ?_, offsetAt?_positionAfter small split⟩
  · rw [line, lineFeedsBefore_of_append split, Nat.add_comm]
  · obtain ⟨before, shape, ending⟩ := Layout.exists_before_lastLine front.toList
    refine ⟨Text.byteLength before, Layout.lastLine front.toList, ?_, ?_⟩
    · refine ⟨before, rest.toList, ?_, Layout.lineFeed_not_mem_lastLine _, ending, rfl, ?_⟩
      · rw [split, ← List.append_assoc, ← shape]
      · rw [← shape]
    · rw [positionAfter, line, Nat.add_comm 1]

private theorem precedes_of_lt (firstValid : String.Pos.Raw.IsValid source ⟨first⟩)
    (secondValid : String.Pos.Raw.IsValid source ⟨second⟩)
    (firstLocated : ¬ Text.Outgrows source.toList first)
    (secondLocated : ¬ Text.Outgrows source.toList second) (less : first < second) :
    ((ofText source).position first).Precedes ((ofText source).position second) := by
  obtain ⟨front, rest, split, rfl⟩ := Text.exists_front_of_isValid firstValid
  obtain ⟨longer, others, splitToo, rfl⟩ := Text.exists_front_of_isValid secondValid
  have begins : source.toList = front.toList ++ rest.toList := by rw [split, String.toList_append]
  have beginsToo : source.toList = longer.toList ++ others.toList := by
    rw [splitToo, String.toList_append]
  obtain ⟨more, nonempty, shape⟩ := Text.exists_more_of_byteLength_lt
    ⟨rest.toList, begins.symm⟩ ⟨others.toList, beginsToo.symm⟩ less
  rw [position_of_not_outgrows small begins firstLocated,
    position_of_not_outgrows small beginsToo secondLocated, shape]
  exact precedes_positionAfter front.toList nonempty

end

/-- The line table inverts. The line of every offset is one more than the line feeds among the
bytes before it, if that fits. An offset between characters has the position of its line and one
more than the characters from the start of that line; walking back finds the offset, and positions
stand in the order of their offsets. Only the end of a text that outgrows its numbers has another
position. The lines are the pieces between line feeds, without carriage returns at their ends, and
there are no others. -/
theorem inverts (source : String) (small : source.utf8ByteSize ≤ Span.offsetLimit) :
    (∀ offset, (ofText source).lineOf offset =
      min (1 + Text.lineFeedsBefore offset source) counterMax) ∧
      (∀ offset, String.Pos.Raw.IsValid source ⟨offset⟩ →
        ¬ Text.Outgrows source.toList offset →
          (ofText source).lineOf offset = 1 + Text.lineFeedsBefore offset source ∧
          (∃ start inside, Text.OnLine source.toList start offset inside ∧
            (ofText source).position offset =
              ⟨(ofText source).lineOf offset, 1 + inside.length⟩) ∧
          (ofText source).offsetAt? ((ofText source).position offset) = some offset) ∧
      (∀ offset, Text.Outgrows source.toList offset →
        (ofText source).position offset =
          if '\n' ∈ source.toList then ⟨counterMax, 2⟩ else ⟨1, counterMax⟩) ∧
      (∀ first second, String.Pos.Raw.IsValid source ⟨first⟩ →
        String.Pos.Raw.IsValid source ⟨second⟩ →
        ¬ Text.Outgrows source.toList first → ¬ Text.Outgrows source.toList second →
          (first < second ↔
            ((ofText source).position first).Precedes ((ofText source).position second))) ∧
      (ofText source).lineCount = (source.toList.splitOn '\n').length ∧
      ∀ line, (ofText source).lineText? line =
        if line = 0 then none
        else (source.toList.splitOn '\n')[line - 1]?.map (·.rdropWhile (· == '\r')) := by
  refine ⟨lineOf_eq_lineFeedsBefore small, fun _ => position_of_isValid small,
    fun _ => position_of_outgrows small, ?_, lineCount_eq_length_splitOn source,
    lineText?_eq_splitOn small⟩
  intro first second firstValid secondValid firstLocated secondLocated
  constructor
  · exact precedes_of_lt small firstValid secondValid firstLocated secondLocated
  · intro precedes
    rcases Nat.lt_trichotomy first second with less | rfl | greater
    · exact less
    · exact absurd precedes (Position.not_precedes_self _)
    · exact absurd precedes
        (precedes_of_lt small secondValid firstValid secondLocated firstLocated greater).asymm

/-- A character of two bytes, a carriage return and an empty line: offsets on two lines, and one
past the end. -/
theorem inverts_multibyte :
    "é\r\n\nab".utf8ByteSize ≤ Span.offsetLimit ∧
      String.Pos.Raw.IsValid "é\r\n\nab" ⟨2⟩ ∧ String.Pos.Raw.IsValid "é\r\n\nab" ⟨6⟩ ∧
      (∀ offset < 7, ¬ Text.Outgrows "é\r\n\nab".toList offset) ∧
      (ofText "é\r\n\nab").lineOf 100 = 3 ∧
      (ofText "é\r\n\nab").offsetAt? ((ofText "é\r\n\nab").position 6) = some 6 ∧
      ((ofText "é\r\n\nab").position 2).Precedes ((ofText "é\r\n\nab").position 6) ∧
      (ofText "é\r\n\nab").lineText? 1 = some ['é'] ∧
      (ofText "é\r\n\nab").lineText? 4 = none := by
  have small : "é\r\n\nab".utf8ByteSize ≤ Span.offsetLimit := by decide
  obtain ⟨lines, positions, _, order, _, texts⟩ := inverts "é\r\n\nab" small
  have firstValid : String.Pos.Raw.IsValid "é\r\n\nab" ⟨2⟩ :=
    String.Pos.Raw.isValid_iff_exists_append.mpr ⟨"é", "\r\n\nab", by decide, by decide⟩
  have secondValid : String.Pos.Raw.IsValid "é\r\n\nab" ⟨6⟩ :=
    String.Pos.Raw.isValid_iff_exists_append.mpr ⟨"é\r\n\na", "b", by decide, by decide⟩
  have located : ∀ offset < 7, ¬ Text.Outgrows "é\r\n\nab".toList offset := by
    intro offset early outgrows
    have last := outgrows.1
    rw [counterMax] at last
    omega
  have feeds : Text.lineFeedsBefore 100 "é\r\n\nab" = 2 := by decide
  refine ⟨small, firstValid, secondValid, located, ?_,
    (positions 6 secondValid (located 6 (by decide))).2.2,
    (order 2 6 firstValid secondValid (located 2 (by decide)) (located 6 (by decide))).mp
      (by decide), ?_, ?_⟩
  · rw [lines, feeds]
    rfl
  · rw [texts]
    decide
  · rw [texts]
    decide

/-! ### Texts that outgrow their numbers -/

/-- In a line of as many letters as offsets go, the last letter and the end have one position;
after as many line feeds, the line is one less than it should be. -/
theorem position_not_injective :
    ∃ letters feeds : String, letters.utf8ByteSize = Span.offsetLimit ∧
      feeds.utf8ByteSize = Span.offsetLimit ∧
      String.Pos.Raw.IsValid letters ⟨counterMax - 1⟩ ∧
      String.Pos.Raw.IsValid letters ⟨counterMax⟩ ∧
      (ofText letters).position (counterMax - 1) = (ofText letters).position counterMax ∧
      (ofText feeds).lineOf counterMax = counterMax ∧
      Text.lineFeedsBefore counterMax feeds = counterMax := by
  obtain ⟨count, isCount⟩ : ∃ count, counterMax = count + 1 := ⟨counterMax - 1, rfl⟩
  let front := String.ofList (List.replicate count 'a')
  let letters := String.ofList (List.replicate counterMax 'a')
  let feeds := String.ofList (List.replicate counterMax '\n')
  have frontSize : front.utf8ByteSize = counterMax - 1 := by
    rw [Text.utf8ByteSize_ofList, Text.byteLength_replicate rfl, isCount, Nat.add_sub_cancel]
  have lettersSize : letters.utf8ByteSize = counterMax := by
    rw [Text.utf8ByteSize_ofList, Text.byteLength_replicate rfl]
  have feedsSize : feeds.utf8ByteSize = counterMax := by
    rw [Text.utf8ByteSize_ofList, Text.byteLength_replicate rfl]
  have oneLine {length : Nat} : '\n' ∉ List.replicate length 'a' := fun member =>
    absurd (List.eq_of_mem_replicate member) (by decide)
  have split : letters.toList = List.replicate count 'a' ++ ['a'] := by
    rw [String.toList_ofList, isCount, List.replicate_succ']
  have last := position_of_oneLine lettersSize.le split oneLine
  have past := @position_of_oneLine letters (List.replicate counterMax 'a') [] lettersSize.le
    (by rw [String.toList_ofList, List.append_nil]) oneLine
  have bytes := @lineFeedsBefore_of_append feeds (List.replicate counterMax '\n') []
    (by rw [String.toList_ofList, List.append_nil])
  rw [← Text.utf8ByteSize_ofList, frontSize, List.length_replicate, saturatingSucc, ← isCount,
    Nat.min_self] at last
  rw [← Text.utf8ByteSize_ofList, lettersSize, List.length_replicate, saturatingSucc,
    Nat.min_eq_right (Nat.le_succ _)] at past
  rw [← Text.utf8ByteSize_ofList, feedsSize, List.count_replicate_self] at bytes
  refine ⟨letters, feeds, lettersSize, feedsSize, ?_, ?_, last.trans past.symm, ?_, bytes⟩
  · refine String.Pos.Raw.isValid_iff_exists_append.mpr ⟨front, "a", ?_, ?_⟩
    · rw [← String.toList_inj, split, String.toList_append, String.toList_ofList]
      rfl
    · rw [← frontSize]
      rfl
  · refine String.Pos.Raw.isValid_iff_exists_append.mpr ⟨letters, "", ?_, ?_⟩
    · rw [String.append_empty]
    · rw [← lettersSize]
      rfl
  · rw [lineOf_eq_lineFeedsBefore feedsSize.le, bytes]
    exact Nat.min_eq_right (Nat.le_add_left _ _)

end LineTable
end Transpiler
