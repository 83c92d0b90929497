import Transpiler.Proofs.Source.Search
import Transpiler.Proofs.Token.Coverage

/-!
Contract: lines and columns by counting characters.

Owns: the position that a text reaches and how a text before it moves that position, cutting a
text at byte offsets between its characters, and that the line table finds the position of every
such offset, as far as its line and its column fit. They do not only at the end of certain texts
that are as long as offsets go (`Text.Outgrows`).
-/

namespace Transpiler

/-! ### Counting -/

/-- The position that a text reaches: one line more than it has line feeds, and one column
more than there are characters after the last of them. -/
def positionAfter (text : List Char) : Position :=
  ⟨text.count '\n' + 1, (Layout.lastLine text).length + 1⟩

namespace Layout

/-- A text is its lines up to the last line feed, and the line after that. -/
theorem exists_before_lastLine (text : List Char) :
    ∃ before, text = before ++ lastLine text ∧
      (before = [] ∨ ∃ lines, before = lines ++ ['\n']) := by
  induction text using List.reverseRecOn with
  | nil => exact ⟨[], rfl, .inl rfl⟩
  | append_singleton front character inductionHypothesis =>
      by_cases isBreak : character = '\n'
      · subst isBreak
        rw [lastLine_of_lineFeed]
        exact ⟨front ++ ['\n'], by simp, .inr ⟨front, rfl⟩⟩
      · obtain ⟨before, shape, ending⟩ := inductionHypothesis
        rw [lastLine_append (by simpa using Ne.symm isBreak)]
        exact ⟨before, by rw [← List.append_assoc, ← shape], ending⟩

theorem lineFeed_not_mem_lastLine (text : List Char) : '\n' ∉ lastLine text := by
  intro member
  have kept := List.all_eq_true.mp List.all_takeWhile '\n' (List.mem_reverse.mp member)
  simp at kept

theorem lastLine_of_oneLine {text : List Char} (oneLine : '\n' ∉ text) : lastLine text = text :=
  @lastLine_append [] text oneLine

/-- All line feeds of a text stand before its last line. -/
theorem count_before_lastLine {text before : List Char} (shape : text = before ++ lastLine text) :
    text.count '\n' = before.count '\n' := by
  have lines : (before ++ lastLine text).count '\n' = before.count '\n' := by
    rw [List.count_append, List.count_eq_zero.mpr (lineFeed_not_mem_lastLine text), Nat.add_zero]
  rwa [← shape] at lines

/-- The last line is that of what comes last, if that has a line feed. -/
theorem lastLine_append_of_mem {text more : List Char} (hasBreak : '\n' ∈ more) :
    lastLine (text ++ more) = lastLine more := by
  obtain ⟨before, shape, ending⟩ := exists_before_lastLine more
  have inLine := lineFeed_not_mem_lastLine more
  rcases ending with rfl | ⟨lines, rfl⟩
  · rw [shape] at hasBreak
    exact absurd hasBreak inLine
  · have split : text ++ more = text ++ lines ++ ['\n'] ++ lastLine more := by
      rw [List.append_assoc, List.append_assoc, ← List.append_assoc lines, ← shape]
    rw [split, lastLine_append inLine, lastLine_of_lineFeed, List.nil_append]

end Layout

/-- A text before another moves what is on the first line of it to the right, and all of it
down. -/
theorem positionAfter_append (text more : List Char) :
    positionAfter (text ++ more) =
      ⟨(positionAfter more).line + text.count '\n',
        (positionAfter more).column +
          if '\n' ∈ more then 0 else (Layout.lastLine text).length⟩ := by
  have line : (text ++ more).count '\n' + 1 = more.count '\n' + 1 + text.count '\n' := by
    rw [List.count_append]
    omega
  by_cases hasBreak : '\n' ∈ more
  · rw [if_pos hasBreak, positionAfter, line, Layout.lastLine_append_of_mem hasBreak]
    rfl
  · have column : (Layout.lastLine (text ++ more)).length + 1 =
        more.length + 1 + (Layout.lastLine text).length := by
      rw [Layout.lastLine_append hasBreak, List.length_append]
      omega
    rw [if_neg hasBreak, positionAfter, line, column, positionAfter,
      Layout.lastLine_of_oneLine hasBreak]

/-! ### Cutting -/

namespace Text

theorem length_le_byteLength (text : List Char) : text.length ≤ byteLength text := by
  induction text with
  | nil => exact Nat.le_refl 0
  | cons character rest inductionHypothesis =>
      have wide := Char.utf8Size_pos character
      rw [List.length_cons, byteLength_cons]
      omega

theorem eq_nil_of_byteLength {text : List Char} (empty : byteLength text = 0) : text = [] := by
  have short := length_le_byteLength text
  exact List.eq_nil_of_length_eq_zero (by omega)

theorem dropBytes?_append (first rest : List Char) :
    dropBytes? (byteLength first) (first ++ rest) = some rest := by
  induction first with
  | nil => rw [byteLength_nil, dropBytes?.eq_def, if_pos rfl, List.nil_append]
  | cons character first inductionHypothesis =>
      have wide := Char.utf8Size_pos character
      rw [List.cons_append, dropBytes?.eq_def, if_neg (by rw [byteLength_cons]; omega)]
      simp [inductionHypothesis]

private theorem takeBytes?_append (first rest : List Char) :
    takeBytes? (byteLength first) (first ++ rest) = some first := by
  induction first with
  | nil => rw [byteLength_nil, takeBytes?.eq_def, if_pos rfl]
  | cons character first inductionHypothesis =>
      have wide := Char.utf8Size_pos character
      rw [List.cons_append, takeBytes?.eq_def, if_neg (by rw [byteLength_cons]; omega)]
      simp [inductionHypothesis]

/-- A text that is not too large has fewer line feeds than fit, unless it has nothing else. -/
theorem count_lineFeed_lt {text front rest : List Char} (small : byteLength text ≤ counterMax)
    (split : text = front ++ rest) (other : ∃ character ∈ text, character ≠ '\n') :
    front.count '\n' < counterMax := by
  obtain ⟨character, member, differs⟩ := other
  have fewer : text.count '\n' < text.length := by
    refine Nat.lt_of_le_of_ne List.count_le_length fun all => differs ?_
    exact (List.count_eq_length.mp all character member).symm
  have short := length_le_byteLength text
  have inFront : front.count '\n' ≤ text.count '\n' := by
    rw [split, List.count_append]
    exact Nat.le_add_right _ _
  omega

/-- The end of a text whose line or column is one more than fits: the text is as long as offsets
go, and nothing but line feeds, or a single line with as many characters as bytes. -/
def Outgrows (text : List Char) (offset : Nat) : Prop :=
  offset = counterMax ∧
    (text = List.replicate counterMax '\n' ∨ text.length = counterMax ∧ '\n' ∉ text)

/-- Before a place that is not the end of such a text, line feeds and columns fit. -/
theorem fits_of_not_outgrows {text front rest : List Char} (small : byteLength text ≤ counterMax)
    (split : text = front ++ rest) (located : ¬ Outgrows text (byteLength front)) :
    front.count '\n' < counterMax ∧ (Layout.lastLine front).length < counterMax := by
  have short := length_le_byteLength front
  have sizes := congrArg byteLength split
  rw [byteLength_append] at sizes
  -- as many characters as fit leave no room for others
  have atEnd (long : counterMax ≤ front.length) :
      byteLength front = counterMax ∧ text = front ∧ front.length = counterMax := by
    obtain rfl := eq_nil_of_byteLength (by omega : byteLength rest = 0)
    exact ⟨by omega, by rw [split, List.append_nil], by omega⟩
  constructor
  · by_contra many
    have feeds : front.count '\n' ≤ front.length := List.count_le_length
    obtain ⟨size, rfl, length⟩ := atEnd (by omega)
    refine located ⟨size, .inl (List.eq_replicate_iff.mpr ⟨length, ?_⟩)⟩
    intro character member
    exact (List.count_eq_length.mp (by omega) character member).symm
  · by_contra many
    obtain ⟨before, shape, _⟩ := Layout.exists_before_lastLine front
    have lengths := congrArg List.length shape
    rw [List.length_append] at lengths
    obtain ⟨size, rfl, length⟩ := atEnd (by omega)
    obtain rfl := List.eq_nil_of_length_eq_zero (by omega : before.length = 0)
    rw [List.nil_append] at shape
    exact located ⟨size, .inr ⟨length, shape ▸ Layout.lineFeed_not_mem_lastLine text⟩⟩

/-- Between two offsets stands what was put there. -/
theorem slice?_append (before inside after : List Char) :
    slice? (before ++ (inside ++ after)) (byteLength before) (byteLength (before ++ inside)) =
      some inside := by
  rw [slice?, if_pos (by simp), dropBytes?_append, byteLength_append, Option.bind_some,
    Nat.add_sub_cancel_left, takeBytes?_append]

end Text

/-! ### The line table -/

namespace LineTable

theorem startsAfter_append (offset : Nat) (first second : List Char) :
    startsAfter offset (first ++ second) =
      startsAfter offset first ++ startsAfter (offset + Text.byteLength first) second := by
  induction first generalizing offset with
  | nil => simp [startsAfter]
  | cons character first inductionHypothesis =>
      rw [List.cons_append, startsAfter, startsAfter, inductionHypothesis, Text.byteLength_cons,
        ← Nat.add_assoc]
      split <;> rfl

theorem length_startsAfter (offset : Nat) (text : List Char) :
    (startsAfter offset text).length = text.count '\n' := by
  induction text generalizing offset with
  | nil => rfl
  | cons character rest inductionHypothesis =>
      rw [startsAfter, List.count_cons]
      split <;> simp [inductionHypothesis]

/-- Lines start inside the text, after its first character. -/
theorem bounds_of_mem_startsAfter {offset start : Nat} {text : List Char}
    (member : start ∈ startsAfter offset text) :
    offset < start ∧ start ≤ offset + Text.byteLength text := by
  induction text generalizing offset with
  | nil => simp [startsAfter] at member
  | cons character rest inductionHypothesis =>
      have wide := Char.utf8Size_pos character
      rw [Text.byteLength_cons]
      rw [startsAfter] at member
      split at member
      · rcases List.mem_cons.mp member with rfl | later
        · omega
        · have inRest := inductionHypothesis later
          omega
      · have inRest := inductionHypothesis member
        omega

private theorem pairwise_startsAfter (offset : Nat) (text : List Char) :
    (startsAfter offset text).Pairwise (· < ·) := by
  induction text generalizing offset with
  | nil => exact List.Pairwise.nil
  | cons character rest inductionHypothesis =>
      rw [startsAfter]
      split
      · refine List.pairwise_cons.mpr ⟨?_, inductionHypothesis _⟩
        intro start member
        exact (bounds_of_mem_startsAfter member).1
      · exact inductionHypothesis _

/-- Up to a place, a line has started for each line feed before it. -/
theorem countP_startsAfter_append (front rest : List Char) :
    (startsAfter 0 (front ++ rest)).countP (· ≤ Text.byteLength front) = front.count '\n' := by
  have earlier : (startsAfter 0 front).countP (· ≤ Text.byteLength front) =
      (startsAfter 0 front).length := by
    refine List.countP_eq_length.mpr ?_
    intro start member
    have inFront := bounds_of_mem_startsAfter member
    simpa using inFront.2
  have later :
      (startsAfter (Text.byteLength front) rest).countP (· ≤ Text.byteLength front) = 0 := by
    refine List.countP_eq_zero.mpr ?_
    intro start member
    have inRest := bounds_of_mem_startsAfter member
    simpa using inRest.1
  rw [startsAfter_append, Nat.zero_add, List.countP_append, earlier, later, length_startsAfter,
    Nat.add_zero]

/-- Every text begins at the first column of the first line. -/
theorem position_zero (text : String) : (ofText text).position 0 = ⟨1, 1⟩ := by
  have positive : ∀ start ∈ (startsAfter 0 text.toList).map (min · counterMax), 0 < start := by
    intro start member
    obtain ⟨exact, isStart, rfl⟩ := List.mem_map.mp member
    have later := bounds_of_mem_startsAfter isStart
    simp only [counterMax]
    omega
  have line : (ofText text).lineOf 0 = 1 := by
    rw [lineOf, ofText, search_zero positive]
    rfl
  have nothing := Text.slice?_append [] [] text.toList
  unfold position
  rw [line, Nat.zero_min]
  show Position.mk 1 (saturatingSucc ((Text.slice? text.toList 0 0).getD []).length) = _
  rw [show Text.slice? text.toList 0 0 = some [] from nothing]
  rfl

section

variable {text : String} {front before rest : List Char} (small : text.utf8ByteSize ≤ counterMax)
include small

/-- All offsets of a text that is not too large fit. -/
private theorem starts_eq : (ofText text).starts = 0 :: startsAfter 0 text.toList := by
  have fit : ∀ start ∈ startsAfter 0 text.toList, min start counterMax = start := by
    intro start member
    have inside := bounds_of_mem_startsAfter member
    rw [Text.byteLength_toList] at inside
    omega
  rw [ofText, List.map_congr_left fit, List.map_id']

/-- The lines that a text begins before a place, and those that it begins after it. -/
theorem starts_ofText (split : text.toList = front ++ rest) :
    (ofText text).starts =
      (0 :: startsAfter 0 front) ++ startsAfter (Text.byteLength front) rest := by
  rw [starts_eq small, split, startsAfter_append, Nat.zero_add, List.cons_append]

/-- The line of every offset is the number of lines that start up to it, if that fits. -/
theorem lineOf_ofText (offset : Nat) :
    (ofText text).lineOf offset =
      min ((0 :: startsAfter 0 text.toList).countP (· ≤ offset)) counterMax := by
  have starts := starts_eq small
  rw [← starts]
  refine lineOf_eq_countP ?_ starts (Nat.zero_le offset)
  rw [starts]
  refine List.pairwise_cons.mpr ⟨?_, pairwise_startsAfter 0 _⟩
  intro start member
  exact (bounds_of_mem_startsAfter member).1

theorem lineOf_of_append (split : text.toList = front ++ rest) :
    (ofText text).lineOf (Text.byteLength front) = saturatingSucc (front.count '\n') := by
  rw [lineOf_ofText small, List.countP_cons, if_pos (by simp), split, countP_startsAfter_append,
    saturatingSucc]

/-- After a line feed a line starts. -/
private theorem getD_starts_of_append (split : text.toList = before ++ rest)
    (ending : before = [] ∨ ∃ lines, before = lines ++ ['\n']) :
    (ofText text).starts.getD (before.count '\n') 0 = Text.byteLength before := by
  have isLast :
      (0 :: startsAfter 0 before).getD (before.count '\n') 0 = Text.byteLength before := by
    rcases ending with rfl | ⟨lines, rfl⟩
    · rfl
    · have length := length_startsAfter 0 lines
      simp [startsAfter_append, startsAfter, ← length, Text.byteLength_append]
  rw [starts_ofText small split, List.getD_append _ _ _ _ (by simp [length_startsAfter]), isLast]

theorem getElem?_starts_of_append (split : text.toList = before ++ rest)
    (ending : before = [] ∨ ∃ lines, before = lines ++ ['\n']) :
    (ofText text).starts[before.count '\n']? = some (Text.byteLength before) := by
  have inside : before.count '\n' < (ofText text).starts.length := by
    rw [starts_ofText small split, List.length_append, List.length_cons, length_startsAfter]
    omega
  rw [List.getElem?_eq_getElem inside, ← List.getD_eq_getElem _ 0 inside,
    getD_starts_of_append small split ending]

/-- The table finds the column of a place from the line that it finds for it. -/
private theorem position_of_line {inside : List Char}
    (split : text.toList = before ++ (inside ++ rest))
    (ending : before = [] ∨ ∃ lines, before = lines ++ ['\n'])
    (line : (ofText text).lineOf (Text.byteLength (before ++ inside)) = before.count '\n' + 1) :
    (ofText text).position (Text.byteLength (before ++ inside)) =
      ⟨before.count '\n' + 1, saturatingSucc inside.length⟩ := by
  have stop : min (Text.byteLength (before ++ inside)) (Text.byteLength text.toList) =
      Text.byteLength (before ++ inside) := by
    rw [split, ← List.append_assoc, Text.byteLength_append (before ++ inside)]
    omega
  have onLine := Text.slice?_append before inside rest
  rw [← split] at onLine
  unfold position
  simp only [line, Nat.add_sub_cancel, getD_starts_of_append small split ending]
  rw [show (ofText text).text = text.toList from rfl, stop, onLine]
  rfl

/-- The table finds the line and the column of every offset between two characters, if its line
fits; a column that does not fit is taken for the greatest that does. -/
theorem position_of_append (split : text.toList = front ++ rest)
    (fits : front.count '\n' < counterMax) :
    (ofText text).position (Text.byteLength front) =
      ⟨(positionAfter front).line, min (positionAfter front).column counterMax⟩ := by
  obtain ⟨before, shape, ending⟩ := Layout.exists_before_lastLine front
  have whole : text.toList = before ++ (Layout.lastLine front ++ rest) := by
    rw [split, ← List.append_assoc, ← shape]
  have lines := Layout.count_before_lastLine shape
  have line : (ofText text).lineOf (Text.byteLength front) = before.count '\n' + 1 := by
    rw [lineOf_of_append small split, saturatingSucc, Nat.min_eq_left fits, lines]
  have found := position_of_line small whole ending (shape ▸ line)
  rw [← shape, ← lines] at found
  exact found

/-- Every other position is found as it is. -/
theorem position_of_not_outgrows (split : text.toList = front ++ rest)
    (located : ¬ Text.Outgrows text.toList (Text.byteLength front)) :
    (ofText text).position (Text.byteLength front) = positionAfter front := by
  obtain ⟨lineFits, columnFits⟩ :=
    Text.fits_of_not_outgrows (by rwa [Text.byteLength_toList]) split located
  rw [position_of_append small split lineFits]
  exact congrArg _ (Nat.min_eq_left columnFits)

/-- After as many line feeds as offsets go, the greatest line is taken, and the line feed that
ends it is on that line. -/
private theorem position_of_lineFeeds (feeds : text.toList = List.replicate counterMax '\n') :
    (ofText text).position counterMax = ⟨counterMax, 2⟩ := by
  obtain ⟨count, isCount⟩ : ∃ count, counterMax = count + 1 := ⟨counterMax - 1, rfl⟩
  have lines : text.toList = List.replicate count '\n' ++ (['\n'] ++ []) := by
    rw [feeds, isCount, List.replicate_succ', List.append_nil]
  have ending : List.replicate count '\n' = [] ∨
      ∃ lines, List.replicate count '\n' = lines ++ ['\n'] := by
    cases count with
    | zero => exact .inl rfl
    | succ fewer => exact .inr ⟨_, List.replicate_succ'⟩
  have isEnd : Text.byteLength (List.replicate count '\n' ++ ['\n']) = counterMax := by
    rw [← List.replicate_succ', Text.byteLength_replicate rfl, ← isCount]
  have line : (ofText text).lineOf counterMax = counterMax := by
    have found := lineOf_of_append small (lines.trans (List.append_assoc _ _ _).symm)
    rw [isEnd, ← List.replicate_succ', List.count_replicate_self, ← isCount] at found
    rw [found, saturatingSucc]
    exact Nat.min_eq_right (Nat.le_succ _)
  have found := position_of_line small lines ending (by
    rw [isEnd, line, List.count_replicate_self, isCount])
  rw [isEnd, List.count_replicate_self, ← isCount] at found
  rw [found]
  rfl

/-- On the first line, a column that does not fit is taken for the greatest that does. -/
theorem position_of_oneLine (split : text.toList = front ++ rest) (oneLine : '\n' ∉ front) :
    (ofText text).position (Text.byteLength front) = ⟨1, saturatingSucc front.length⟩ := by
  have none : front.count '\n' = 0 := List.count_eq_zero.mpr oneLine
  rw [position_of_append small split (by rw [none]; decide), positionAfter, none,
    Layout.lastLine_of_oneLine oneLine, saturatingSucc]

/-- At the end of a text that outgrows them, the greatest line or the greatest column is taken. -/
theorem position_of_outgrows {offset : Nat} (outgrows : Text.Outgrows text.toList offset) :
    (ofText text).position offset =
      if '\n' ∈ text.toList then ⟨counterMax, 2⟩ else ⟨1, counterMax⟩ := by
  obtain ⟨rfl, feeds | ⟨length, oneLine⟩⟩ := outgrows
  · have hasFeed : '\n' ∈ text.toList := by
      rw [feeds]
      exact List.mem_replicate.mpr ⟨by decide, rfl⟩
    rw [if_pos hasFeed, position_of_lineFeeds small feeds]
  · have short := Text.length_le_byteLength text.toList
    have isEnd : Text.byteLength text.toList = counterMax := by
      rw [Text.byteLength_toList] at short ⊢
      omega
    have found := position_of_oneLine small (List.append_nil text.toList).symm oneLine
    rw [isEnd, length, saturatingSucc, Nat.min_eq_right (Nat.le_succ _)] at found
    rw [if_neg oneLine, found]

end

end LineTable
end Transpiler
