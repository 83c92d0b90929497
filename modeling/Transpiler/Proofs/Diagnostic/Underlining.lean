import Mathlib.Order.Interval.Finset.Nat
import Transpiler.Proofs.Command.ReportedLocations
import Transpiler.Proofs.Diagnostic.Coloring
import Transpiler.Proofs.Diagnostic.LabelPlaces

/-!
Contract: the marker of a label stands under the labelled characters.

Owns: how a label lies in a text, by characters and lines instead of bytes (`Label.Lies`), what is
shown for a label as a whole (`Label.picture`), and that its marker begins under the first
labelled character and is as wide as the labelled part of the line that is shown, or one character
where that part is empty (`Label.underlines`). The end of a text that outgrows lines and columns is
shown as far as they fit.

Does not own: which labels a diagnostic has, and that they lie in the source.
-/

namespace Transpiler

/-! ### Where a label lies -/

/-- How a label lies in a text: `front` is what stands before its range and `inside` what stands in
it; `line` is the line on which the range begins, without its line feed, and `before` all that
comes before that line. -/
structure Label.Lies (label : Label) (text front inside before line : List Char) : Prop where
  range : ∃ rest, text = front ++ (inside ++ rest)
  start : Text.byteLength front = label.span.start
  stop : Text.byteLength (front ++ inside) = label.span.stop
  isLine : ∃ after, text = before ++ (line ++ after) ∧ '\n' ∉ line ∧
    (before = [] ∨ ∃ lines, before = lines ++ ['\n']) ∧ (after = [] ∨ ∃ more, after = '\n' :: more)
  onLine : before.length ≤ front.length ∧ front.length ≤ before.length + line.length

namespace Text

/-- Of two beginnings of a text, the one with no more bytes begins the other. -/
theorem exists_inside {text first second rest others : List Char} (split : text = first ++ rest)
    (splitToo : text = second ++ others) (notMore : byteLength first ≤ byteLength second) :
    ∃ inside, second = first ++ inside := by
  rcases List.prefix_or_prefix_of_prefix ⟨rest, split.symm⟩ ⟨others, splitToo.symm⟩ with
    ⟨inside, shape⟩ | ⟨more, rfl⟩
  · exact ⟨inside, shape.symm⟩
  · rw [byteLength_append] at notMore
    obtain rfl := eq_nil_of_byteLength (by omega : byteLength more = 0)
    exact ⟨[], by simp⟩

end Text

namespace Label

variable {label : Label}

/-- A label lies somewhere in a text if its range does. -/
private theorem exists_lies {text : List Char} (within : label.span.Within text) :
    ∃ front inside before line, label.Lies text front inside before line := by
  obtain ⟨front, rest, split, start⟩ := within.start
  obtain ⟨longer, others, splitToo, stop⟩ := within.stop
  obtain ⟨inside, rfl⟩ := Text.exists_inside split splitToo (by
    rw [start, stop]
    exact within.forward)
  obtain ⟨before, shape, ending⟩ := Layout.exists_before_lastLine front
  obtain ⟨tail, inTail, restShape⟩ := Text.exists_line rest
  have inLine : '\n' ∉ Layout.lastLine front ++ tail := by
    simp [Layout.lineFeed_not_mem_lastLine, inTail]
  have lengths := congrArg List.length shape
  rw [List.length_append] at lengths
  refine ⟨front, inside, before, Layout.lastLine front ++ tail, ?_⟩
  refine ⟨⟨others, by rw [splitToo, List.append_assoc]⟩, start, stop, ?_, ?_⟩
  · rcases restShape with rfl | ⟨more, rfl⟩
    · refine ⟨[], ?_, inLine, ending, .inl rfl⟩
      rw [List.append_nil, ← List.append_assoc, ← shape, split]
    · refine ⟨'\n' :: more, ?_, inLine, ending, .inr ⟨more, rfl⟩⟩
      rw [List.append_assoc (Layout.lastLine front), ← List.append_assoc before, ← shape, split]
  · rw [List.length_append]
    omega

namespace Lies

variable {text front inside before line : List Char}
  (lies : label.Lies text front inside before line)
include lies

/-- What stands before the range ends with a beginning of its line. -/
theorem exists_lead : ∃ lead, front = before ++ lead ∧ lead <+: line := by
  obtain ⟨rest, split⟩ := lies.range
  obtain ⟨after, lineSplit, _⟩ := lies.isLine
  obtain ⟨notAfter, notBeyond⟩ := lies.onLine
  obtain ⟨lead, rfl⟩ := List.prefix_of_prefix_length_le ⟨line ++ after, lineSplit.symm⟩
    ⟨inside ++ rest, split.symm⟩ notAfter
  rw [split, List.append_assoc] at lineSplit
  refine ⟨lead, rfl, List.prefix_of_prefix_length_le
    ⟨inside ++ rest, List.append_cancel_left lineSplit⟩ (List.prefix_append line after) ?_⟩
  rw [List.length_append] at notBeyond
  omega

theorem positionAfter_eq :
    positionAfter front = ⟨before.count '\n' + 1, front.length - before.length + 1⟩ := by
  obtain ⟨lead, rfl, begins⟩ := lies.exists_lead
  obtain ⟨_, _, oneLine, ending, _⟩ := lies.isLine
  have inLead : '\n' ∉ lead := fun member => oneLine (begins.subset member)
  have earlier : Layout.lastLine before = [] := by
    rcases ending with rfl | ⟨lines, rfl⟩
    · rfl
    · exact Layout.lastLine_of_lineFeed lines
  rw [positionAfter, Layout.lastLine_append inLead, earlier, List.nil_append, List.count_append,
    List.count_eq_zero.mpr inLead, List.length_append, Nat.add_sub_cancel_left, Nat.add_zero]

theorem isLine_positionAfter : Text.IsLine text (positionAfter front).line line := by
  obtain ⟨after, split, oneLine, ending, next⟩ := lies.isLine
  refine ⟨before, after, split, oneLine, ending, next, ?_⟩
  rw [lies.positionAfter_eq]

end Lies

/-! ### The width of the marker -/

/-- The number of labelled characters on the part of a line that is shown, counted by their
numbers in the text. -/
def labelledCount (front inside before shown : List Char) : Nat :=
  (Finset.Ico front.length (front.length + inside.length) ∩
    Finset.Ico before.length (before.length + shown.length)).card

private theorem labelledCount_eq {front inside before shown : List Char}
    (notAfter : before.length ≤ front.length) :
    labelledCount front inside before shown =
      min inside.length (shown.length - (front.length - before.length)) := by
  rw [labelledCount, Finset.Ico_inter_Ico, Nat.card_Ico]
  omega

theorem Lies.markerWidth_eq {source : String} {front inside before line shown : List Char}
    (lies : label.Lies source.toList front inside before line) :
    label.markerWidth (.ofText source) shown.length (positionAfter front).column =
      max 1 (labelledCount front inside before shown) := by
  obtain ⟨rest, split⟩ := lies.range
  have cut : Text.slice? (LineTable.ofText source).text label.span.start label.span.stop =
      some inside := by
    rw [← lies.start, ← lies.stop, show (LineTable.ofText source).text = source.toList from rfl,
      split, Text.slice?_append]
  unfold markerWidth
  dsimp only
  rw [cut, Option.map_some, Option.getD_some, labelledCount_eq lies.onLine.1, lies.positionAfter_eq,
    Nat.add_sub_cancel]
  omega

/-! ### What is shown -/

/-- A label as it is shown: its place, the line, and under the line a marker after a number of
blanks, with the message if there is one. -/
def picture (label : Label) (useColors : Bool) (path : String) (position : Position)
    (shown : List Char) (blanks width : Nat) : String :=
  let number := toString position.line
  let gutter := repeated number.length ' '
  let marker := repeated width (if label.isPrimary then '^' else '-')
  let colored (text : String) : String := (Segment.styled label.style text).render useColors
  label.placeLine path position
    ++ (gutter ++ " |\n")
    ++ (number ++ " | " ++ String.ofList shown ++ "\n")
    ++ (gutter ++ " | " ++ repeated blanks ' ' ++ colored marker
      ++ (if label.message.isEmpty then "" else " " ++ colored label.message) ++ "\n")

/-- The segments of a label are its picture. -/
private theorem renderSegments_eq_picture (label : Label) (useColors : Bool) (path source : String)
    {position : Position} {shown : List Char}
    (place : (LineTable.ofText source).position label.span.start = position)
    (line : (LineTable.ofText source).lineText? position.line = some shown) :
    renderSegments useColors (label.segments (some (.ofText path source))) =
      label.picture useColors path position shown (position.column - 1)
        (label.markerWidth (.ofText source) shown.length position.column) := by
  subst place
  have message : renderSegments useColors
      (if label.message.isEmpty then [] else [.plain " ", .styled label.style label.message]) =
        if label.message.isEmpty then ""
        else " " ++ (Segment.styled label.style label.message).render useColors := by
    split
    · rfl
    · simp [renderSegments_cons, renderSegments_nil]
  simp only [segments, sourceSegments, SourceFile.ofText, line, Option.getD_some, List.cons_append,
    List.nil_append, renderSegments_cons, renderSegments_append, renderSegments_nil, message,
    Segment.render_plain, picture, placeLine, String.append_assoc, String.append_empty]

/-- How a label is shown that lies in a source in a given way. The line and the column are
positive and fit. -/
structure Underlines (label : Label) (useColors : Bool) (path source : String)
    (front inside before line : List Char) : Prop where
  shows : renderSegments useColors (label.segments (some (.ofText path source))) =
    label.picture useColors path (positionAfter front) (line.rdropWhile (· == '\r'))
      (front.length - before.length)
      (max 1 (labelledCount front inside before (line.rdropWhile (· == '\r'))))
  position : (LineTable.ofText source).position label.span.start = positionAfter front
  positive : 1 ≤ (positionAfter front).line ∧ 1 ≤ (positionAfter front).column
  bounded : (positionAfter front).line ≤ counterMax ∧ (positionAfter front).column ≤ counterMax
  widths : 1 ≤ max 1 ((line.rdropWhile (· == '\r')).length - ((positionAfter front).column - 1))

theorem Lies.underlined {source : String} {front inside before line : List Char}
    (lies : label.Lies source.toList front inside before line) (useColors : Bool) (path : String)
    (small : source.utf8ByteSize ≤ counterMax)
    (located : ¬ Text.Outgrows source.toList label.span.start) :
    label.Underlines useColors path source front inside before line := by
  obtain ⟨rest, split⟩ := lies.range
  rw [← lies.start] at located
  have place : (LineTable.ofText source).position label.span.start = positionAfter front := by
    rw [← lies.start]
    exact LineTable.position_of_not_outgrows small split located
  have shown := LineTable.lineText?_of_isLine small lies.isLine_positionAfter
  have blanks : (positionAfter front).column - 1 = front.length - before.length := by
    rw [lies.positionAfter_eq, Nat.add_sub_cancel]
  have fits := Text.fits_of_not_outgrows (by rwa [Text.byteLength_toList]) split located
  refine ⟨?_, place, ⟨Nat.le_add_left 1 _, Nat.le_add_left 1 _⟩, fits, Nat.le_max_left 1 _⟩
  rw [renderSegments_eq_picture label useColors path source place shown, lies.markerWidth_eq,
    blanks]

/-! ### The end of a text that outgrows its numbers -/

/-- A range without characters is marked by one. -/
theorem Lies.markerWidth_of_empty {source : String} {front before line : List Char}
    (lies : label.Lies source.toList front [] before line) (lineLength column : Nat) :
    label.markerWidth (.ofText source) lineLength column = 1 := by
  obtain ⟨rest, split⟩ := lies.range
  have cut : Text.slice? (LineTable.ofText source).text label.span.start label.span.stop =
      some [] := by
    rw [← lies.start, ← lies.stop, show (LineTable.ofText source).text = source.toList from rfl,
      split, Text.slice?_append]
  simp [markerWidth, cut]

/-- The line that is shown at the end of a text that outgrows its numbers. -/
private theorem lineText?_of_outgrows {source : String} {offset : Nat}
    (small : source.utf8ByteSize ≤ counterMax) (outgrows : Text.Outgrows source.toList offset) :
    (LineTable.ofText source).lineText? ((LineTable.ofText source).position offset).line =
      some (if '\n' ∈ source.toList then [] else source.toList.rdropWhile (· == '\r')) := by
  rw [LineTable.position_of_outgrows small outgrows]
  split
  next hasFeed =>
    obtain ⟨_, feeds | ⟨_, oneLine⟩⟩ := outgrows
    · obtain ⟨count, isCount⟩ : ∃ count, counterMax = count + 1 := ⟨counterMax - 1, rfl⟩
      refine LineTable.lineText?_of_isLine small
        ⟨List.replicate count '\n', ['\n'], ?_, List.not_mem_nil, ?_, .inr ⟨[], rfl⟩, ?_⟩
      · rw [feeds, isCount, List.replicate_succ', List.nil_append]
      · cases count with
        | zero => exact .inl rfl
        | succ fewer => exact .inr ⟨_, List.replicate_succ'⟩
      · rw [List.count_replicate_self, isCount]
    · exact absurd hasFeed oneLine
  next oneLine =>
    exact LineTable.lineText?_of_isLine small
      ⟨[], [], by simp, oneLine, .inl rfl, .inl rfl, rfl⟩

/-- What is shown for a label there. -/
private theorem shown_of_outgrows (label : Label) (useColors : Bool) (path source : String)
    (within : label.span.Within source.toList) (small : source.utf8ByteSize ≤ counterMax)
    (outgrows : Text.Outgrows source.toList label.span.start) :
    renderSegments useColors (label.segments (some (.ofText path source))) =
      if '\n' ∈ source.toList then label.picture useColors path ⟨counterMax, 2⟩ [] 1 1
      else label.picture useColors path ⟨1, counterMax⟩ (source.toList.rdropWhile (· == '\r'))
        (counterMax - 1) 1 := by
  obtain ⟨front, inside, before, line, lies⟩ := exists_lies within
  have empty : inside = [] := by
    obtain ⟨rest, split⟩ := lies.range
    have sizes := congrArg Text.byteLength split
    rw [← List.append_assoc, Text.byteLength_append, Text.byteLength_append, lies.start,
      outgrows.1, Text.byteLength_toList] at sizes
    exact Text.eq_nil_of_byteLength (by omega)
  subst empty
  rw [renderSegments_eq_picture label useColors path source rfl
      (lineText?_of_outgrows small outgrows), lies.markerWidth_of_empty,
    LineTable.position_of_outgrows small outgrows]
  split <;> rfl

/-- The marker of a label: whatever the range of a label in a source is, the label is shown with
the line that its range begins on, without carriage returns at its end, and under that line with
as many blanks as there are characters before the range, and a marker as wide as the part of the
range that is shown, but at least one character. Only at the end of a text that outgrows its
numbers one blank is missing, or the line before is shown. -/
theorem underlines (label : Label) (useColors : Bool) (path source : String)
    (within : label.span.Within source.toList)
    (small : source.utf8ByteSize ≤ Span.offsetLimit) :
    (∃ front inside before line, label.Lies source.toList front inside before line) ∧
      (¬ Text.Outgrows source.toList label.span.start →
        ∀ front inside before line, label.Lies source.toList front inside before line →
          label.Underlines useColors path source front inside before line) ∧
      (Text.Outgrows source.toList label.span.start →
        renderSegments useColors (label.segments (some (.ofText path source))) =
          if '\n' ∈ source.toList then label.picture useColors path ⟨counterMax, 2⟩ [] 1 1
          else label.picture useColors path ⟨1, counterMax⟩
            (source.toList.rdropWhile (· == '\r')) (counterMax - 1) 1) := by
  refine ⟨exists_lies within, ?_, shown_of_outgrows label useColors path source within small⟩
  intro located front inside before line lies
  exact lies.underlined useColors path small located

/-- A range that begins after a first character and runs into the next line: the two characters
before the carriage return are marked. -/
theorem underlines_across_lines :
    let label : Label := ⟨⟨1, 7⟩, "here", true⟩
    let source := "xé(\r\ny\n"
    label.span.Within source.toList ∧ source.utf8ByteSize ≤ Span.offsetLimit ∧
      ¬ Text.Outgrows source.toList label.span.start ∧
      label.Lies source.toList ['x'] "é(\r\ny".toList [] "xé(\r".toList ∧
      label.Underlines false "m.py" source ['x'] "é(\r\ny".toList [] "xé(\r".toList ∧
      renderSegments false (label.segments (some (.ofText "m.py" source))) =
        " --> m.py:1:2\n  |\n1 | xé(\n  |  ^^ here\n" := by
  intro label source
  have within : label.span.Within source.toList :=
    ⟨⟨['x'], "é(\r\ny\n".toList, by decide, by decide⟩,
      ⟨"xé(\r\ny".toList, ['\n'], by decide, by decide⟩, by decide⟩
  have small : source.utf8ByteSize ≤ Span.offsetLimit := by decide
  have lies : label.Lies source.toList ['x'] "é(\r\ny".toList [] "xé(\r".toList :=
    ⟨⟨['\n'], by decide⟩, by decide, by decide,
      ⟨"\ny\n".toList, by decide, by decide, .inl rfl, .inr ⟨"y\n".toList, by decide⟩⟩, by decide⟩
  have located : ¬ Text.Outgrows source.toList label.span.start := fun outgrows =>
    absurd outgrows.1 (by decide)
  have shown := (underlines label false "m.py" source within small).2.1 located _ _ _ _ lies
  refine ⟨within, small, located, lies, shown, ?_⟩
  rw [shown.shows]
  decide +kernel

private theorem blanks_of_picture_eq {useColors : Bool} {path : String} {position : Position}
    {shown : List Char} {blanks others width : Nat}
    (same : label.picture useColors path position shown blanks width =
      label.picture useColors path position shown others width) : blanks = others := by
  have lengths := congrArg String.length same
  simp only [picture, String.length_append, repeated, String.length_ofList,
    List.length_replicate] at lengths
  omega

/-- In a line of as many letters as offsets go, all of them stand before the end, but its marker
follows one blank less. -/
theorem shown_before_end :
    let label : Label := ⟨⟨counterMax, counterMax⟩, "", true⟩
    let letters := List.replicate counterMax 'a'
    let source := String.ofList letters
    let shown := renderSegments false (label.segments (some (.ofText "m.py" source)))
    source.utf8ByteSize = Span.offsetLimit ∧ label.span.Within source.toList ∧
      label.Lies source.toList letters [] [] letters ∧
      shown = label.picture false "m.py" ⟨1, counterMax⟩ letters (counterMax - 1) 1 ∧
      shown ≠ label.picture false "m.py" ⟨1, counterMax⟩ letters letters.length 1 := by
  intro label letters source shown
  have bytes : Text.byteLength letters = counterMax := Text.byteLength_replicate rfl counterMax
  have size : source.utf8ByteSize = counterMax := by rw [Text.utf8ByteSize_ofList, bytes]
  have text : source.toList = letters := String.toList_ofList
  have oneLine : '\n' ∉ letters := fun member =>
    absurd (List.eq_of_mem_replicate member) (by decide)
  have noReturn : letters.rdropWhile (· == '\r') = letters := by
    obtain ⟨count, isCount⟩ : ∃ count, counterMax = count + 1 := ⟨counterMax - 1, rfl⟩
    rw [show letters = List.replicate count 'a' ++ ['a'] by
      rw [← List.replicate_succ', ← isCount], List.rdropWhile_concat_neg _ _ _ (by decide)]
  have lies : label.Lies source.toList letters [] [] letters := by
    rw [text]
    refine ⟨⟨[], by simp⟩, bytes, by rw [List.append_nil]; exact bytes,
      ⟨[], by simp, oneLine, .inl rfl, .inl rfl⟩, by simp⟩
  have within : label.span.Within source.toList := by
    rw [text]
    exact ⟨⟨letters, [], by simp, bytes⟩, ⟨letters, [], by simp, bytes⟩, le_refl _⟩
  have outgrows : Text.Outgrows source.toList label.span.start := by
    rw [text]
    exact ⟨rfl, .inr ⟨List.length_replicate, oneLine⟩⟩
  have isShown : shown = label.picture false "m.py" ⟨1, counterMax⟩ letters (counterMax - 1) 1 := by
    rw [← noReturn, ← text]
    exact (shown_of_outgrows label false "m.py" source within size.le outgrows).trans
      (if_neg (text ▸ oneLine))
  refine ⟨size, within, lies, isShown, fun same => ?_⟩
  have blanks := blanks_of_picture_eq (isShown.symm.trans same)
  rw [List.length_replicate] at blanks
  exact absurd blanks (by decide)

end Label
end Transpiler
