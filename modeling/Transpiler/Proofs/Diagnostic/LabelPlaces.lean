import Mathlib.Data.List.DropRight
import Transpiler.Proofs.Command.ErrorPlaces
import Transpiler.Proofs.Source.Positions

/-!
Contract: every label can be shown.

Owns: the lines of a text (`Text.IsLine`) and that the line table has them, the diagnostics that
a source can give rise to (`Diagnostic.Arises`), and that the range of each of their labels lies
in the source, begins and ends between characters and is shown with a line of the source and a
column on it. Their lines fit, because a text of line feeds only is in order.
-/

namespace Transpiler

/-! ### Lines -/

/-- A line of a text and its number, counted from one. The line feed that ends a line is not part
of it, but carriage returns are. -/
def Text.IsLine (text : List Char) (number : Nat) (line : List Char) : Prop :=
  ∃ before after, text = before ++ (line ++ after) ∧ '\n' ∉ line ∧
    (before = [] ∨ ∃ lines, before = lines ++ ['\n']) ∧
    (after = [] ∨ ∃ more, after = '\n' :: more) ∧ number = before.count '\n' + 1

/-- Every place of a text is on a line, at most one column after its last character. -/
theorem Text.exists_isLine (front rest : List Char) :
    ∃ line, IsLine (front ++ rest) (positionAfter front).line line ∧
      (positionAfter front).column - 1 ≤ line.length := by
  obtain ⟨before, shape, ending⟩ := Layout.exists_before_lastLine front
  obtain ⟨tail, inTail, restShape⟩ := exists_line rest
  have inLine := Layout.lineFeed_not_mem_lastLine front
  have number : (positionAfter front).line = before.count '\n' + 1 := by
    rw [positionAfter, Layout.count_before_lastLine shape]
  refine ⟨Layout.lastLine front ++ tail, ?_, by simp [positionAfter]⟩
  have oneLine : '\n' ∉ Layout.lastLine front ++ tail := by simp [inLine, inTail]
  rcases restShape with rfl | ⟨more, rfl⟩
  · refine ⟨before, [], ?_, oneLine, ending, .inl rfl, number⟩
    rw [List.append_nil, ← List.append_assoc, ← shape]
  · refine ⟨before, '\n' :: more, ?_, oneLine, ending, .inr ⟨more, rfl⟩, number⟩
    rw [List.append_assoc (Layout.lastLine front), ← List.append_assoc before, ← shape]

namespace LineTable

theorem lineCount_ofText (text : String) :
    (ofText text).lineCount = text.toList.count '\n' + 1 := by
  rw [lineCount, ofText, List.length_cons, List.length_map, length_startsAfter]

private theorem startsAfter_of_oneLine {line : List Char} (oneLine : '\n' ∉ line) (offset : Nat) :
    startsAfter offset line = [] := by
  apply List.eq_nil_of_length_eq_zero
  rw [length_startsAfter, List.count_eq_zero.mpr oneLine]

/-- The next line starts after the line feed, and there is none after the last line. -/
private theorem getD_starts_of_line {text : String} {before line after : List Char} {size : Nat}
    (small : text.utf8ByteSize ≤ counterMax)
    (split : text.toList = before ++ (line ++ after)) (oneLine : '\n' ∉ line) :
    (ofText text).starts.getD (before.count '\n' + 1) size =
      (startsAfter (Text.byteLength before + Text.byteLength line) after).getD 0 size := by
  rw [starts_ofText small split, List.getD_append_right _ _ _ _ (by simp [length_startsAfter]),
    startsAfter_append, startsAfter_of_oneLine oneLine, List.nil_append, List.length_cons,
    length_startsAfter, Nat.sub_self]

/-- Without line feeds, only carriage returns are cut off at the end of a line. -/
private theorem rdropWhile_isTerminator {line : List Char} (oneLine : '\n' ∉ line) :
    line.rdropWhile isTerminator = line.rdropWhile (· == '\r') := by
  induction line using List.reverseRecOn with
  | nil => rfl
  | append_singleton front last inductionHypothesis =>
      simp only [List.mem_append, List.mem_singleton, not_or] at oneLine
      by_cases isReturn : last = '\r'
      · subst isReturn
        rw [List.rdropWhile_concat_pos _ _ _ rfl, List.rdropWhile_concat_pos _ _ _ rfl,
          inductionHypothesis oneLine.1]
      · have stays : ¬ isTerminator last = true := by
          simp [isTerminator, isReturn, Ne.symm oneLine.2]
        rw [List.rdropWhile_concat_neg _ _ _ stays, List.rdropWhile_concat_neg _ _ _ (by simpa)]

/-- The line that is shown is the line of the text, without carriage returns at its end. -/
theorem lineText?_of_isLine {text : String} {number : Nat} {line : List Char}
    (small : text.utf8ByteSize ≤ counterMax) (isLine : Text.IsLine text.toList number line) :
    (ofText text).lineText? number = some (line.rdropWhile (· == '\r')) := by
  obtain ⟨before, after, split, oneLine, ending, next, rfl⟩ := isLine
  have start := getElem?_starts_of_append small split ending
  -- the slice runs up to the next line, so it has the line feed, if there is one
  obtain ⟨feed, cut, shown⟩ : ∃ feed, Text.slice? text.toList (Text.byteLength before)
      ((ofText text).starts.getD (before.count '\n' + 1) (Text.byteLength text.toList)) =
        some (line ++ feed) ∧
      (line ++ feed).rdropWhile isTerminator = line.rdropWhile isTerminator := by
    rw [getD_starts_of_line small split oneLine, split]
    rcases next with rfl | ⟨more, rfl⟩
    · refine ⟨[], ?_, by rw [List.append_nil]⟩
      have cut := Text.slice?_append before line []
      rwa [List.append_nil] at cut ⊢
    · refine ⟨['\n'], ?_, List.rdropWhile_concat_pos _ _ _ rfl⟩
      have cut := Text.slice?_append before (line ++ ['\n']) more
      rw [List.append_assoc] at cut
      simpa [startsAfter, Nat.add_assoc] using cut
  unfold lineText?
  rw [if_neg (Nat.succ_ne_zero _), Nat.add_sub_cancel, start]
  simp only [Option.bind_eq_bind, Option.bind_some]
  rw [show (ofText text).text = text.toList from rfl, cut, Option.bind_some]
  exact congrArg some (shown.trans (rdropWhile_isTerminator oneLine))

end LineTable

/-! ### Labels -/

/-- A cut between characters is a valid position. -/
theorem Text.IsBoundary.isValid {source : String} {offset : Nat}
    (boundary : Text.IsBoundary source.toList offset) :
    String.Pos.Raw.IsValid source ⟨offset⟩ ∧ offset ≤ source.utf8ByteSize := by
  obtain ⟨front, rest, split, rfl⟩ := boundary
  constructor
  · rw [String.Pos.Raw.isValid_iff_exists_append]
    refine ⟨String.ofList front, String.ofList rest, ?_, ?_⟩
    · rw [← String.ofList_append, ← split, String.ofList_toList]
    · rw [String.rawEndPos, Text.utf8ByteSize_ofList]
  · rw [← Text.byteLength_toList, split, Text.byteLength_append]
    exact Nat.le_add_right _ _

/-- A label that can be shown in a source. The line and the column are those of the start of its
range, and the line has its text in the table of a source that is not too large. -/
structure Label.FitsIn (label : Label) (source : String) : Prop where
  forward : label.span.start ≤ label.span.stop
  inside : label.span.stop ≤ source.utf8ByteSize
  start : String.Pos.Raw.IsValid source ⟨label.span.start⟩
  stop : String.Pos.Raw.IsValid source ⟨label.span.stop⟩
  line : let position := (LineTable.ofText source).position label.span.start
    1 ≤ position.line ∧ position.line ≤ (LineTable.ofText source).lineCount
  column : let position := (LineTable.ofText source).position label.span.start
    ∃ line, Text.IsLine source.toList position.line line ∧
      1 ≤ position.column ∧ position.column - 1 ≤ line.length ∧
      (source.utf8ByteSize ≤ Span.offsetLimit →
        (LineTable.ofText source).lineText? position.line = some (line.rdropWhile (· == '\r')))

/-- The place of a label is that of its start, with a column that may be too small. -/
def Label.Placed (label : Label) (source : String) : Prop :=
  ∀ front rest, source.toList = front ++ rest → Text.byteLength front = label.span.start →
    ∃ column, 1 ≤ column ∧ column ≤ (positionAfter front).column ∧
      (LineTable.ofText source).position label.span.start = ⟨(positionAfter front).line, column⟩

theorem Label.Placed.fitsIn {label : Label} {source : String} (placed : label.Placed source)
    (within : label.span.Within source.toList) : label.FitsIn source := by
  obtain ⟨front, rest, split, start⟩ := within.start
  obtain ⟨shown, positive, notBeyond, position⟩ := placed front rest split start
  obtain ⟨line, isLine, column⟩ := Text.exists_isLine front rest
  rw [← split] at isLine
  obtain ⟨startValid, _⟩ := within.start.isValid
  obtain ⟨stopValid, inside⟩ := within.stop.isValid
  refine ⟨within.forward, inside, startValid, stopValid, ?_, ?_⟩
  · rw [position, LineTable.lineCount_ofText, split, List.count_append]
    exact ⟨Nat.le_add_left _ _, by simp [positionAfter]⟩
  · rw [position]
    exact ⟨line, isLine, positive, Nat.le_trans (Nat.sub_le_sub_right notBeyond 1) column,
      fun small => LineTable.lineText?_of_isLine small isLine⟩

theorem Label.placed_of_start {label : Label} {source : String} (isFirst : label.span.start = 0) :
    label.Placed source := by
  intro front rest split start
  obtain rfl := Text.eq_nil_of_byteLength (start.trans isFirst)
  refine ⟨1, Nat.le_refl 1, Nat.le_refl 1, ?_⟩
  rw [isFirst]
  exact LineTable.position_zero source

theorem Label.placed_of_other {label : Label} {source : String}
    (small : source.utf8ByteSize ≤ counterMax)
    (other : ∃ character ∈ source.toList, character ≠ '\n') : label.Placed source := by
  intro front rest split start
  have fits := Text.count_lineFeed_lt (by rwa [Text.byteLength_toList]) split other
  refine ⟨_, ?_, Nat.min_le_left _ _, start ▸ LineTable.position_of_append small split fits⟩
  exact Nat.le_min.mpr ⟨Nat.le_add_left 1 _, by decide⟩

/-! ### Sources without text -/

theorem Layout.arrange_lineFeeds {text : List Char} (all : ∀ character ∈ text, character = '\n')
    (margin : Margin) (offset : Nat) :
    arrange ⟨0, some margin, []⟩ offset (Lexeme.split text) =
      .ok [⟨.endOfFile, .point (offset + Text.byteLength text)⟩] := by
  induction text generalizing margin offset with
  | nil => rfl
  | cons first rest inductionHypothesis =>
      obtain rfl := all first List.mem_cons_self
      have others := inductionHypothesis (fun _ member => all _ (List.mem_cons_of_mem _ member))
        (.empty (offset + 1)) (offset + 1)
      have steps := @Steps.blankLine ⟨0, some margin, []⟩ offset ⟨.lineBreak, ['\n']⟩ rfl rfl rfl
      have size : offset + Text.byteLength ('\n' :: rest) = offset + 1 + Text.byteLength rest :=
        (Nat.add_assoc offset 1 _).symm
      rw [Lexeme.split_cons_lineBreak, ← List.singleton_append,
        arrange_append (.more (step_of_steps steps) .none), size]
      exact congrArg (Except.map _) others

/-- A source of line feeds only is a module without statements. -/
theorem Module.ofSource_lineFeeds {source : String} (small : source.utf8ByteSize ≤ counterMax)
    (all : ∀ character ∈ source.toList, character = '\n') : ofSource source = .ok ⟨[]⟩ := by
  refine ofSource_eq_ok_iff.mpr
    ⟨[⟨.endOfFile, .point (0 + Text.byteLength source.toList)⟩], ?_, rfl⟩
  rw [tokenize_of_small small]
  exact Layout.arrange_lineFeeds all _ 0

/-! ### Diagnostics -/

/-- The diagnostics that a source gives rise to: its characters form no tokens, its tokens form
no module, or its module has statements that cannot be generated. -/
inductive Diagnostic.Arises (source : String) : Diagnostic → Prop where
  | lexing {error : LexError} (failed : tokenize source = .error (.fault error)) :
      Arises source error.diagnostic
  | parsing {error : ParseError} (failed : Module.ofSource source = .error (.fault error)) :
      Arises source error.diagnostic
  | generating {generator : Generator} {tree : Module} {error : GenerationError}
      (parsed : Module.ofSource source = .ok tree)
      (member : error ∈ (generator.generate tree).errors) : Arises source error.diagnostic

/-- A source of line feeds only gives rise to no diagnostic. -/
theorem Diagnostic.Arises.exists_other {source : String} {diagnostic : Diagnostic}
    (arises : diagnostic.Arises source) (small : source.utf8ByteSize ≤ counterMax) :
    ∃ character ∈ source.toList, character ≠ '\n' := by
  by_contra none
  have all : ∀ character ∈ source.toList, character = '\n' := by simpa using none
  have read := Module.ofSource_lineFeeds small all
  cases arises with
  | lexing failed =>
      have stopped := Module.ofSource_eq_fault_iff.mpr (.inl ⟨_, failed, rfl⟩)
      cases stopped.symm.trans read
  | parsing failed => cases failed.symm.trans read
  | generating parsed isFailure =>
      obtain rfl := Except.ok.inj (parsed.symm.trans read)
      obtain ⟨stmt, isStmt, _⟩ := Generator.statement_of_mem_errors isFailure
      exact List.not_mem_nil isStmt

/-- A source that is too large is said to be so at its start. -/
theorem Diagnostic.Arises.start_of_large {source : String} {diagnostic : Diagnostic}
    (arises : diagnostic.Arises source) (large : Span.offsetLimit < source.utf8ByteSize)
    {label : Label} (member : label ∈ diagnostic.labels) : label.span.start = 0 := by
  have tooLarge := tokenize_of_large large
  have stopped := Module.ofSource_eq_fault_iff.mpr (.inl ⟨_, tooLarge, rfl⟩)
  cases arises with
  | lexing failed =>
      obtain rfl := Halt.fault.inj (Except.error.inj (tooLarge.symm.trans failed))
      obtain rfl := List.mem_singleton.mp member
      rfl
  | parsing failed =>
      obtain rfl := Halt.fault.inj (Except.error.inj (stopped.symm.trans failed))
      obtain rfl := List.mem_singleton.mp member
      rfl
  | generating parsed => cases stopped.symm.trans parsed

theorem Diagnostic.Arises.pointsInto {source : String} {diagnostic : Diagnostic}
    (arises : diagnostic.Arises source) : diagnostic.PointsInto source.toList := by
  intro label member
  cases arises with
  | lexing failed =>
      obtain rfl := List.mem_singleton.mp member
      exact LexError.within_of_tokenize failed
  | parsing failed => exact ParseError.diagnostic_pointsInto failed label member
  | generating parsed isFailure =>
      exact Generator.diagnostic_pointsInto parsed isFailure label member

/-- Every label of every diagnostic can be shown in the source, secondary labels too: whichever
step failed, under either policy. -/
theorem Diagnostic.labels_fitIn (source : String) (diagnostic : Diagnostic)
    (arises : diagnostic.Arises source) : ∀ label ∈ diagnostic.labels, label.FitsIn source := by
  intro label member
  have placed : label.Placed source := by
    by_cases large : Span.offsetLimit < source.utf8ByteSize
    · exact Label.placed_of_start (arises.start_of_large large member)
    · have small := Nat.not_lt.mp large
      exact Label.placed_of_other small (arises.exists_other small)
  exact placed.fitsIn (arises.pointsInto label member)

/-- A bracket that is not closed, with a label at the end and one where it was opened. -/
theorem Diagnostic.labels_fitIn_unclosed :
    let source := "é = (1,\n  [2\r\n"
    let error : ParseError := ⟨.unclosedDelimiter "[" ⟨11, 12⟩, ⟨15, 15⟩⟩
    Module.ofSource source = .error (.fault error) ∧ error.diagnostic.Arises source ∧
      error.diagnostic.labels =
        [⟨⟨15, 15⟩, "expected a closing delimiter", true⟩, ⟨⟨11, 12⟩, "`[` opened here", false⟩] ∧
      error.diagnostic.labels.map ((LineTable.ofText source).position ·.span.start) =
        [⟨3, 1⟩, ⟨2, 3⟩] ∧
      ∀ label ∈ error.diagnostic.labels, label.FitsIn source := by
  intro source error
  have stopped : (Module.ofSource source).map (fun _ => ()) = .error (.fault error) := by
    decide +kernel
  have failed : Module.ofSource source = .error (.fault error) := by
    cases outcome : Module.ofSource source with
    | ok tree =>
        rw [outcome] at stopped
        contradiction
    | error cause =>
        rw [outcome] at stopped
        rw [Except.error.inj stopped]
  have arises : error.diagnostic.Arises source := .parsing failed
  exact ⟨failed, arises, by decide +kernel, by decide +kernel,
    labels_fitIn source error.diagnostic arises⟩

end Transpiler
