import Transpiler.Proofs.Command.ErrorPlaces
import Transpiler.Proofs.Source.Positions

/-!
Contract: the lines and columns that a failed run prints.

Owns: what the queue shows, the line of a report that tells a place, and how the places that a
run prints stand to its input. They are counted in the text without the blanks before it, so
they are places of the input itself where no blanks are in front. A column that does not fit is
printed as the greatest that does.
-/

namespace Transpiler

/-! ### What the queue shows -/

namespace DiagnosticQueue

variable {queue : DiagnosticQueue} {diagnostic other : Diagnostic} {diagnostics : List Diagnostic}

private theorem mem_of_mem_add (member : diagnostic ∈ (queue.add other).2.kept) :
    diagnostic ∈ queue.kept ∨ diagnostic = other := by
  unfold add at member
  grind

/-- What is kept was kept before or was added. -/
private theorem mem_of_mem_addAll (member : diagnostic ∈ (queue.addAll diagnostics).kept) :
    diagnostic ∈ queue.kept ∨ diagnostic ∈ diagnostics := by
  induction diagnostics generalizing queue with
  | nil => exact .inl member
  | cons first rest inductionHypothesis =>
      rcases inductionHypothesis member with isKept | isLater
      · rcases mem_of_mem_add isKept with wasKept | rfl
        · exact .inl wasKept
        · exact .inr List.mem_cons_self
      · exact .inr (List.mem_cons_of_mem first isLater)

/-- What is shown was kept, or has no label. -/
private theorem mem_of_mem_flush (member : diagnostic ∈ queue.flush.1) :
    diagnostic ∈ queue.kept ∨ diagnostic.labels = [] := by
  rcases List.mem_append.mp member with isKept | isExtra
  · exact .inl (List.mem_mergeSort.mp isKept)
  · right
    split at isExtra
    · rw [List.mem_singleton.mp isExtra]
      rfl
    · exact absurd isExtra List.not_mem_nil

/-- A new queue shows labels of what is added to it and no others. -/
theorem mem_of_shown {config : QueueConfig} {label : Label}
    (shown : diagnostic ∈ ((new config).addAll diagnostics).flush.1)
    (member : label ∈ diagnostic.labels) : diagnostic ∈ diagnostics := by
  rcases mem_of_mem_flush shown with isKept | noLabels
  · rcases mem_of_mem_addAll isKept with wasKept | isAdded
    · exact absurd wasKept List.not_mem_nil
    · exact isAdded
  · rw [noLabels] at member
    exact absurd member List.not_mem_nil

end DiagnosticQueue

/-! ### The line that tells a place -/

/-- The line of a report that tells the place of a label. -/
def Label.placeLine (label : Label) (path : String) (position : Position) : String :=
  let lineNumber := toString position.line
  repeated lineNumber.length ' ' ++ (if label.isPrimary then "-->" else ":::") ++ " " ++ path
    ++ ":" ++ lineNumber ++ ":" ++ toString position.column ++ "\n"

/-- What is printed for a label begins with the line that tells a position. -/
def Label.ShownAt (label : Label) (useColors : Bool) (file : SourceFile) (position : Position) :
    Prop :=
  ∃ more, renderSegments useColors (label.segments (some file)) =
    label.placeLine file.path position ++ more

/-- A label is shown at the place that its location begins at. -/
theorem Label.shownAt (label : Label) (useColors : Bool) (path : String) {text : String}
    {position : Position} (place : (LineTable.ofText text).position label.span.start = position) :
    label.ShownAt useColors (.ofText path text) position := by
  let shown := label.segments (some (.ofText path text))
  have first : shown = .plain (label.placeLine path position) :: shown.tail := by
    rw [← place]
    rfl
  refine ⟨renderSegments useColors shown.tail, ?_⟩
  calc
    renderSegments useColors shown =
        renderSegments useColors (.plain (label.placeLine path position) :: shown.tail) :=
      congrArg _ first
    _ = label.placeLine path position ++ renderSegments useColors shown.tail := String.join_cons

/-! ### Blanks in front -/

/-- A text is the blanks before it, the text without blanks around it, and the blanks after. -/
private theorem toList_eq_trimmed (text : String) :
    ∃ trail, text.toList =
      text.toList.takeWhile Text.isBlank ++ ((trimmed text).toList ++ trail) := by
  let inner := text.toList.dropWhile Text.isBlank
  have ending :
      inner = (trimmed text).toList ++ (inner.reverse.takeWhile Text.isBlank).reverse := by
    rw [trimmed, String.toList_ofList, Text.trimBlank, Text.trimBlankEnd, ← List.reverse_append,
      List.takeWhile_append_dropWhile, List.reverse_reverse]
  refine ⟨(inner.reverse.takeWhile Text.isBlank).reverse, ?_⟩
  rw [← ending, List.takeWhile_append_dropWhile]

/-- A text without blanks around it does not begin with one. -/
private theorem isBlank_head_trimmed {text : String} {first : Char} {rest : List Char}
    (shape : (trimmed text).toList = first :: rest) : Text.isBlank first = false := by
  obtain ⟨trail, whole⟩ := toList_eq_trimmed text
  have left : text.toList.dropWhile Text.isBlank = (trimmed text).toList ++ trail := by
    nth_rewrite 1 [← List.takeWhile_append_dropWhile (p := Text.isBlank) (l := text.toList)]
      at whole
    exact List.append_cancel_left whole
  have begins := List.head?_dropWhile_not Text.isBlank text.toList
  rw [left, shape] at begins
  simpa using begins

/-- The line of a place fits in a text that does not begin with a blank. -/
private theorem count_lineFeed_trimmed {text : String} {front rest : List Char}
    (small : (trimmed text).utf8ByteSize ≤ counterMax)
    (split : (trimmed text).toList = front ++ rest) : front.count '\n' < counterMax := by
  cases front with
  | nil => decide
  | cons first more =>
      rw [← Text.byteLength_toList] at small
      refine Text.count_lineFeed_lt small split ⟨first, by simp [split], ?_⟩
      rintro rfl
      have blank : Text.isBlank '\n' = true := by decide
      cases (isBlank_head_trimmed split).symm.trans blank

/-! ### Failed runs -/

variable {σ κ : Type} [DecidableEq κ]

/-- What a run on one input prints if its source fails. -/
theorem FileSystem.run_of_source_failure (system : FileSystem σ κ) {files : σ} (useColors : Bool)
    {arguments : List String} {options : Options} {path text : String} {error : RunError}
    (asked : Command.ofArguments arguments = .ok (.transpile options))
    (single : options.inputs = [path]) (reads : system.Reads files path text)
    (failed : options.produce (trimmed text) = .error (.fault error)) :
    ((runProcess system.storage useColors arguments).run files).1 =
      error.processResult ⟨useColors, some (.ofText path (trimmed text))⟩ := by
  have loads : system.Loads files options.inputs (trimmed text) := by
    rw [single]
    exact ⟨[text], .cons reads .nil, rfl⟩
  have ran := run_session_of_loads asked loads (run_transpile_of_error failed)
  rw [run_process ran, Session.processResult, Options.terminal, Options.sourceName, single]

/-- A run on a text prints its failure, and each label with the place that it begins at, counted
from the first character that is not blank: the line misses the line feeds in front of that
character, and a column on its line misses the blanks there. The column is printed as far as it
fits. -/
structure ProcessResult.ReportsPlaces (result : ProcessResult) (useColors : Bool)
    (path text : String) (error : RunError) : Prop where
  prints :
    let queue := (DiagnosticQueue.new .standard).addAll error.diagnostics
    let terminal : Terminal := ⟨useColors, some (.ofText path (trimmed text))⟩
    result.standardError = terminal.renderAll queue.flush.1 ++
      if 1 < queue.errorCount then terminal.summary queue.errorCount queue.warningCount else ""
  places :
    let blanks := text.toList.takeWhile Text.isBlank
    ∀ diagnostic ∈ ((DiagnosticQueue.new .standard).addAll error.diagnostics).flush.1,
      ∀ label ∈ diagnostic.labels, ∃ front rest,
        text.toList = blanks ++ (front ++ rest) ∧ Text.byteLength front = label.span.start ∧
        label.ShownAt useColors (.ofText path (trimmed text))
          ⟨(positionAfter front).line, min (positionAfter front).column counterMax⟩ ∧
        positionAfter (blanks ++ front) =
          ⟨(positionAfter front).line + blanks.count '\n',
            (positionAfter front).column +
              if '\n' ∈ front then 0 else (Layout.lastLine blanks).length⟩

/-- Reported places: whatever is wrong with the only input of a run, every label that the run
prints tells the line and the column at which the labelled text begins. Both are counted after
the blanks that the input begins with, so they are the line and the column in the input if it
begins with none and the column fits. -/
theorem runProcess_reports_places (system : FileSystem σ κ) (files : σ) (useColors : Bool)
    (arguments : List String) (options : Options) (path text : String) (error : RunError)
    (asked : Command.ofArguments arguments = .ok (.transpile options))
    (single : options.inputs = [path]) (reads : system.Reads files path text)
    (failed : options.produce (trimmed text) = .error (.fault error)) :
    ((runProcess system.storage useColors arguments).run files).1.ReportsPlaces useColors path text
      error where
  prints := by
    rw [FileSystem.run_of_source_failure system useColors asked single reads failed]
    rfl
  places := by
    intro blanks diagnostic shown label member
    have isError := DiagnosticQueue.mem_of_shown shown member
    have within := RunError.diagnostics_pointInto failed diagnostic isError label member
    obtain ⟨front, rest, split, start⟩ := within.start
    obtain ⟨trail, whole⟩ := toList_eq_trimmed text
    refine ⟨front, rest ++ trail, ?_, start, label.shownAt useColors path ?_,
      positionAfter_append blanks front⟩
    · rw [whole, split, List.append_assoc]
    · by_cases large : Span.offsetLimit < (trimmed text).utf8ByteSize
      · have isFirst := RunError.start_of_large large failed diagnostic isError label member
        rw [isFirst] at start ⊢
        obtain rfl := Text.eq_nil_of_byteLength start
        exact LineTable.position_zero _
      · have small := Nat.not_lt.mp large
        rw [← start]
        exact LineTable.position_of_append small split (count_lineFeed_trimmed small split)

/-- An error on the second line of what is left after two line feeds and two blanks. -/
theorem runProcess_reports_places_second :
    let text := "\n\n  x: int = 1\ny = 2\n"
    let files := FileTree.empty.addFile ["tmp", "work", "a.py"] text.toUTF8
    let error := RunError.generation
      [.unsupported ⟨"generator/cpp", "statement", "Assign", ⟨11, 16⟩⟩ none]
    ((runProcess FileTree.storage false ["a.py"]).run files).1.ReportsPlaces false "a.py" text
      error := by
  intro text files error
  let options : Options := { inputs := ["a.py"] }
  have asked : Command.ofArguments ["a.py"] = .ok (.transpile options) := by decide +kernel
  have reads : FileTree.fileSystem.Reads files "a.py" text :=
    ⟨text.toUTF8, rfl, fromUTF8?_toUTF8 text⟩
  have failed : options.produce (trimmed text) = .error (.fault error) := by decide +kernel
  exact runProcess_reports_places FileTree.fileSystem files false ["a.py"] options "a.py" text error
    asked rfl reads failed

/-- Two line feeds before the first line move it down, but not the place that is printed. -/
theorem runProcess_skips_blanks :
    let text := "\n\nx = 1\n"
    let files := FileTree.empty.addFile ["tmp", "work", "a.py"] text.toUTF8
    let result := ((runProcess FileTree.storage false ["a.py"]).run files).1
    result.standardError =
        "error[E5001]: Feature not yet supported: generator/cpp/statement/Assign\n" ++
          " --> a.py:1:1\n  |\n1 | x = 1\n  | ^^^^^ `Assign` cannot be generated here\n" ++
          "  = note: the `statement` rule has no case for `Assign`\n\n" ∧
      text.toList = ['\n', '\n'] ++ "x = 1\n".toList ∧ positionAfter ['\n', '\n'] = ⟨3, 1⟩ := by
  intro text files result
  let options : Options := { inputs := ["a.py"] }
  let error := RunError.generation
    [.unsupported ⟨"generator/cpp", "statement", "Assign", ⟨0, 5⟩⟩ none]
  have asked : Command.ofArguments ["a.py"] = .ok (.transpile options) := by decide +kernel
  have reads : FileTree.fileSystem.Reads files "a.py" text :=
    ⟨text.toUTF8, rfl, fromUTF8?_toUTF8 text⟩
  have failed : options.produce (trimmed text) = .error (.fault error) := by decide +kernel
  have printed : result = error.processResult ⟨false, some (.ofText "a.py" (trimmed text))⟩ :=
    FileTree.fileSystem.run_of_source_failure false asked rfl reads failed
  rw [printed]
  exact ⟨by decide +kernel, by decide +kernel, by decide +kernel⟩

end Transpiler
