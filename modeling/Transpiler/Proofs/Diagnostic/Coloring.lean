import Transpiler.Diagnostic.Render

/-!
Contract: colours are only decoration.

Owns: deleting the control sequences of a text (`Text.withoutSequences`), the texts that hold no
escape sign, and that diagnostics and summaries rendered with colours are the same text as without
them once the control sequences are deleted (`Terminal.output_withoutSequences`).

Both renderings are made from one list of segments. So it is enough that no segment holds an
escape sign of its own, which is shown for each part of a diagnostic.
-/

namespace Transpiler

/-! ### Control sequences -/

namespace Text

/-- What follows the first `m` of a text. -/
def afterMark? : List Char → Option (List Char)
  | [] => none
  | character :: rest => if character = 'm' then some rest else afterMark? rest

/-- What follows the control sequence that a text begins with: an escape sign, a bracket, and all
characters through the first `m`. -/
def afterSequence? : List Char → Option (List Char)
  | '\x1b' :: '[' :: rest => afterMark? rest
  | _ => none

private theorem length_of_afterMark? {text after : List Char}
    (found : afterMark? text = some after) :
    after.length < text.length := by
  induction text with
  | nil => cases found
  | cons character rest inductionHypothesis =>
      rw [afterMark?] at found
      split at found
      · obtain rfl := Option.some.inj found
        exact Nat.lt_succ_self _
      · exact Nat.lt_succ_of_lt (inductionHypothesis found)

theorem length_of_afterSequence? {text after : List Char}
    (found : afterSequence? text = some after) : after.length < text.length := by
  unfold afterSequence? at found
  split at found
  · have shorter := length_of_afterMark? found
    simp only [List.length_cons]
    omega
  · cases found

/-- A text with its control sequences deleted. -/
def withoutSequences (text : List Char) : List Char :=
  match found : afterSequence? text with
  | some after =>
      have := length_of_afterSequence? found
      withoutSequences after
  | none =>
      match text with
      | [] => []
      | character :: rest => character :: withoutSequences rest
termination_by text.length

@[simp] theorem withoutSequences_nil : withoutSequences [] = [] := by
  rw [withoutSequences]
  rfl

theorem withoutSequences_of_some {text after : List Char}
    (found : afterSequence? text = some after) :
    withoutSequences text = withoutSequences after := by
  rw [withoutSequences]
  split
  next other foundOther =>
    rw [found] at foundOther
    rw [Option.some.inj foundOther]
  next missing =>
    rw [found] at missing
    cases missing

/-- Without an escape sign no sequence begins. -/
private theorem afterSequence?_cons {character : Char} (plain : character ≠ '\x1b')
    (rest : List Char) :
    afterSequence? (character :: rest) = none := by
  unfold afterSequence?
  split
  next same => exact absurd (List.cons.inj same).1 plain
  next => rfl

private theorem withoutSequences_cons {character : Char} (plain : character ≠ '\x1b')
    (rest : List Char) :
    withoutSequences (character :: rest) = character :: withoutSequences rest := by
  have missing := afterSequence?_cons plain rest
  rw [withoutSequences]
  split
  next found =>
    rw [missing] at found
    cases found
  next => rfl

/-- Text without an escape sign stays. -/
theorem withoutSequences_append {text : List Char} (plain : '\x1b' ∉ text) (rest : List Char) :
    withoutSequences (text ++ rest) = text ++ withoutSequences rest := by
  induction text with
  | nil => rfl
  | cons character others inductionHypothesis =>
      obtain ⟨notHere, notLater⟩ := not_or.mp (mt List.mem_cons.mpr plain)
      rw [List.cons_append, withoutSequences_cons (Ne.symm notHere), inductionHypothesis notLater,
        List.cons_append]

end Text

/-! ### Segments -/

theorem Style.afterSequence?_start (style : Style) (rest : List Char) :
    Text.afterSequence? (style.start.toList ++ rest) = some rest := by
  cases style <;> rfl

theorem Style.afterSequence?_reset (rest : List Char) :
    Text.afterSequence? (Style.reset.toList ++ rest) = some rest := rfl

/-- A text without escape signs. -/
def Text.Plain (text : String) : Prop := '\x1b' ∉ text.toList

namespace Segment

/-- Of a segment that is rendered with its style, only the text stays. -/
theorem withoutSequences_render {segment : Segment} (plain : Text.Plain segment.text)
    (rest : List Char) :
    Text.withoutSequences ((segment.render true).toList ++ rest) =
      (segment.render false).toList ++ Text.withoutSequences rest := by
  unfold render
  cases segment.style with
  | none => exact Text.withoutSequences_append plain rest
  | some style =>
      simp only [if_true, Bool.false_eq_true, if_false, String.toList_append, List.append_assoc]
      rw [Text.withoutSequences_of_some (style.afterSequence?_start _),
        Text.withoutSequences_append plain,
        Text.withoutSequences_of_some (Style.afterSequence?_reset rest)]

end Segment

@[simp] theorem Segment.render_plain (useColors : Bool) (text : String) :
    (Segment.plain text).render useColors = text := rfl

theorem renderSegments_nil (useColors : Bool) : renderSegments useColors [] = "" := rfl

theorem renderSegments_cons (useColors : Bool) (segment : Segment) (segments : List Segment) :
    renderSegments useColors (segment :: segments) =
      segment.render useColors ++ renderSegments useColors segments := by
  rw [renderSegments, List.map_cons, String.join_cons, renderSegments]

theorem renderSegments_append (useColors : Bool) (first second : List Segment) :
    renderSegments useColors (first ++ second) =
      renderSegments useColors first ++ renderSegments useColors second := by
  rw [renderSegments, List.map_append, String.join_append, renderSegments, renderSegments]

private theorem withoutSequences_renderSegments {segments : List Segment}
    (plain : ∀ segment ∈ segments, Text.Plain segment.text) (rest : List Char) :
    Text.withoutSequences ((renderSegments true segments).toList ++ rest) =
      (renderSegments false segments).toList ++ Text.withoutSequences rest := by
  induction segments with
  | nil => rfl
  | cons segment others inductionHypothesis =>
      obtain ⟨here, later⟩ := List.forall_mem_cons.mp plain
      rw [renderSegments_cons, renderSegments_cons, String.toList_append, String.toList_append,
        List.append_assoc, Segment.withoutSequences_render here, inductionHypothesis later,
        List.append_assoc]

/-! ### Plain texts -/

namespace Text

instance (text : String) : Decidable (Plain text) :=
  inferInstanceAs (Decidable (¬ _))

@[simp] theorem plain_append {first second : String} :
    Plain (first ++ second) ↔ Plain first ∧ Plain second := by
  simp [Plain, not_or]

theorem plain_ofList {characters : List Char} (plain : '\x1b' ∉ characters) :
    Plain (String.ofList characters) := by
  rwa [Plain, String.toList_ofList]

/-- Numbers are written with digits. -/
@[simp] theorem plain_repr (number : Nat) : Plain number.repr := by
  intro member
  rw [Nat.toList_repr] at member
  have isDigit := Nat.isDigit_of_mem_toDigits (by decide) (by decide) member
  revert isDigit
  decide

private theorem suffix_of_dropBytes? {count : Nat} {text rest : List Char}
    (dropped : dropBytes? count text = some rest) : rest <:+ text := by
  fun_induction dropBytes? count text with
  | case1 text => exact Option.some.inj dropped ▸ List.suffix_refl _
  | case2 => cases dropped
  | case3 count _ character others fits inductionHypothesis =>
      exact (inductionHypothesis dropped).trans (List.suffix_cons character others)
  | case4 => cases dropped

private theorem prefix_of_takeBytes? {count : Nat} {text taken : List Char}
    (found : takeBytes? count text = some taken) : taken <+: text := by
  fun_induction takeBytes? count text generalizing taken with
  | case1 text => exact Option.some.inj found ▸ List.nil_prefix
  | case2 => cases found
  | case3 count _ character others fits inductionHypothesis =>
      obtain ⟨rest, isRest, rfl⟩ := Option.map_eq_some_iff.mp found
      exact (List.prefix_cons_inj character).mpr (inductionHypothesis isRest)
  | case4 => cases found

/-- What is cut out of a text has only characters of it. -/
private theorem subset_of_slice? {text inside : List Char} {start stop : Nat}
    (cut : slice? text start stop = some inside) : inside ⊆ text := by
  rw [slice?] at cut
  split at cut
  · obtain ⟨rest, dropped, taken⟩ := Option.bind_eq_some_iff.mp cut
    exact List.Subset.trans (prefix_of_takeBytes? taken).subset
      (suffix_of_dropBytes? dropped).subset
  · cases cut

end Text

theorem LineTable.subset_of_lineText? {table : LineTable} {line : Nat} {shown : List Char}
    (found : table.lineText? line = some shown) : shown ⊆ table.text := by
  rw [lineText?] at found
  split at found
  · cases found
  · obtain ⟨start, _, continued⟩ := Option.bind_eq_some_iff.mp found
    obtain ⟨whole, cut, isShown⟩ := Option.bind_eq_some_iff.mp continued
    obtain rfl := Option.some.inj isShown
    intro character member
    have kept := (List.dropWhile_suffix _).subset (List.mem_reverse.mp member)
    exact Text.subset_of_slice? cut (List.mem_reverse.mp kept)

/-! ### The parts of a report -/

/-- Segments without escape signs. -/
def AllPlain (segments : List Segment) : Prop :=
  ∀ segment ∈ segments, Text.Plain segment.text

@[simp] theorem allPlain_nil : AllPlain [] :=
  List.forall_mem_nil _

@[simp] theorem allPlain_cons {segment : Segment} {segments : List Segment} :
    AllPlain (segment :: segments) ↔ Text.Plain segment.text ∧ AllPlain segments :=
  List.forall_mem_cons

@[simp] theorem allPlain_append {first second : List Segment} :
    AllPlain (first ++ second) ↔ AllPlain first ∧ AllPlain second :=
  List.forall_mem_append

private theorem allPlain_flatMap {α : Type} {items : List α} {parts : α → List Segment}
    (each : ∀ item ∈ items, AllPlain (parts item)) : AllPlain (items.flatMap parts) := by
  intro segment member
  obtain ⟨item, isItem, inPart⟩ := List.mem_flatMap.mp member
  exact each item isItem segment inPart

/-- A source file whose path and text have no escape signs. -/
structure SourceFile.Plain (file : SourceFile) : Prop where
  path : Text.Plain file.path
  text : '\x1b' ∉ file.lines.text

/-- A diagnostic whose texts have no escape signs. -/
structure Diagnostic.Plain (diagnostic : Diagnostic) : Prop where
  message : Text.Plain diagnostic.message
  labels : ∀ label ∈ diagnostic.labels, Text.Plain label.message
  notes : ∀ note ∈ diagnostic.notes, Text.Plain note

@[simp] theorem Segment.text_plain (text : String) : (Segment.plain text).text = text := rfl

@[simp] theorem Segment.text_styled (style : Style) (text : String) :
    (Segment.styled style text).text = text := rfl

@[simp] theorem plain_repeated {character : Char} (plain : character ≠ '\x1b') (count : Nat) :
    Text.Plain (repeated count character) := by
  apply Text.plain_ofList
  intro member
  exact plain (List.eq_of_mem_replicate member).symm

namespace Label

variable {label : Label} (plain : Text.Plain label.message)
include plain

private theorem allPlain_bareSegments : AllPlain label.bareSegments := by
  have arrow : Text.Plain (if label.isPrimary then "-->" else "   ") := by
    split <;> decide
  simp +decide [bareSegments, Span.render, arrow, plain]

private theorem allPlain_sourceSegments {file : SourceFile} (filePlain : file.Plain) :
    AllPlain (label.sourceSegments file) := by
  have arrow : Text.Plain (if label.isPrimary then "-->" else ":::") := by
    split <;> decide
  have sign : (if label.isPrimary then '^' else '-') ≠ '\x1b' := by
    split <;> decide
  have shown (line : Nat) :
      Text.Plain (String.ofList ((file.lines.lineText? line).getD [])) := by
    apply Text.plain_ofList
    cases found : file.lines.lineText? line with
    | none => exact List.not_mem_nil
    | some text => exact fun member => filePlain.text (LineTable.subset_of_lineText? found member)
  have message : AllPlain
      (if label.message = "" then [] else [.plain " ", .styled label.style label.message]) := by
    split
    · exact allPlain_nil
    · simp +decide [plain]
  simp +decide [sourceSegments, arrow, sign, shown, message, filePlain.path]

theorem allPlain_segments {source : Option SourceFile} (sourcePlain : ∀ file ∈ source, file.Plain) :
    AllPlain (label.segments source) := by
  cases source with
  | none => exact allPlain_bareSegments plain
  | some file => exact allPlain_sourceSegments plain (sourcePlain file rfl)

end Label

theorem Diagnostic.allPlain_segments (diagnostic : Diagnostic) (plain : diagnostic.Plain)
    {source : Option SourceFile} (sourcePlain : ∀ file ∈ source, file.Plain) :
    AllPlain (diagnostic.segments source) := by
  have severity : Text.Plain diagnostic.severity.text := by
    cases diagnostic.severity <;> decide
  have code : Text.Plain diagnostic.code.text := by
    cases diagnostic.code <;> decide
  have labels : AllPlain (diagnostic.labels.flatMap (·.segments source)) :=
    allPlain_flatMap fun label member =>
      Label.allPlain_segments (plain.labels label member) sourcePlain
  have notes : AllPlain (diagnostic.notes.flatMap noteSegments) := by
    refine allPlain_flatMap fun note member => ?_
    simp +decide [noteSegments, plain.notes note member]
  simp +decide [segments, severity, code, plain.message, labels, notes]

private theorem allPlain_summarySegments (errors warnings : Nat) :
    AllPlain (summarySegments errors warnings) := by
  have noun (count : Nat) : Text.Plain (counted count "warning") := by
    unfold counted
    split <;> simp +decide
  unfold summarySegments
  split
  · split <;> split <;> simp +decide [noun]
  · split <;> simp +decide [noun]

/-! ### Whole reports -/

namespace Terminal

/-- What a terminal shows for diagnostics, followed by summaries of errors and warnings. -/
def output (terminal : Terminal) (diagnostics : List Diagnostic) (counts : List (Nat × Nat)) :
    String :=
  terminal.renderAll diagnostics ++
    String.join (counts.map fun (errors, warnings) => terminal.summary errors warnings)

private theorem withoutSequences_renderAll {source : Option SourceFile}
    {diagnostics : List Diagnostic} (sourcePlain : ∀ file ∈ source, file.Plain)
    (plain : ∀ item ∈ diagnostics, item.Plain) (rest : List Char) :
    Text.withoutSequences ((renderAll ⟨true, source⟩ diagnostics).toList ++ rest) =
      (renderAll ⟨false, source⟩ diagnostics).toList ++ Text.withoutSequences rest := by
  induction diagnostics with
  | nil => rfl
  | cons first others inductionHypothesis =>
      obtain ⟨here, later⟩ := List.forall_mem_cons.mp plain
      have segments := first.allPlain_segments here sourcePlain
      simp only [renderAll, List.map_cons, String.join_cons, String.toList_append,
        List.append_assoc]
      rw [render, withoutSequences_renderSegments segments]
      exact congrArg _ (inductionHypothesis later)

private theorem withoutSequences_summaries (source : Option SourceFile)
    (counts : List (Nat × Nat)) :
    Text.withoutSequences (String.join (counts.map fun (errors, warnings) =>
        summary ⟨true, source⟩ errors warnings)).toList =
      (String.join (counts.map fun (errors, warnings) =>
        summary ⟨false, source⟩ errors warnings)).toList := by
  induction counts with
  | nil => exact Text.withoutSequences_nil
  | cons first others inductionHypothesis =>
      simp only [List.map_cons, String.join_cons, String.toList_append]
      rw [summary, withoutSequences_renderSegments (allPlain_summarySegments _ _)]
      exact congrArg _ inductionHypothesis

/-- Colours are only decoration: what is shown with colours is, but for its control sequences,
what is shown without them. -/
theorem output_withoutSequences (source : Option SourceFile) (diagnostics : List Diagnostic)
    (counts : List (Nat × Nat)) (sourcePlain : ∀ file ∈ source, file.Plain)
    (plain : ∀ diagnostic ∈ diagnostics, diagnostic.Plain) :
    Text.withoutSequences (output ⟨true, source⟩ diagnostics counts).toList =
      (output ⟨false, source⟩ diagnostics counts).toList := by
  rw [output, output, String.toList_append, String.toList_append,
    withoutSequences_renderAll sourcePlain plain, withoutSequences_summaries]

/-- Labels of both kinds, a note and a summary, with a source of which a line is shown. -/
theorem output_withoutSequences_mixed :
    let file := SourceFile.ofText "m.py" "é = (\r\n"
    let diagnostic : Diagnostic :=
      ⟨.unclosedDelimiter, .error, "unclosed delimiter",
        [⟨⟨7, 8⟩, "the line ends", true⟩, ⟨⟨5, 6⟩, "opened here", false⟩], ["close it"]⟩
    file.Plain ∧ diagnostic.Plain ∧
      (output ⟨true, some file⟩ [diagnostic] [(1, 2)]).startsWith "\x1b[1;31merror\x1b[0m" ∧
      Text.withoutSequences (output ⟨true, some file⟩ [diagnostic] [(1, 2)]).toList =
        (output ⟨false, some file⟩ [diagnostic] [(1, 2)]).toList := by
  intro file diagnostic
  have filePlain : file.Plain := ⟨by decide, by decide⟩
  have plain : diagnostic.Plain := ⟨by decide, by simp +decide [diagnostic], by decide⟩
  refine ⟨filePlain, plain, by decide +kernel, ?_⟩
  exact output_withoutSequences (some file) [diagnostic] [(1, 2)] (by simpa using filePlain)
    (by simpa using plain)

end Terminal
end Transpiler
