import Transpiler.Proofs.Generate.Locations
import Transpiler.Proofs.Grammar.StatementComposition
import Transpiler.Proofs.Token.Constants

/-!
Contract: escaped strings stay inside their literal, and every statement stays on its line.

Owns: which characters of a text are escaped, that the contents of an escaped literal leave
nothing escaped behind and hold no bare quote (`Sealed`), that the parts of a tree read from
a source are written without a line break (`Expr.WithinLine`), and where the line breaks of
generated code stand (`Generator.code_confined`).

Does not own: what an escaped literal denotes.

## Why the contents need an invariant

Whether a quote is escaped depends on the whole run of backslashes before it, but characters
are escaped one at a time. The invariant is that each of them begins and ends where the next
character is not escaped.
-/

namespace Transpiler

namespace Cpp

/-! ### Escaped places -/

/-- The next character after the text is escaped: the text ends in an odd number of
backslashes. -/
def escapesNext (text : List Char) : Bool :=
  (text.reverse.takeWhile (· == '\\')).length % 2 == 1

@[simp] theorem escapesNext_nil : escapesNext [] = false := rfl

@[simp] theorem escapesNext_concat (text : List Char) (last : Char) :
    escapesNext (text ++ [last]) = (last == '\\' && !escapesNext text) := by
  unfold escapesNext
  rw [List.reverse_concat, List.takeWhile_cons]
  cases last == '\\' with
  | false => rfl
  | true =>
      rw [if_pos rfl, List.length_cons, Bool.true_and, Bool.eq_iff_iff]
      simp only [beq_iff_eq, Bool.not_eq_true', beq_eq_false_iff_ne]
      omega

/-- A stretch of a literal that starts and ends where nothing is escaped, and whose quotes
are all escaped. -/
structure Sealed (block : List Char) : Prop where
  ends {front : List Char} (starts : escapesNext front = false) :
    escapesNext (front ++ block) = false
  quotes {front before after : List Char} (starts : escapesNext front = false)
    (shape : block = before ++ '"' :: after) : escapesNext (front ++ before) = true

namespace Sealed

theorem nil : Sealed [] where
  ends starts := by rwa [List.append_nil]
  quotes _ shape := by simp at shape

theorem append {first second : List Char} (firstSealed : Sealed first)
    (secondSealed : Sealed second) : Sealed (first ++ second) where
  ends starts := by
    rw [← List.append_assoc]
    exact secondSealed.ends (firstSealed.ends starts)
  quotes {front before after} starts shape := by
    have inSecond {inner : List Char} (split : second = inner ++ '"' :: after) :
        escapesNext (front ++ (first ++ inner)) = true := by
      rw [← List.append_assoc]
      exact secondSealed.quotes (firstSealed.ends starts) split
    rcases List.append_eq_append_iff.mp shape with ⟨inner, rfl, split⟩ | ⟨inner, rfl, split⟩
    · exact inSecond split
    · cases inner with
      | nil =>
          have atStart : escapesNext (front ++ (before ++ [] ++ [])) = true := inSecond split.symm
          rwa [List.append_nil, List.append_nil] at atStart
      | cons quote others =>
          obtain ⟨rfl, rfl⟩ := List.cons.inj split
          exact firstSealed.quotes starts rfl

theorem single {character : Char} (notQuote : character ≠ '"') (notBackslash : character ≠ '\\') :
    Sealed [character] where
  ends _ := by simp [notBackslash]
  quotes {front before after} _ shape := by
    cases before with
    | nil => exact absurd (List.cons.inj shape).1 notQuote
    | cons => simp at shape

/-- A backslash seals whatever character follows it. -/
theorem pair (letter : Char) : Sealed ['\\', letter] where
  ends {front} starts := by
    rw [← List.singleton_append, ← List.append_assoc, escapesNext_concat, escapesNext_concat,
      starts]
    simp
  quotes {front before after} starts shape := by
    cases before with
    | nil => simp at shape
    | cons backslash others =>
        obtain ⟨rfl, shape⟩ := List.cons.inj shape
        cases others with
        | nil => simp [starts]
        | cons => simp at shape

end Sealed

/-! ### The contents of a literal -/

/-- The control characters of ASCII. -/
def isControl (character : Char) : Bool :=
  character.toNat < 32 || character.toNat == 127

/-- A character that a literal can hold as it is. -/
def isBare (character : Char) : Bool :=
  character != '"' && character != '\\' && !isControl character

private theorem isControl_of_bare {character : Char} (bare : isBare character = true) :
    isControl character = false := by
  simp only [isBare, Bool.and_eq_true, Bool.not_eq_true'] at bare
  exact bare.2

private theorem isBare_of_octal {digit : Char} (octal : Text.isRadixDigit 8 digit = true) :
    isBare digit = true := by
  have bare : ['0', '1', '2', '3', '4', '5', '6', '7'].all isBare = true := by decide
  exact List.all_eq_true.mp bare digit (mem_of_octal octal)

/-- A character is written bare, or as a backslash with a visible letter and digits after it. -/
private theorem escapeCharacter_cases (character : Char) :
    (escapeCharacter character = [character] ∧ isBare character = true) ∨
      ∃ letter digits, escapeCharacter character = '\\' :: letter :: digits ∧
        isControl letter = false ∧ ∀ digit ∈ digits, isBare digit = true := by
  have pair {letter : Char} (visible : isControl letter = false) :
      ∃ other digits, ['\\', letter] = '\\' :: other :: digits ∧ isControl other = false ∧
        ∀ digit ∈ digits, isBare digit = true :=
    ⟨letter, [], rfl, visible, List.forall_mem_nil _⟩
  unfold escapeCharacter
  split
  next => exact .inr (pair (by decide))
  split
  next => exact .inr (pair (by decide))
  split
  next => exact .inr (pair (by decide))
  split
  next => exact .inr (pair (by decide))
  split
  next => exact .inr (pair (by decide))
  split
  next => exact .inr (pair (by decide))
  split
  next control =>
    obtain ⟨three, octal, _⟩ := padZeros_octal (by simpa using control)
    generalize Text.padZeros 3 (Text.radixDigits 8 character.toNat) = digits at three octal ⊢
    have bare : ∀ digit ∈ digits, isBare digit = true := fun digit member =>
      isBare_of_octal (List.all_eq_true.mp octal digit member)
    cases digits with
    | nil => cases three
    | cons letter others =>
        obtain ⟨letterBare, othersBare⟩ := List.forall_mem_cons.mp bare
        exact .inr ⟨letter, others, rfl, isControl_of_bare letterBare, othersBare⟩
  next notBackslash notQuote _ _ _ _ visible =>
    refine .inl ⟨rfl, ?_⟩
    simp only [isBare, isControl, bne, notBackslash, notQuote, visible, Bool.not_false,
      Bool.and_self]

private theorem sealed_of_bare {block : List Char}
    (bare : ∀ character ∈ block, isBare character = true) :
    Sealed block := by
  induction block with
  | nil => exact .nil
  | cons first rest inductionHypothesis =>
      obtain ⟨firstBare, restBare⟩ := List.forall_mem_cons.mp bare
      simp only [isBare, Bool.and_eq_true, bne_iff_ne] at firstBare
      exact (Sealed.single firstBare.1.1 firstBare.1.2).append (inductionHypothesis restBare)

private theorem sealed_escapeCharacter (character : Char) : Sealed (escapeCharacter character) := by
  rcases escapeCharacter_cases character with ⟨written, bare⟩ | ⟨letter, digits, written, _, bare⟩
  · rw [written]
    exact sealed_of_bare (List.forall_mem_singleton.mpr bare)
  · rw [written]
    exact (Sealed.pair letter).append (sealed_of_bare bare)

private theorem sealed_escapedBody (text : List Char) : Sealed (escapedBody text) := by
  induction text with
  | nil => exact .nil
  | cons first rest inductionHypothesis =>
      exact (sealed_escapeCharacter first).append inductionHypothesis

private theorem isControl_of_mem_escapedBody {text : List Char} :
    ∀ written ∈ escapedBody text, isControl written = false := by
  intro written member
  obtain ⟨character, _, member⟩ := List.mem_flatMap.mp member
  rcases escapeCharacter_cases character with ⟨shape, bare⟩ | ⟨letter, digits, shape, visible, bare⟩
  · rw [shape, List.mem_singleton] at member
    exact member ▸ isControl_of_bare bare
  · rw [shape] at member
    rcases List.mem_cons.mp member with rfl | member
    · decide
    rcases List.mem_cons.mp member with rfl | member
    · exact visible
    · exact isControl_of_bare (bare written member)

/-- A literal that its contents cannot leave. It stands in quotes, its first and last
characters are its only quotes that are not escaped, and it has no control characters. -/
structure Confined (literal : List Char) : Prop where
  quoted : ∃ body, literal = '"' :: (body ++ ['"'])
  quotes {front rest : List Char} (shape : literal = front ++ '"' :: rest) :
    escapesNext front = false ↔ front = [] ∨ rest = []
  visible : ∀ character ∈ literal, isControl character = false

theorem Sealed.confined {body : List Char} (bodySealed : Sealed body)
    (visible : ∀ character ∈ body, isControl character = false) :
    Confined ('"' :: (body ++ ['"'])) where
  quoted := ⟨body, rfl⟩
  visible := by
    simp only [List.mem_cons, List.mem_append, List.not_mem_nil, or_false]
    rintro character (rfl | member | rfl)
    · decide
    · exact visible character member
    · decide
  quotes {front rest} shape := by
    cases front with
    | nil => simp
    | cons quote inner =>
        obtain ⟨rfl, inside⟩ := List.cons.inj shape
        have opened : escapesNext ['"'] = false := rfl
        rcases List.eq_nil_or_concat rest with rfl | ⟨others, last, rfl⟩
        · have ended : body = inner := (List.append_inj' inside rfl).1
          simpa [ended] using bodySealed.ends opened
        · rw [List.concat_eq_append] at inside ⊢
          have within : body ++ ['"'] = (inner ++ '"' :: others) ++ [last] := by simpa using inside
          have held : body = inner ++ '"' :: others := (List.append_inj' within rfl).1
          simpa using bodySealed.quotes opened held

theorem confined_expression_str (generator text : String) (span : Span) :
    ∃ literal, expression ⟨generator, true⟩ (.constant (.str text) span) = .ok literal ∧
      Confined literal.toList := by
  refine ⟨_, expression_str generator text span, ?_⟩
  rw [String.toList_ofList]
  exact (sealed_escapedBody text.toList).confined isControl_of_mem_escapedBody

end Cpp

/-! ### Parts without a line break -/

/-- The text holds no line break. -/
def OneLine (text : String) : Prop :=
  '\n' ∉ text.toList

namespace OneLine

theorem append {first second : String} (firstInline : OneLine first)
    (secondInline : OneLine second) : OneLine (first ++ second) := by
  unfold OneLine
  rw [String.toList_append, List.mem_append]
  exact not_or.mpr ⟨firstInline, secondInline⟩

theorem intercalate {separator : String} {texts : List String} (separates : OneLine separator)
    (each : ∀ text ∈ texts, OneLine text) : OneLine (String.intercalate separator texts) := by
  induction texts with
  | nil => simp [OneLine]
  | cons first rest inductionHypothesis =>
      obtain ⟨firstInline, restInline⟩ := List.forall_mem_cons.mp each
      have later := inductionHypothesis restInline
      cases rest with
      | nil => simpa [OneLine, String.toList_intercalate] using firstInline
      | cons second others =>
          simp only [OneLine, String.toList_intercalate, List.map_cons] at later ⊢
          rw [List.intercalate_cons_cons, List.mem_append, List.mem_append]
          exact not_or.mpr ⟨not_or.mpr ⟨firstInline, separates⟩, later⟩

theorem of_plain {text : String}
    (plain : ∀ character ∈ text.toList, Outline.isPlainCharacter character = true) :
    OneLine text := by
  intro isBreak
  have plainBreak := plain '\n' isBreak
  contradiction

end OneLine

/-- A kind of tokens whose constant can be read from source text, or whose name stands in
one line. -/
structure TokenKind.WithinLine (kind : TokenKind) : Prop where
  readable : kind.Readable
  name {name : String} (isName : kind = .ident name) : OneLine name

/-- A node whose own constant or name is written in one line. -/
def Expr.WithinLine : Expr → Prop
  | .constant value _ => value.Readable
  | .name identifier _ => OneLine identifier
  | _ => True

private theorem nodeProperty_withinLine : NodeProperty TokenKind.WithinLine Expr.WithinLine where
  simple := by
    intro token expr kept isSimple
    unfold simpleAtom? at isSimple
    extract_lets constant at isSimple
    obtain ⟨readable, inline⟩ := kept
    cases isKind : token.kind with
    | ident name =>
        rw [isKind] at isSimple
        cases isSimple
        exact inline isKind
    | _ => rw [isKind] at isSimple readable; cases isSimple <;> exact readable
  text _ _ := trivial
  bytes _ _ := trivial
  outside _ _ := trivial
  compound := by
    intro expr isCompound
    cases expr with
    | constant | name => contradiction
    | _ => trivial

/-- The name of an identifier is a word, and words have no line break. -/
theorem Lexeme.oneLine_of_token? {text : List Char} {lexeme : Lexeme} {name : String}
    (member : lexeme ∈ split text) (stands : lexeme.token? = .ok (some (.ident name))) :
    OneLine name := by
  obtain ⟨_, first, rest, _, starts, isName, _⟩ := exists_word_of_mem_split member stands
  unfold OneLine
  rw [isName, List.mem_cons]
  rintro (rfl | isBreak)
  · revert starts
    decide
  · have continues := List.mem_takeWhile_imp isBreak
    revert continues
    decide

private theorem withinLine_of_tokenize {source : String} {tokens : List Token}
    (tokenized : tokenize source = .ok tokens) : ∀ token ∈ tokens, token.kind.WithinLine := by
  intro token member
  refine ⟨readable_of_tokenize tokenized token member, ?_⟩
  intro name isName
  obtain ⟨added, last, runs, rfl⟩ := Layout.runs_of_tokenize tokenized
  have notLayout : token.kind.isLayout = false := by rw [isName]; rfl
  rcases List.mem_append.mp member with isAdded | isFinal
  · rcases runs.origin token isAdded with isMark | ⟨lexeme, inSplit, stands⟩
    · simp [notLayout] at isMark
    · exact Lexeme.oneLine_of_token? inSplit (isName ▸ stands)
  · have isMark := Layout.isLayout_of_mem_finish isFinal
    simp [notLayout] at isMark

theorem Module.withinLine_of_ofSource {source : String} {tree : Module}
    (parsed : ofSource source = .ok tree) :
    ∀ stmt ∈ tree.body, stmt.Built (Expr.EachNode Expr.WithinLine) := by
  obtain ⟨tokens, tokenized, parsed⟩ := ofSource_eq_ok_iff.mp parsed
  exact built_of_ofTokens nodeProperty_withinLine.composition
    (withinLine_of_tokenize tokenized) parsed

/-! ### Statements without a line break -/

namespace Cpp

private theorem oneLine_name? {expr : Expr} {name : String} (within : expr.EachNode Expr.WithinLine)
    (isName : expr.name? = some name) : OneLine name := by
  cases expr with
  | name identifier span =>
      obtain rfl := Option.some.inj isName
      exact (Expr.eachNode_iff.mp within).1
  | _ => contradiction

private theorem oneLine_constant? {value : Constant} {text : String} (readable : value.Readable)
    (written : constant? true value = some text) : OneLine text := by
  cases value with
  | bool value =>
      obtain rfl := Option.some.inj written
      cases value <;> simp [OneLine]
  | int value =>
      obtain rfl := Option.some.inj written
      obtain ⟨number, _, rfl⟩ := readable
      exact .of_plain (Constant.plain_repr number)
  | bigInt digits =>
      obtain rfl := Option.some.inj written
      obtain ⟨number, _, rfl⟩ := readable
      exact .of_plain (Constant.plain_repr number)
  | float number =>
      obtain rfl := Option.some.inj written
      exact .of_plain (Constant.plain_render readable)
  | str text =>
      obtain rfl := Option.some.inj written
      obtain ⟨literal, generated, confined⟩ := confined_expression_str "" text .dummy
      obtain rfl : escapedLiteral text = literal := Except.ok.inj generated
      intro isBreak
      exact absurd (confined.visible '\n' isBreak) (by decide)
  | none => contradiction
  | bytes => contradiction
  | ellipsis => contradiction

private theorem oneLine_operation? {operator : BinaryOp} {left right text : String}
    (leftInline : OneLine left) (rightInline : OneLine right)
    (written : operation? operator left right = some text) : OneLine text := by
  have space : OneLine " " := by simp [OneLine]
  have between {mark : String} (inline : OneLine mark) :
      OneLine (left ++ " " ++ mark ++ " " ++ right) :=
    (((leftInline.append space).append inline).append space).append rightInline
  cases operator with
  | add | sub | mult | div =>
      obtain rfl := Option.some.inj written
      exact between (by simp [OneLine, BinaryOp.symbol])
  | pow =>
      obtain rfl := Option.some.inj written
      have opens : OneLine "pow(" := by simp [OneLine]
      have separates : OneLine ", " := by simp [OneLine]
      have closes : OneLine ")" := by simp [OneLine]
      exact (((opens.append leftInline).append separates).append rightInline).append closes
  | _ => contradiction

section

variable (generator : String)

mutual

private theorem oneLine_expression :
    ∀ {expr : Expr} {text : String}, expr.EachNode Expr.WithinLine →
      (expression ⟨generator, true⟩ expr).toOption = some text → OneLine text
  | .binary left operator right span, text, within, written => by
      have parts := (Expr.eachNode_iff.mp within).2
      rw [toOption_binary, Option.bind_eq_some_iff] at written
      obtain ⟨leftText, leftWritten, written⟩ := written
      obtain ⟨rightText, rightWritten, written⟩ := Option.bind_eq_some_iff.mp written
      have leftInline := oneLine_expression (parts left (by simp [Expr.children])) leftWritten
      have rightInline := oneLine_expression (parts right (by simp [Expr.children])) rightWritten
      exact oneLine_operation? leftInline rightInline written
  | .call callee arguments span, text, within, written => by
      obtain ⟨head, each⟩ := List.forall_mem_cons.mp (Expr.eachNode_iff.mp within).2
      rw [toOption_call, Option.bind_eq_some_iff] at written
      obtain ⟨name, isName, written⟩ := written
      obtain ⟨texts, argumentsWritten, rfl⟩ := Option.map_eq_some_iff.mp written
      have inline := oneLine_expressions each argumentsWritten
      have opens : OneLine "(" := by simp [OneLine]
      have separates : OneLine ", " := by simp [OneLine]
      have closes : OneLine ")" := by simp [OneLine]
      exact (((oneLine_name? head isName).append opens).append
        (.intercalate separates inline)).append closes
  | .constant value span, text, within, written => by
      rw [toOption_constant] at written
      exact oneLine_constant? (Expr.eachNode_iff.mp within).1 written
  | .name identifier span, text, within, written => oneLine_name? within written

theorem oneLine_expressions :
    ∀ {arguments : List Expr} {texts : List String},
      (∀ argument ∈ arguments, argument.EachNode Expr.WithinLine) →
      (expressions ⟨generator, true⟩ arguments).toOption = some texts →
        ∀ text ∈ texts, OneLine text
  | [], _, _, written => by
      obtain rfl := Option.some.inj written
      exact List.forall_mem_nil _
  | first :: rest, texts, each, written => by
      obtain ⟨head, others⟩ := List.forall_mem_cons.mp each
      rw [toOption_expressions_cons, Option.bind_eq_some_iff] at written
      obtain ⟨text, firstWritten, written⟩ := written
      obtain ⟨moreTexts, restWritten, rfl⟩ := Option.map_eq_some_iff.mp written
      exact List.forall_mem_cons.mpr
        ⟨oneLine_expression head firstWritten, oneLine_expressions others restWritten⟩

end

theorem oneLine_statement {stmt : Stmt} {line : String}
    (within : ∀ child ∈ stmt.children, child.EachNode Expr.WithinLine)
    (written : (statement ⟨generator, true⟩ stmt).toOption = some line) : OneLine line := by
  have ends : OneLine ";" := by simp [OneLine]
  cases stmt with
  | annotated target annotation value span =>
      rw [toOption_annotated, Option.bind_eq_some_iff] at written
      obtain ⟨targetText, isTarget, written⟩ := written
      obtain ⟨valueText, valueWritten, written⟩ := Option.bind_eq_some_iff.mp written
      obtain ⟨annotationText, isAnnotation, rfl⟩ := Option.map_eq_some_iff.mp written
      obtain ⟨value, rfl, valueWritten⟩ := Option.bind_eq_some_iff.mp valueWritten
      have targetInline := oneLine_name? (within target (by simp [Stmt.children])) isTarget
      have annotationInline :=
        oneLine_name? (within annotation (by simp [Stmt.children])) isAnnotation
      have valueInline :=
        oneLine_expression generator (within value (by simp [Stmt.children])) valueWritten
      have space : OneLine " " := by simp [OneLine]
      have assigns : OneLine " = " := by simp [OneLine]
      exact ((((annotationInline.append space).append targetInline).append assigns).append
        valueInline).append ends
  | expression value span =>
      rw [toOption_expressionStatement, Option.map_eq_some_iff] at written
      obtain ⟨text, valueWritten, rfl⟩ := written
      exact (oneLine_expression generator (within value (by simp [Stmt.children]))
        valueWritten).append ends
  | pass => contradiction
  | assign => contradiction
  | augmented => contradiction
  | unsupported => contradiction

end
end Cpp

/-! ### The line breaks of a module -/

namespace Generator

/-- The code has a number of line breaks, each of them directly after a semicolon. -/
structure Terminated (code : String) (count : Nat) : Prop where
  breaks : code.toList.count '\n' = count
  semicolons {before after : List Char} (shape : code.toList = before ++ '\n' :: after) :
    before.getLast? = some ';'

private theorem terminated_codeOf {lines : List String}
    (each : ∀ line ∈ lines, OneLine line ∧ ∃ text, line = text ++ ";") :
    Terminated (codeOf lines) lines.length := by
  induction lines with
  | nil => exact ⟨by simp, by simp⟩
  | cons line rest inductionHypothesis =>
      obtain ⟨⟨inline, text, rfl⟩, restEach⟩ := List.forall_mem_cons.mp each
      obtain ⟨breaks, semicolons⟩ := inductionHypothesis restEach
      have whole : (codeOf ((text ++ ";") :: rest)).toList =
          (text ++ ";").toList ++ '\n' :: (codeOf rest).toList := by simp
      refine ⟨?_, ?_⟩
      · rw [whole, List.count_append, List.count_eq_zero_of_not_mem inline, List.count_cons_self,
          breaks, Nat.zero_add, List.length_cons]
      · intro before after shape
        rw [whole] at shape
        rcases List.append_eq_append_iff.mp shape with ⟨inner, rfl, split⟩ | ⟨inner, cut, split⟩
        · cases inner with
          | nil => simp
          | cons first others =>
              have ended := semicolons (List.cons.inj split).2
              rw [List.getLast?_append, List.getLast?_cons, ended]
              rfl
        · cases inner with
          | nil =>
              rw [List.append_nil] at cut
              simp [← cut]
          | cons first others =>
              -- The break would stand inside the line.
              obtain ⟨rfl, _⟩ := List.cons.inj split
              exact absurd (cut ▸ List.mem_append_right before List.mem_cons_self) inline

private theorem terminated_lines {generator : Generator} {tree : Module} {source : String}
    (escaping : generator.options.escapeStrings = true)
    (parsed : Module.ofSource source = .ok tree) :
    Terminated (codeOf (tree.body.filterMap generator.line?))
      (tree.body.filterMap generator.line?).length := by
  apply terminated_codeOf
  intro line member
  obtain ⟨stmt, inBody, written⟩ := List.mem_filterMap.mp member
  have within := (Module.withinLine_of_ofSource parsed stmt inBody).children
  unfold line? Generator.statement at written
  rw [escaping] at written
  cases generator.format with
  | cpp => exact ⟨Cpp.oneLine_statement _ within written, Cpp.exists_line_of_statement _ written⟩

/-- With escaping on, strings break out of neither their literal nor their line. The literal
of every string is confined, and the code of a module read from a source has one line break
for each statement that is generated, directly after its semicolon. -/
theorem code_confined (generator : Generator)
    (escaping : generator.options.escapeStrings = true) :
    (∀ (text : String) (span : Span), ∃ literal,
      Cpp.expression ⟨generator.path, generator.options.escapeStrings⟩
          (.constant (.str text) span) = .ok literal ∧ Cpp.Confined literal.toList) ∧
      ∀ (source : String) (tree : Module), Module.ofSource source = .ok tree →
        Terminated (generator.generateCollecting tree).code
            (tree.body.countP fun stmt => (generator.line? stmt).isSome) ∧
          ∀ code, generator.generateModule tree = .ok code → Terminated code tree.body.length := by
  constructor
  · intro text span
    rw [escaping]
    exact Cpp.confined_expression_str generator.path text span
  · intro source tree parsed
    have terminated := terminated_lines escaping parsed
    constructor
    · rw [generateCollecting_eq, ← List.length_filterMap_eq_countP]
      exact terminated
    · intro code generated
      rw [generateModule_eq] at generated
      have total := length_lines_add_failures generator tree.body
      cases failures : tree.body.filterMap generator.failure? with
      | cons error others =>
          rw [failures] at generated
          contradiction
      | nil =>
          rw [failures] at generated total
          obtain rfl : codeOf _ = code := Except.ok.inj generated
          rw [List.length_nil, Nat.add_zero] at total
          rwa [total] at terminated

/-- A string with a quote, a backslash, a line break and a control character, once beside a
statement that is left out and once beside none. -/
theorem code_confined_mixed :
    (∃ tree, Module.ofSource "s: str = '\"\\\\\\n\\x01'\npass\nf(s, 1)" = .ok tree ∧
      Terminated ((Generator.mk .cpp ⟨true, .collectAll⟩).generateCollecting tree).code 2) ∧
      ∃ tree code, Module.ofSource "f('\"\\\\\\n\\x01')" = .ok tree ∧
        (Generator.mk .cpp ⟨true, .failFast⟩).generateModule tree = .ok code ∧
        code = "f(\"\\\"\\\\\\n\\001\");\n" ∧ Terminated code 1 := by
  constructor
  · have seen : (Module.ofSource "s: str = '\"\\\\\\n\\x01'\npass\nf(s, 1)").toOption.map
        (fun tree => tree.body.countP fun stmt =>
          ((Generator.mk .cpp ⟨true, .collectAll⟩).line? stmt).isSome) = some 2 := by
      decide +kernel
    obtain ⟨tree, parsed, count⟩ := exists_eq_ok_of_toOption_map seen
    have terminated := ((code_confined ⟨.cpp, ⟨true, .collectAll⟩⟩ rfl).2 _ tree parsed).1
    exact ⟨tree, parsed, count ▸ terminated⟩
  · have seen : (Module.ofSource "f('\"\\\\\\n\\x01')").toOption.map
        (fun tree => (tree.body.length,
          ((Generator.mk .cpp ⟨true, .failFast⟩).generateModule tree).toOption)) =
        some (1, some "f(\"\\\"\\\\\\n\\001\");\n") := by
      decide +kernel
    obtain ⟨tree, parsed, view⟩ := exists_eq_ok_of_toOption_map seen
    obtain ⟨count, written⟩ := Prod.mk.inj view
    have generated := eq_ok_of_toOption written
    have terminated := ((code_confined ⟨.cpp, ⟨true, .failFast⟩⟩ rfl).2 _ tree parsed).2 _ generated
    exact ⟨tree, _, parsed, generated, rfl, count ▸ terminated⟩

end Generator
end Transpiler
