import Transpiler.Proofs.Token.QuotedLiteral
import Transpiler.Syntax.Outline

/-!
Contract: the text of a listing determines what it shows.

Owns: the outlines whose texts can be told from what follows them, what of an outline its
text shows, and that two such outlines with the same text at the same level show the same
(`Outline.shown_eq_of_render`).

Does not own: which outlines stand for syntax trees.
-/

namespace Transpiler

namespace Outline

/-! ### What is shown -/

mutual

/-- The outline without the fields that are left out. -/
def shown : Outline → Outline
  | .atom text => .atom text
  | .sequence items => .sequence (shownItems items)
  | .node kindName fields => .node kindName (shownPairs fields)

def shownItems : List Outline → List Outline
  | [] => []
  | first :: rest => first.shown :: shownItems rest

def shownPairs : List (String × Outline) → List (String × Outline)
  | [] => []
  | (label, value) :: rest =>
      if value.isEmptySequence then shownPairs rest
      else (label, value.shown) :: shownPairs rest

end

/-- A field with what of its value is shown. -/
def shownField (field : String × Outline) : String × Outline := (field.1, field.2.shown)

private theorem shownItems_eq_map (items : List Outline) : shownItems items = items.map shown := by
  induction items with
  | nil => rfl
  | cons first rest inductionHypothesis =>
      rw [shownItems, inductionHypothesis, List.map_cons]

private theorem shownFields_cons (label : String) (value : Outline)
    (rest : List (String × Outline)) :
    shownFields ((label, value) :: rest) =
      if value.isEmptySequence then shownFields rest else (label, value) :: shownFields rest := by
  unfold shownFields
  cases empty : value.isEmptySequence <;> simp [empty]

private theorem shownPairs_eq_map (fields : List (String × Outline)) :
    shownPairs fields = (shownFields fields).map shownField := by
  induction fields with
  | nil => rfl
  | cons field rest inductionHypothesis =>
      obtain ⟨label, value⟩ := field
      rw [shownPairs, inductionHypothesis, shownFields_cons]
      split <;> rfl

private theorem mem_labels_of_shownPairs {fields : List (String × Outline)}
    {field : String × Outline} (member : field ∈ shownPairs fields) :
    field.1 ∈ fields.map Prod.fst := by
  rw [shownPairs_eq_map] at member
  obtain ⟨original, isShown, rfl⟩ := List.mem_map.mp member
  show original.1 ∈ fields.map Prod.fst
  exact List.mem_map_of_mem (List.mem_filter.mp isShown).1

private theorem shown_of_isEmptySequence {value : Outline} (empty : value.isEmptySequence = true) :
    value.shown = .sequence [] := by
  unfold isEmptySequence at empty
  split at empty
  · rfl
  · cases empty

/-- A field whose label does not occur again can be read off what is shown, also if it is
left out. -/
private theorem shownPairs_cons_inj {label : String} {value other : Outline}
    {fields others : List (String × Outline)} (once : label ∉ fields.map Prod.fst)
    (onceToo : label ∉ others.map Prod.fst)
    (pairs : shownPairs ((label, value) :: fields) = shownPairs ((label, other) :: others)) :
    value.shown = other.shown ∧ shownPairs fields = shownPairs others := by
  have absent {fields : List (String × Outline)} (once : label ∉ fields.map Prod.fst)
      (value : Outline) (rest : List (String × Outline)) :
      shownPairs fields ≠ (label, value) :: rest := by
    intro same
    apply once
    have member : (label, value) ∈ shownPairs fields := by
      rw [same]
      exact List.mem_cons_self
    exact mem_labels_of_shownPairs member
  rw [shownPairs, shownPairs] at pairs
  split at pairs
  case isTrue empty =>
    split at pairs
    case isTrue emptyToo =>
      rw [shown_of_isEmptySequence empty, shown_of_isEmptySequence emptyToo]
      exact ⟨rfl, pairs⟩
    case isFalse => exact absurd pairs (absent once _ _)
  case isFalse =>
    split at pairs
    case isTrue => exact absurd pairs.symm (absent onceToo _ _)
    case isFalse =>
      obtain ⟨firsts, rests⟩ := List.cons.inj pairs
      exact ⟨(Prod.mk.inj firsts).2, rests⟩

/-- Nodes with the same labels, each of them once, show the same only if each of their fields
does. -/
theorem values_of_shown {kindName kindNameToo : String} {fields others : List (String × Outline)}
    (same : (node kindName fields).shown = (node kindNameToo others).shown)
    (labels : fields.map Prod.fst = others.map Prod.fst)
    (distinct : (fields.map Prod.fst).Nodup) :
    fields.map (·.2.shown) = others.map (·.2.shown) := by
  have pairs := (node.inj same).2
  clear same
  induction fields generalizing others with
  | nil =>
      cases others with
      | nil => rfl
      | cons => cases labels
  | cons field fields inductionHypothesis =>
      cases others with
      | nil => cases labels
      | cons other others =>
          obtain ⟨sameLabel, labels⟩ := List.cons.inj labels
          obtain ⟨once, distinct⟩ := List.nodup_cons.mp distinct
          have onceToo : field.1 ∉ others.map Prod.fst := labels ▸ once
          rw [← Prod.eta other, ← sameLabel] at pairs
          obtain ⟨values, rests⟩ := shownPairs_cons_inj once onceToo pairs
          rw [List.map_cons, List.map_cons, values, inductionHypothesis labels distinct rests]

/-! ### Texts -/

/-- The text of a field. -/
def fieldText (level : Nat) (field : String × Outline) : List Char :=
  field.1.toList ++ '=' :: (field.2.render level).toList

/-- The text of an item. -/
def itemText (level : Nat) (item : Outline) : List Char :=
  (item.render level).toList

private theorem map_toList_renderItems (level : Nat) (items : List Outline) :
    (renderItems level items).map String.toList = items.map (itemText level) := by
  induction items with
  | nil => rfl
  | cons first rest inductionHypothesis =>
      rw [renderItems, List.map_cons, inductionHypothesis, List.map_cons, itemText]

private theorem map_toList_renderFields (level : Nat) (fields : List (String × Outline)) :
    (renderFields level fields).map String.toList
      = (shownFields fields).map (fieldText level) := by
  induction fields with
  | nil => rfl
  | cons field rest inductionHypothesis =>
      obtain ⟨label, value⟩ := field
      rw [renderFields, shownFields_cons]
      split
      · exact inductionHypothesis
      · rw [List.map_cons, inductionHypothesis, List.map_cons]
        simp [fieldText]

/-- Pieces on lines of their own. -/
def stackedText (level : Nat) (texts : List (List Char)) : List Char :=
  (lineBreak level).toList ++ List.intercalate (',' :: (lineBreak level).toList) texts

private theorem toList_stacked (level : Nat) (texts : List String) :
    (stacked level texts).toList = stackedText level (texts.map String.toList) := by
  simp [stacked, stackedText, String.toList_intercalate]

/-- The fields of a node between its parentheses. -/
def innerText (level : Nat) (fields : List (String × Outline)) : List Char :=
  let texts := (shownFields fields).map (fieldText level)
  if fitsOneLine fields then List.intercalate [',', ' '] texts else stackedText level texts

private theorem itemText_sequence_nil (level : Nat) :
    itemText level (.sequence []) = ['[', ']'] := by
  simp [itemText, render]

private theorem itemText_sequence_cons (level : Nat) (first : Outline) (rest : List Outline) :
    itemText level (.sequence (first :: rest)) =
      '[' :: (stackedText (level + 1) ((first :: rest).map (itemText (level + 1))) ++ [']']) := by
  simp [itemText, render, toList_stacked, map_toList_renderItems]

private theorem itemText_node (level : Nat) (kindName : String) (fields : List (String × Outline)) :
    itemText level (.node kindName fields) =
      kindName.toList ++ '(' :: (innerText (level + 1) fields ++ [')']) := by
  rw [itemText, render, innerText, ← map_toList_renderFields]
  split <;> simp [toList_stacked, String.toList_intercalate]

/-! ### Where a text ends -/

/-- A character that neither delimits pieces nor quotes them. -/
def isPlainCharacter (character : Char) : Bool :=
  !(['(', ')', '[', ']', ',', '=', '\n', '\'', '"'].contains character)

/-- A text that is over, or goes on with a separator or a closing bracket. -/
def Delimited (rest : List Char) : Prop :=
  ∀ character ∈ rest.head?, character ∈ [',', ')', ']']

theorem Delimited.nil : Delimited [] := by
  intro character member
  cases member

theorem Delimited.cons {mark : Char} (isMark : mark ∈ [',', ')', ']']) (rest : List Char) :
    Delimited (mark :: rest) := by
  intro character member
  cases member
  exact isMark

theorem Delimited.stops {rest : List Char} (delimited : Delimited rest) :
    ∀ character ∈ rest.head?, isPlainCharacter character = false := by
  intro character member
  have isMark : character = ',' ∨ character = ')' ∨ character = ']' := by
    simpa using delimited character member
  rcases isMark with rfl | rfl | rfl <;> decide

/-- A run of plain characters is determined by the first one that is not. -/
theorem plain_append_inj {first second rest more : List Char}
    (plain : ∀ character ∈ first, isPlainCharacter character = true)
    (plainToo : ∀ character ∈ second, isPlainCharacter character = true)
    (stops : ∀ character ∈ rest.head?, isPlainCharacter character = false)
    (stopsToo : ∀ character ∈ more.head?, isPlainCharacter character = false)
    (texts : first ++ rest = second ++ more) : first = second ∧ rest = more := by
  have cut {text rest : List Char} (plain : ∀ character ∈ text, isPlainCharacter character = true)
      (stops : ∀ character ∈ rest.head?, isPlainCharacter character = false) :
      (text ++ rest).takeWhile isPlainCharacter = text := by
    rw [List.takeWhile_append_of_pos plain]
    cases rest with
    | nil => exact List.append_nil text
    | cons character others =>
        rw [List.takeWhile_cons_of_neg (by simp [stops character rfl]), List.append_nil]
  have firsts : first = second := by
    rw [← cut plain stops, texts, cut plainToo stopsToo]
  subst firsts
  exact ⟨rfl, List.append_cancel_left texts⟩

/-- Pieces after the first, each led by a comma, up to an ending. -/
def separated {α : Type} (text : α → List Char) (spacing ending : List Char) : List α → List Char
  | [] => ending
  | first :: rest => ',' :: (spacing ++ (text first ++ separated text spacing ending rest))

theorem intercalate_append {α : Type} (text : α → List Char) (spacing ending : List Char)
    (first : α) (rest : List α) :
    List.intercalate (',' :: spacing) ((first :: rest).map text) ++ ending =
      text first ++ separated text spacing ending rest := by
  induction rest generalizing first with
  | nil => simp [separated]
  | cons second others inductionHypothesis =>
      have next := inductionHypothesis second
      rw [List.map_cons] at next
      rw [List.map_cons, List.map_cons, List.intercalate_cons_cons, List.append_assoc,
        List.append_assoc, next]
      rfl

/-- Two pieces with the same text, whatever may follow them, show the same. -/
def ReadAlike {α β : Type} (text : α → List Char) (view : α → β) (first second : α) : Prop :=
  ∀ rest more : List Char, Delimited rest → Delimited more →
    text first ++ rest = text second ++ more → view first = view second ∧ rest = more

theorem ReadAlike.symm {α β : Type} {text : α → List Char} {view : α → β} {first second : α}
    (alike : ReadAlike text view first second) : ReadAlike text view second first := by
  intro rest more delimited delimitedToo texts
  obtain ⟨views, rests⟩ := alike more rest delimitedToo delimited texts.symm
  exact ⟨views.symm, rests.symm⟩

section Separated

variable {α β : Type} {text : α → List Char} {view : α → β} {spacing : List Char} {close : Char}

private theorem delimited_separated (closes : close ∈ [')', ']']) (rest : List Char)
    (items : List α) :
    Delimited (separated text spacing (close :: rest) items) := by
  cases items with
  | nil => exact .cons (List.mem_cons_of_mem ',' closes) rest
  | cons first others => exact .cons (by decide) _

/-- If each piece can be told from what follows it, so can pieces between separators. -/
private theorem separated_inj (closes : close ∈ [')', ']']) {items others : List α}
    (each : ∀ item ∈ items, ∀ other ∈ others, ReadAlike text view item other)
    {rest more : List Char}
    (texts : separated text spacing (close :: rest) items
      = separated text spacing (close :: more) others) :
    items.map view = others.map view ∧ rest = more := by
  have notComma : close ≠ ',' := by
    rintro rfl
    exact absurd closes (by decide)
  induction items generalizing others with
  | nil =>
      cases others with
      | nil => exact ⟨rfl, (List.cons.inj texts).2⟩
      | cons other others => exact absurd (List.cons.inj texts).1 notComma
  | cons item items inductionHypothesis =>
      cases others with
      | nil => exact absurd (List.cons.inj texts).1.symm notComma
      | cons other others =>
          have pieces := List.append_cancel_left (List.cons.inj texts).2
          obtain ⟨views, rests⟩ := each item List.mem_cons_self other List.mem_cons_self _ _
            (delimited_separated closes rest items) (delimited_separated closes more others) pieces
          obtain ⟨viewsToo, restsToo⟩ := inductionHypothesis
            (fun item member other memberToo => each item (List.mem_cons_of_mem _ member) other
              (List.mem_cons_of_mem _ memberToo)) rests
          rw [List.map_cons, List.map_cons, views, viewsToo]
          exact ⟨rfl, restsToo⟩

private theorem intercalate_inj (closes : close ∈ [')', ']']) {first second : α}
    {items others : List α}
    (each : ∀ item ∈ first :: items, ∀ other ∈ second :: others, ReadAlike text view item other)
    {rest more : List Char}
    (texts : List.intercalate (',' :: spacing) ((first :: items).map text) ++ close :: rest
      = List.intercalate (',' :: spacing) ((second :: others).map text) ++ close :: more) :
    (first :: items).map view = (second :: others).map view ∧ rest = more := by
  rw [intercalate_append, intercalate_append] at texts
  have pieces : separated text spacing (close :: rest) (first :: items)
      = separated text spacing (close :: more) (second :: others) := by
    rw [separated, separated, texts]
  exact separated_inj closes each pieces

end Separated

/-! ### Outlines that can be read off their texts -/

/-- A text between quotes, perhaps with letters before them; the first quote of its kind
that is not escaped is the last character. -/
structure Quoted (text : List Char) (letters : List Char) (quote : Char) (body : List Char) :
    Prop where
  shape : text = letters ++ quote :: (body ++ [quote])
  plain : ∀ character ∈ letters, isPlainCharacter character = true
  isQuote : Lexeme.isQuote quote = true
  closed : ∀ rest, Lexeme.literalBody quote (body ++ quote :: rest) = body

/-- The texts that end where they say. -/
inductive SelfDelimiting (text : List Char) : Prop
  | plain (plain : ∀ character ∈ text, isPlainCharacter character = true) : SelfDelimiting text
  | quoted {letters body : List Char} {quote : Char} (quoted : Quoted text letters quote body) :
      SelfDelimiting text

/-- The labels of fields are plain. -/
def PlainLabels (fields : List (String × Outline)) : Prop :=
  ∀ field ∈ fields, ∀ character ∈ field.1.toList, isPlainCharacter character = true

/-- The outlines whose atoms end where they say, and whose names are plain. -/
inductive Listable : Outline → Prop
  | atom {text : String} (delimiting : SelfDelimiting text.toList) : Listable (.atom text)
  | sequence {items : List Outline} (each : ∀ item ∈ items, Listable item) :
      Listable (.sequence items)
  | node {kindName : String} {fields : List (String × Outline)}
      (plain : ∀ character ∈ kindName.toList, isPlainCharacter character = true)
      (labels : PlainLabels fields) (each : ∀ field ∈ fields, Listable field.2) :
      Listable (.node kindName fields)

/-- The forms of texts that pieces have. -/
inductive PieceForm where
  | plain
  | quoted
  | sequence
  | node
deriving DecidableEq

/-- The form of a text, by the first character that is not plain. -/
def formOf (text : List Char) : PieceForm :=
  let mark := (text.find? (!isPlainCharacter ·)).getD ','
  if mark == '(' then .node
  else if mark == '[' then .sequence
  else if Lexeme.isQuote mark then .quoted
  else .plain

theorem formOf_append {plainText rest : List Char}
    (plain : ∀ character ∈ plainText, isPlainCharacter character = true) :
    formOf (plainText ++ rest) = formOf rest := by
  have none : plainText.find? (!isPlainCharacter ·) = none := by
    rw [List.find?_eq_none]
    intro character member
    simp [plain character member]
  rw [formOf, formOf, List.find?_append, none, Option.none_or]

private theorem formOf_delimited {rest : List Char} (delimited : Delimited rest) :
    formOf rest = .plain := by
  cases rest with
  | nil => rfl
  | cons mark others =>
      have isMark : mark = ',' ∨ mark = ')' ∨ mark = ']' := by simpa using delimited mark rfl
      rcases isMark with rfl | rfl | rfl <;> rfl

private theorem formOf_sequence (level : Nat) (items : List Outline) (rest : List Char) :
    formOf (itemText level (.sequence items) ++ rest) = .sequence := by
  cases items with
  | nil =>
      rw [itemText_sequence_nil]
      rfl
  | cons first others =>
      rw [itemText_sequence_cons]
      rfl

private theorem formOf_node {kindName : String}
    (plain : ∀ character ∈ kindName.toList, isPlainCharacter character = true) (level : Nat)
    (fields : List (String × Outline)) (rest : List Char) :
    formOf (itemText level (.node kindName fields) ++ rest) = .node := by
  rw [itemText_node, List.append_assoc, formOf_append plain]
  rfl

section Quoted

variable {text letters body : List Char} {quote : Char}

theorem Quoted.append_eq (quoted : Quoted text letters quote body) (rest : List Char) :
    text ++ rest = letters ++ quote :: (body ++ quote :: rest) := by
  rw [quoted.shape]
  simp

theorem Quoted.quote_cases (quoted : Quoted text letters quote body) :
    quote = '\'' ∨ quote = '"' := by
  simpa [Lexeme.isQuote, or_comm] using quoted.isQuote

theorem Quoted.formOf_append (quoted : Quoted text letters quote body) (rest : List Char) :
    formOf (text ++ rest) = .quoted := by
  rw [quoted.append_eq, Outline.formOf_append quoted.plain]
  rcases quoted.quote_cases with rfl | rfl <;> rfl

/-- A quoted text can be told from what follows it. -/
theorem Quoted.append_inj {other lettersToo bodyToo : List Char} {quoteToo : Char}
    (quoted : Quoted text letters quote body)
    (quotedToo : Quoted other lettersToo quoteToo bodyToo) {rest more : List Char}
    (texts : text ++ rest = other ++ more) : text = other ∧ rest = more := by
  rw [quoted.append_eq, quotedToo.append_eq] at texts
  have stops {quote : Char} (cases : quote = '\'' ∨ quote = '"') (others : List Char) :
      ∀ character ∈ (quote :: others).head?, isPlainCharacter character = false := by
    intro character member
    cases member
    rcases cases with rfl | rfl <;> decide
  obtain ⟨sameLetters, quotedRests⟩ := plain_append_inj quoted.plain quotedToo.plain
    (stops quoted.quote_cases _) (stops quotedToo.quote_cases _) texts
  obtain ⟨sameQuotes, bodies⟩ := List.cons.inj quotedRests
  subst sameLetters sameQuotes
  have sameBodies : body = bodyToo := by
    rw [← quoted.closed rest, bodies, quotedToo.closed more]
  subst sameBodies
  rw [quoted.shape, quotedToo.shape]
  exact ⟨rfl, (List.cons.inj (List.append_cancel_left bodies)).2⟩

end Quoted

namespace SelfDelimiting

theorem formOf_cases {text rest : List Char} (delimiting : SelfDelimiting text)
    (delimited : Delimited rest) :
    formOf (text ++ rest) = .plain ∨ formOf (text ++ rest) = .quoted := by
  cases delimiting with
  | plain plain => exact .inl (by rw [formOf_append plain, formOf_delimited delimited])
  | quoted quoted => exact .inr (quoted.formOf_append rest)

theorem append_inj {text other rest more : List Char} (delimiting : SelfDelimiting text)
    (delimitingToo : SelfDelimiting other) (delimited : Delimited rest)
    (delimitedToo : Delimited more) (texts : text ++ rest = other ++ more) :
    text = other ∧ rest = more := by
  have forms := congrArg formOf texts
  cases delimiting with
  | plain plain =>
      rw [formOf_append plain, formOf_delimited delimited] at forms
      cases delimitingToo with
      | plain plainToo =>
          exact plain_append_inj plain plainToo delimited.stops delimitedToo.stops texts
      | quoted quoted =>
          rw [quoted.formOf_append] at forms
          cases forms
  | quoted quoted =>
      rw [quoted.formOf_append] at forms
      cases delimitingToo with
      | plain plainToo =>
          rw [formOf_append plainToo, formOf_delimited delimitedToo] at forms
          cases forms
      | quoted quotedToo => exact quoted.append_inj quotedToo texts

end SelfDelimiting

/-! ### Reading them -/

section Fields

variable {level : Nat}

/-- A field begins with its label, or with the sign after it. -/
private theorem head?_fieldText {field : String × Outline}
    (plain : ∀ character ∈ field.1.toList, isPlainCharacter character = true)
    (rest : List Char) {mark : Char} (notPlain : isPlainCharacter mark = false)
    (notSign : mark ≠ '=') : (fieldText level field ++ rest).head? ≠ some mark := by
  intro begins
  rw [fieldText, List.append_assoc] at begins
  cases label : field.1.toList with
  | nil =>
      rw [label] at begins
      cases begins
      exact notSign rfl
  | cons character others =>
      rw [label] at begins plain
      cases begins
      rw [plain mark List.mem_cons_self] at notPlain
      cases notPlain

private theorem fieldText_readAlike {first second : String × Outline}
    (plain : ∀ character ∈ first.1.toList, isPlainCharacter character = true)
    (plainToo : ∀ character ∈ second.1.toList, isPlainCharacter character = true)
    (values : ReadAlike (itemText level) shown first.2 second.2) :
    ReadAlike (fieldText level) shownField first second := by
  intro rest more delimited delimitedToo texts
  have stops (others : List Char) :
      ∀ character ∈ ('=' :: others).head?, isPlainCharacter character = false := by
    intro character member
    cases member
    decide
  rw [fieldText, fieldText, List.append_assoc, List.append_assoc] at texts
  obtain ⟨labels, signs⟩ := plain_append_inj plain plainToo (stops _) (stops _) texts
  obtain ⟨shownValues, rests⟩ := values rest more delimited delimitedToo (List.cons.inj signs).2
  rw [shownField, shownField, String.toList_inj.mp labels, shownValues]
  exact ⟨rfl, rests⟩

private theorem fields_inj {fields others : List (String × Outline)} (plain : PlainLabels fields)
    (plainToo : PlainLabels others) {spacing rest more : List Char}
    (each : ∀ field ∈ fields, ∀ other ∈ others, ReadAlike (itemText level) shown field.2 other.2)
    (texts : List.intercalate (',' :: spacing) (fields.map (fieldText level)) ++ ')' :: rest
      = List.intercalate (',' :: spacing) (others.map (fieldText level)) ++ ')' :: more) :
    fields.map shownField = others.map shownField ∧ rest = more := by
  have notClosing {field : String × Outline} {fields : List (String × Outline)}
      (plain : PlainLabels (field :: fields)) (rest more : List Char) :
      ')' :: rest ≠ List.intercalate (',' :: spacing) ((field :: fields).map (fieldText level))
        ++ ')' :: more := by
    intro texts
    rw [intercalate_append] at texts
    have closing : isPlainCharacter ')' = false := by decide
    apply head?_fieldText (plain field List.mem_cons_self) _ closing (by decide)
    rw [← texts]
    rfl
  cases fields with
  | nil =>
      cases others with
      | nil => exact ⟨rfl, (List.cons.inj texts).2⟩
      | cons other others => exact absurd texts (notClosing plainToo rest more)
  | cons field fields =>
      cases others with
      | nil => exact absurd texts.symm (notClosing plain more rest)
      | cons other others =>
          apply intercalate_inj (by decide) _ texts
          intro field member other memberToo
          exact fieldText_readAlike (plain field member) (plainToo other memberToo)
            (each field member other memberToo)

/-- Fields on the line of their node begin there. -/
private theorem compact_ne_stacked {fields others : List (String × Outline)}
    (plain : PlainLabels fields) (spacing rest more : List Char) :
    List.intercalate (',' :: spacing) (fields.map (fieldText level)) ++ ')' :: rest
      ≠ stackedText level (others.map (fieldText level)) ++ more := by
  intro texts
  have begins : (List.intercalate (',' :: spacing) (fields.map (fieldText level))
      ++ ')' :: rest).head? = some '\n' := by
    rw [texts, stackedText, lineBreak, String.toList_ofList]
    rfl
  cases fields with
  | nil =>
      have same : ')' = '\n' := Option.some.inj begins
      exact absurd same (by decide)
  | cons field fields =>
      rw [intercalate_append] at begins
      exact head?_fieldText (plain field List.mem_cons_self) _ (by decide) (by decide) begins

/-- The fields of a node can be read off the text between its parentheses. -/
private theorem innerText_inj {fields others : List (String × Outline)} (plain : PlainLabels fields)
    (plainToo : PlainLabels others)
    (each : ∀ field ∈ fields, ∀ other ∈ others, ReadAlike (itemText level) shown field.2 other.2)
    {rest more : List Char}
    (texts : innerText level fields ++ ')' :: rest = innerText level others ++ ')' :: more) :
    shownPairs fields = shownPairs others ∧ rest = more := by
  have subset (fields : List (String × Outline)) : ∀ field ∈ shownFields fields, field ∈ fields :=
    fun field member => (List.mem_filter.mp member).1
  have shownPlain : PlainLabels (shownFields fields) :=
    fun field member => plain field (subset fields field member)
  have shownPlainToo : PlainLabels (shownFields others) :=
    fun field member => plainToo field (subset others field member)
  have shownEach : ∀ field ∈ shownFields fields, ∀ other ∈ shownFields others,
      ReadAlike (itemText level) shown field.2 other.2 := fun field member other memberToo =>
    each field (subset fields field member) other (subset others other memberToo)
  rw [shownPairs_eq_map, shownPairs_eq_map]
  unfold innerText at texts
  split at texts
  · split at texts
    · exact fields_inj shownPlain shownPlainToo shownEach texts
    · exact absurd texts (compact_ne_stacked shownPlain _ _ _)
  · split at texts
    · exact absurd texts.symm (compact_ne_stacked shownPlainToo _ _ _)
    · rw [stackedText, stackedText, List.append_assoc, List.append_assoc] at texts
      exact fields_inj shownPlain shownPlainToo shownEach (List.append_cancel_left texts)

end Fields

section Pieces

variable {level : Nat}

private theorem atom_readAlike {text other : String} (delimiting : SelfDelimiting text.toList)
    (delimitingToo : SelfDelimiting other.toList) :
    ReadAlike (itemText level) shown (.atom text) (.atom other) := by
  intro rest more delimited delimitedToo texts
  rw [itemText, itemText, render, render] at texts
  obtain ⟨sameTexts, rests⟩ := delimiting.append_inj delimitingToo delimited delimitedToo texts
  rw [String.toList_inj.mp sameTexts]
  exact ⟨rfl, rests⟩

/-- Sequences are read item by item. -/
private theorem sequence_readAlike {items others : List Outline}
    (each : ∀ item ∈ items, ∀ other ∈ others, ReadAlike (itemText (level + 1)) shown item other) :
    ReadAlike (itemText level) shown (.sequence items) (.sequence others) := by
  have empty_ne (first : Outline) (items : List Outline) (rest more : List Char) :
      itemText level (.sequence []) ++ rest
        ≠ itemText level (.sequence (first :: items)) ++ more := by
    intro texts
    rw [itemText_sequence_nil, itemText_sequence_cons, stackedText, lineBreak,
      String.toList_ofList] at texts
    have same : ']' = '\n' := (List.cons.inj (List.cons.inj texts).2).1
    exact absurd same (by decide)
  intro rest more _ _ texts
  cases items with
  | nil =>
      cases others with
      | nil => exact ⟨rfl, List.append_cancel_left texts⟩
      | cons other others => exact absurd texts (empty_ne other others rest more)
  | cons item items =>
      cases others with
      | nil => exact absurd texts.symm (empty_ne item items more rest)
      | cons other others =>
          rw [itemText_sequence_cons, itemText_sequence_cons, List.cons_append,
            List.cons_append] at texts
          have inner := (List.cons.inj texts).2
          rw [stackedText, stackedText, List.append_assoc, List.append_assoc, List.append_assoc,
            List.append_assoc] at inner
          obtain ⟨views, rests⟩ :=
            intercalate_inj (by decide) each (List.append_cancel_left inner)
          rw [shown, shown, shownItems_eq_map, shownItems_eq_map, views]
          exact ⟨rfl, rests⟩

/-- Nodes are read by their names and then field by field. -/
private theorem node_readAlike {kindName other : String} {fields others : List (String × Outline)}
    (plain : ∀ character ∈ kindName.toList, isPlainCharacter character = true)
    (plainToo : ∀ character ∈ other.toList, isPlainCharacter character = true)
    (labels : PlainLabels fields) (labelsToo : PlainLabels others)
    (each : ∀ field ∈ fields, ∀ other ∈ others,
      ReadAlike (itemText (level + 1)) shown field.2 other.2) :
    ReadAlike (itemText level) shown (.node kindName fields) (.node other others) := by
  intro rest more _ _ texts
  have stops (others : List Char) :
      ∀ character ∈ ('(' :: others).head?, isPlainCharacter character = false := by
    intro character member
    cases member
    decide
  rw [itemText_node, itemText_node, List.append_assoc, List.append_assoc, List.cons_append,
    List.cons_append] at texts
  obtain ⟨names, parentheses⟩ := plain_append_inj plain plainToo (stops _) (stops _) texts
  have inner := (List.cons.inj parentheses).2
  rw [List.append_assoc, List.append_assoc] at inner
  obtain ⟨pairs, rests⟩ := innerText_inj labels labelsToo each inner
  rw [shown, shown, String.toList_inj.mp names, pairs]
  exact ⟨rfl, rests⟩

/-- Pieces of different forms have different texts. -/
theorem readAlike_of_forms {first second : Outline}
    (differ : ∀ rest more, Delimited rest → Delimited more →
      formOf (itemText level first ++ rest) ≠ formOf (itemText level second ++ more)) :
    ReadAlike (itemText level) shown first second := by
  intro rest more delimited delimitedToo texts
  exact absurd (congrArg formOf texts) (differ rest more delimited delimitedToo)

private theorem atom_readAlike_sequence {text : String} (delimiting : SelfDelimiting text.toList)
    (items : List Outline) :
    ReadAlike (itemText level) shown (.atom text) (.sequence items) := by
  apply readAlike_of_forms
  intro rest more delimited _
  rw [formOf_sequence, itemText, render]
  rcases delimiting.formOf_cases delimited with form | form <;> simp [form]

private theorem atom_readAlike_node {text kindName : String}
    (delimiting : SelfDelimiting text.toList)
    (plain : ∀ character ∈ kindName.toList, isPlainCharacter character = true)
    (fields : List (String × Outline)) :
    ReadAlike (itemText level) shown (.atom text) (.node kindName fields) := by
  apply readAlike_of_forms
  intro rest more delimited _
  rw [formOf_node plain, itemText, render]
  rcases delimiting.formOf_cases delimited with form | form <;> simp [form]

private theorem sequence_readAlike_node {kindName : String}
    (plain : ∀ character ∈ kindName.toList, isPlainCharacter character = true)
    (items : List Outline) (fields : List (String × Outline)) :
    ReadAlike (itemText level) shown (.sequence items) (.node kindName fields) := by
  apply readAlike_of_forms
  intro rest more _ _
  rw [formOf_sequence, formOf_node plain]
  decide

end Pieces

/-- Outlines with the same text at the same level show the same. -/
theorem Listable.readAlike {first second : Outline} (listable : Listable first)
    (listableToo : Listable second) (level : Nat) :
    ReadAlike (itemText level) shown first second := by
  induction listable generalizing second level with
  | atom delimiting =>
      cases listableToo with
      | atom delimitingToo => exact atom_readAlike delimiting delimitingToo
      | sequence each => exact atom_readAlike_sequence delimiting _
      | node plain labels each => exact atom_readAlike_node delimiting plain _
  | sequence each inductionHypothesis =>
      cases listableToo with
      | atom delimiting => exact (atom_readAlike_sequence delimiting _).symm
      | sequence eachToo =>
          apply sequence_readAlike
          intro item member other memberToo
          exact inductionHypothesis item member (eachToo other memberToo) (level + 1)
      | node plain labels each => exact sequence_readAlike_node plain _ _
  | node plain labels each inductionHypothesis =>
      cases listableToo with
      | atom delimiting => exact (atom_readAlike_node delimiting plain _).symm
      | sequence eachToo => exact (sequence_readAlike_node plain _ _).symm
      | node plainToo labelsToo eachToo =>
          apply node_readAlike plain plainToo labels labelsToo
          intro field member other memberToo
          exact inductionHypothesis field member (eachToo other memberToo) (level + 1)

/-- The text of an outline determines what it shows. -/
theorem shown_eq_of_render {first second : Outline} (listable : Listable first)
    (listableToo : Listable second) {level : Nat}
    (texts : first.render level = second.render level) : first.shown = second.shown := by
  have characters : itemText level first ++ [] = itemText level second ++ [] := by
    rw [itemText, itemText, texts]
  exact (listable.readAlike listableToo level [] [] .nil .nil characters).1

end Outline
end Transpiler
