import Transpiler.Proofs.Token.Alike

/-!
Contract: columns that fit, and columns that do not.

Owns: the exact width of a margin and its bound by the number of bytes, that counted columns are
exact until a part of the margin is too wide, and that a line with such a margin ends the program.
-/

namespace Transpiler

/-! ### Exact widths -/

/-- The column after one character as a number of any size. -/
def exactColumn (column : Nat) (character : Char) : Nat :=
  if character == ' ' then column + 1
  else if character == '\t' then (column / 8 + 1) * 8
  else if character == '\x0c' then 0
  else column

/-- The width of a margin as a number of any size. -/
def exactWidth (margin : List Char) : Nat :=
  margin.foldl exactColumn 0

private theorem foldl_exactColumn_le (column : Nat) (text : List Char) :
    text.foldl exactColumn column ≤ column + 8 * Text.byteLength text := by
  induction text generalizing column with
  | nil => simp
  | cons character rest inductionHypothesis =>
      have step : exactColumn column character ≤ column + 8 := by
        unfold exactColumn
        grind
      have size := character.utf8Size_pos
      have others := inductionHypothesis (exactColumn column character)
      simp only [List.foldl_cons, Text.byteLength_cons]
      omega

theorem exactWidth_le (text : List Char) : exactWidth text ≤ 8 * Text.byteLength text := by
  simpa [exactWidth] using foldl_exactColumn_le 0 text

private theorem marginStep_cases {column : Nat} (fits : column ≤ counterMax) (character : Char) :
    (marginStep column character = .ok (exactColumn column character) ∧
        exactColumn column character ≤ counterMax) ∨
      ∃ operation, marginStep column character = .error operation ∧
        counterMax < exactColumn column character := by
  have check (operation : Overflow) (result : Nat) :
      (operation.check result = .ok result ∧ result ≤ counterMax) ∨
        ∃ failed, operation.check result = .error failed ∧ counterMax < result := by
    rw [Overflow.check]
    split
    next small => exact .inl ⟨rfl, small⟩
    next large => exact .inr ⟨operation, rfl, Nat.lt_of_not_le large⟩
  unfold marginStep exactColumn
  split_ifs
  · exact check .addition _
  · exact check .multiplication _
  · exact .inl ⟨rfl, Nat.zero_le _⟩
  · exact .inl ⟨rfl, fits⟩

/-- Columns are counted exactly, or a part of the text is too wide. -/
private theorem countColumns_cases (column : Nat) (text : List Char) (fits : column ≤ counterMax) :
    (countColumns column text = .ok (text.foldl exactColumn column) ∧
        ∀ part, part <+: text → part.foldl exactColumn column ≤ counterMax) ∨
      ∃ operation, countColumns column text = .error operation ∧
        ∃ part, part <+: text ∧ counterMax < part.foldl exactColumn column := by
  induction text generalizing column with
  | nil => exact .inl ⟨rfl, by simpa using fits⟩
  | cons character rest inductionHypothesis =>
      rw [countColumns, List.foldlM_cons]
      rcases marginStep_cases fits character with
        ⟨stepped, nextFits⟩ | ⟨operation, stepped, tooWide⟩
      · rw [stepped]
        rcases inductionHypothesis _ nextFits with
          ⟨counted, all⟩ | ⟨operation, counted, part, isPrefix, wide⟩
        · refine .inl ⟨counted, fun part isPrefix => ?_⟩
          rcases List.prefix_cons_iff.mp isPrefix with rfl | ⟨more, rfl, begins⟩
          · exact fits
          · exact all more begins
        · exact .inr ⟨operation, counted, character :: part,
            (List.prefix_cons_inj character).mpr isPrefix, wide⟩
      · rw [stepped]
        exact .inr ⟨operation, rfl, [character], by simp, tooWide⟩

/-- The width of a margin is its exact width, or a part of the margin is too wide. -/
private theorem marginWidth_cases (text : List Char) :
    (marginWidth text = .ok (exactWidth text) ∧
        ∀ part, part <+: text → exactWidth part ≤ counterMax) ∨
      ∃ operation, marginWidth text = .error operation ∧
        ∃ part, part <+: text ∧ counterMax < exactWidth part :=
  countColumns_cases 0 text (Nat.zero_le _)

theorem marginWidth_eq_ok_iff {text : List Char} {width : Nat} :
    marginWidth text = .ok width ↔
      exactWidth text = width ∧ ∀ part, part <+: text → exactWidth part ≤ counterMax := by
  rcases marginWidth_cases text with ⟨counted, all⟩ | ⟨operation, counted, part, isPrefix, wide⟩
  · simpa [counted] using fun _ => all
  · rw [counted]
    refine ⟨by simp, fun exact => ?_⟩
    exact absurd (exact.2 part isPrefix) (Nat.not_le.mpr wide)

theorem exists_marginWidth_eq_error_iff {text : List Char} :
    (∃ operation, marginWidth text = .error operation) ↔
      ∃ part, part <+: text ∧ counterMax < exactWidth part := by
  rcases marginWidth_cases text with ⟨counted, all⟩ | ⟨operation, counted, tooWide⟩
  · rw [counted]
    refine ⟨by simp, ?_⟩
    rintro ⟨part, isPrefix, wide⟩
    exact absurd (all part isPrefix) (Nat.not_le.mpr wide)
  · exact ⟨fun _ => tooWide, fun _ => ⟨operation, counted⟩⟩

/-! ### Tabs -/

private theorem exactColumn_tab (column : Nat) :
    exactColumn (8 * column) '\t' = 8 * (column + 1) := by
  simp [exactColumn, Nat.mul_comm]

theorem exactWidth_tabs (count : Nat) : exactWidth (List.replicate count '\t') = 8 * count := by
  induction count with
  | zero => rfl
  | succ count inductionHypothesis =>
      rw [List.replicate_succ', exactWidth, List.foldl_append, ← exactWidth, inductionHypothesis]
      exact exactColumn_tab count

/-- Tabs that do not fit are too many for a multiplication. -/
private theorem countColumns_tabs {column count : Nat} (wide : counterMax < 8 * (column + count))
    (fits : 8 * column ≤ counterMax) :
    countColumns (8 * column) (List.replicate count '\t') = .error .multiplication := by
  induction count generalizing column with
  | zero => omega
  | succ count inductionHypothesis =>
      have step : marginStep (8 * column) '\t' = Overflow.multiplication.check (8 * (column + 1)) :=
        congrArg Overflow.multiplication.check (exactColumn_tab column)
      rw [List.replicate_succ, countColumns, List.foldlM_cons, step, Overflow.check]
      split
      next nextFits => exact inductionHypothesis (by omega) nextFits
      next => rfl

theorem marginWidth_tabs {count : Nat} (wide : counterMax < 8 * count) (rest : List Char) :
    marginWidth (List.replicate count '\t' ++ rest) = .error .multiplication := by
  have counted := @countColumns_tabs 0 count (by omega) (Nat.zero_le _)
  rw [marginWidth, countColumns_append, counted]
  rfl

/-! ### Lines with a wide margin -/

namespace Layout

open Lexeme

section

variable {front blanks rest : List Char} {first : Char} {emitted : List Token} {here : State}
  (all : ∀ character ∈ blanks, isInlineBlank character = true) (nonempty : blanks ≠ [])
  (notBlank : isInlineBlank first = false)

include all nonempty notBlank in
/-- The lexemes of a line are its margin, its first token and what follows. -/
theorem exists_split_line (lineStart : front = [] ∨ ∃ lines, front = lines ++ ['\n']) :
    ∃ after, split (front ++ (blanks ++ first :: rest)) =
      split front ++ [⟨.blank, blanks⟩] ++ scan first rest :: after := by
  have taken : (blanks ++ first :: rest).takeWhile isInlineBlank = blanks := by
    rw [List.takeWhile_append_of_pos all, List.takeWhile_cons_of_neg (by simp [notBlank]),
      List.append_nil]
  have left : (blanks ++ first :: rest).dropWhile isInlineBlank = first :: rest := by
    rw [List.dropWhile_append_of_pos all, List.dropWhile_cons_of_neg (by simp [notBlank])]
  have line : ∃ after, split (blanks ++ first :: rest) =
      ⟨.blank, blanks⟩ :: scan first rest :: after := by
    rw [split_takeWhile_blank (by rwa [taken]), taken, left]
    exact ⟨_, rfl⟩
  obtain ⟨after, cut⟩ := line
  refine ⟨after, ?_⟩
  rcases lineStart with rfl | ⟨lines, rfl⟩
  · exact cut
  · rw [List.append_assoc, List.singleton_append, split_append_line, cut, List.append_assoc]
    rfl

theorem Runs.extend_margin (runs : Runs .initial 0 (split front) emitted here)
    (begins : here.margin = some (.empty (Text.byteLength front))) :
    Runs .initial 0 (split front ++ [⟨.blank, blanks⟩]) emitted
      { here with margin := some ⟨Text.byteLength front, marginWidth blanks⟩ } := by
  have steps := @Steps.margin here (0 + extent (split front)) ⟨.blank, blanks⟩ (.inl rfl)
  rw [begins] at steps
  rw [← List.append_nil emitted]
  exact runs.append (.more (step_of_steps steps) .none)

include all nonempty notBlank in
/-- A line whose margin is too wide ends the program at its first token. -/
theorem tokenize_of_wide_line {source : String} {operation : Overflow}
    (shape : source.toList = front ++ (blanks ++ first :: rest))
    (small : source.utf8ByteSize ≤ Span.offsetLimit)
    (lineStart : front = [] ∨ ∃ lines, front = lines ++ ['\n'])
    (runs : Runs .initial 0 (split front) emitted here)
    (begins : here.margin = some (.empty (Text.byteLength front)))
    (isVisible : (scan first rest).kind.isTrivia = false)
    (notStray : (scan first rest).kind ≠ .stray)
    (wide : marginWidth blanks = .error operation) :
    tokenize source = .error (.overflow operation) := by
  obtain ⟨after, cut⟩ := exists_split_line all nonempty notBlank lineStart
  rw [tokenize_of_small small, shape]
  exact arrange_eq_error_iff.mpr ⟨_, _, after, emitted, _, cut, runs.extend_margin begins,
    .overflow isVisible notStray rfl wide⟩

include notBlank in
/-- So does a line that begins with too many tabs. -/
theorem tokenize_of_tabs {source : String} {count : Nat} (tooMany : counterMax < 8 * count)
    (shape : source.toList = front ++ (List.replicate count '\t' ++ first :: rest))
    (small : source.utf8ByteSize ≤ Span.offsetLimit)
    (lineStart : front = [] ∨ ∃ lines, front = lines ++ ['\n'])
    (runs : Runs .initial 0 (split front) emitted here)
    (begins : here.margin = some (.empty (Text.byteLength front)))
    (isVisible : (scan first rest).kind.isTrivia = false)
    (notStray : (scan first rest).kind ≠ .stray) :
    tokenize source = .error (.overflow .multiplication) := by
  have all : ∀ character ∈ List.replicate count '\t', isInlineBlank character = true := by
    intro character member
    rw [List.eq_of_mem_replicate member]
    rfl
  have nonempty : List.replicate count '\t' ≠ [] := by
    rw [Ne, List.replicate_eq_nil_iff]
    rintro rfl
    contradiction
  have wide : marginWidth (List.replicate count '\t') = .error .multiplication := by
    simpa using marginWidth_tabs tooMany []
  exact tokenize_of_wide_line all nonempty notBlank shape small lineStart runs begins isVisible
    notStray wide

end

end Layout
end Transpiler
