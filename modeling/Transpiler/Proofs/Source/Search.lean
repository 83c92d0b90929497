import Mathlib.Data.List.GetD
import Transpiler.Source.LineTable

/-!
Contract: the line of an offset is found by halving.

Owns: what the search in ascending entries finds, on a hit and on a miss (`LineTable.Finds`), and
that the line of an offset is the number of lines that start up to it.

Does not own: where the lines of a text start.
-/

namespace Transpiler.LineTable

section

variable {entries : List Nat} {key : Nat}

/-! ### Ascending entries -/

private theorem lt_of_mem_drop (ascending : entries.Pairwise (· < ·)) {index : Nat}
    (inside : index < entries.length) :
    ∀ entry ∈ entries.drop (index + 1), entries[index] < entry := by
  have tail := ascending.drop (i := index)
  rw [List.drop_eq_getElem_cons inside] at tail
  exact (List.pairwise_cons.mp tail).1

private theorem le_of_mem_drop (ascending : entries.Pairwise (· < ·)) {index : Nat}
    (inside : index < entries.length) : ∀ entry ∈ entries.drop index, entries[index] ≤ entry := by
  rw [List.drop_eq_getElem_cons inside]
  exact List.forall_mem_cons.mpr
    ⟨Nat.le_refl _, fun entry member => Nat.le_of_lt (lt_of_mem_drop ascending inside entry member)⟩

private theorem le_of_mem_take (ascending : entries.Pairwise (· < ·)) {index : Nat}
    (inside : index < entries.length) :
    ∀ entry ∈ entries.take (index + 1), entry ≤ entries[index] := by
  have front := ascending.take (i := index + 1)
  rw [List.take_succ_eq_append_getElem inside] at front ⊢
  intro entry member
  rcases List.mem_append.mp member with before | isLast
  · exact Nat.le_of_lt ((List.pairwise_append.mp front).2.2 entry before _ List.mem_cons_self)
  · exact Nat.le_of_eq (List.mem_singleton.mp isLast)

/-! ### Halving -/

/-- What is known of the window that is halved: every entry after it is above the key, and its
first entry is not, unless the window begins with the first entry of all. -/
structure Window (entries : List Nat) (key base size : Nat) : Prop where
  nonempty : 0 < size
  inside : base + size ≤ entries.length
  low : base = 0 ∨ entries.getD base 0 ≤ key
  high : ∀ entry ∈ entries.drop (base + size), key < entry

/-- Each half that is kept is such a window again. -/
theorem Window.half {base size : Nat} (ascending : entries.Pairwise (· < ·))
    (window : Window entries key base size) (large : 1 < size) :
    Window entries key
      (if key < entries.getD (base + size / 2) 0 then base else base + size / 2)
      (size - size / 2) := by
  have inside := window.inside
  have upper : base + size / 2 < entries.length := by omega
  rw [List.getD_eq_getElem _ _ upper]
  split
  case isTrue above =>
    refine ⟨by omega, by omega, window.low, ?_⟩
    intro entry member
    have later : entry ∈ entries.drop (base + size / 2) := by
      have further : base + (size - size / 2) = base + size / 2 + (size - size / 2 - size / 2) := by
        omega
      rw [further, ← List.drop_drop] at member
      exact List.mem_of_mem_drop member
    exact Nat.lt_of_lt_of_le above (le_of_mem_drop ascending upper entry later)
  case isFalse notAbove =>
    have sameEnd : base + size / 2 + (size - size / 2) = base + size := by omega
    refine ⟨by omega, by omega, .inr ?_, by rw [sameEnd]; exact window.high⟩
    rw [List.getD_eq_getElem _ _ upper]
    exact Nat.le_of_not_lt notAbove

/-- In the end a single entry is left. -/
theorem Window.narrow {base size : Nat} (ascending : entries.Pairwise (· < ·))
    (window : Window entries key base size) :
    Window entries key (narrow entries key base size) 1 := by
  fun_induction LineTable.narrow entries key base size with
  | case1 base size small =>
      obtain rfl : size = 1 := Nat.le_antisymm small window.nonempty
      exact window
  | case2 base size large half upper inductionHypothesis =>
      exact inductionHypothesis (window.half ascending (Nat.lt_of_not_le large))

/-! ### Searching -/

/-- What a search is to find. On a miss the key belongs between the entries before the index and
those from it on. -/
inductive Finds (entries : List Nat) (key : Nat) : SearchResult → Prop where
  | found {index : Nat} (stands : entries[index]? = some key) : Finds entries key (.found index)
  | missing {index : Nat} (inside : index ≤ entries.length)
      (below : ∀ entry ∈ entries.take index, entry < key)
      (above : ∀ entry ∈ entries.drop index, key < entry) : Finds entries key (.missing index)

private theorem finds_search (ascending : entries.Pairwise (· < ·)) :
    Finds entries key (search entries key) := by
  rcases Nat.eq_zero_or_pos entries.length with none | some
  · obtain rfl := List.eq_nil_of_length_eq_zero none
    exact .missing (Nat.le_refl _) (by simp) (by simp)
  have whole : Window entries key 0 entries.length := ⟨some, by simp, .inl rfl, by simp⟩
  obtain ⟨_, inside, low, high⟩ := whole.narrow ascending
  unfold search
  generalize LineTable.narrow entries key 0 entries.length = base at inside low high
  have within : base < entries.length := inside
  dsimp only
  rw [List.getElem?_eq_getElem within]
  dsimp only
  split
  case isTrue hit => exact .found (by rw [List.getElem?_eq_getElem within, hit])
  split
  case isTrue less =>
    refine .missing inside ?_ high
    intro entry member
    exact Nat.lt_of_le_of_lt (le_of_mem_take ascending within entry member) less
  case isFalse notEqual notLess =>
    -- only the first entry of all may be above the key
    rw [List.getD_eq_getElem _ _ within] at low
    obtain rfl : base = 0 := low.resolve_right (by omega)
    refine .missing (Nat.zero_le _) (by simp) ?_
    intro entry member
    exact Nat.lt_of_lt_of_le (by omega) (le_of_mem_drop ascending within entry member)

/-! ### Counting -/

private theorem countP_le_of_cut {count : Nat} (inside : count ≤ entries.length)
    (below : ∀ entry ∈ entries.take count, entry ≤ key)
    (above : ∀ entry ∈ entries.drop count, key < entry) : entries.countP (· ≤ key) = count := by
  have earlier : (entries.take count).countP (· ≤ key) = (entries.take count).length :=
    List.countP_eq_length.mpr fun entry member => decide_eq_true (below entry member)
  have later : (entries.drop count).countP (· ≤ key) = 0 :=
    List.countP_eq_zero.mpr fun entry member isBelow =>
      absurd (of_decide_eq_true isBelow) (Nat.not_le_of_lt (above entry member))
  calc entries.countP (· ≤ key)
    _ = (entries.take count).countP (· ≤ key) + (entries.drop count).countP (· ≤ key) := by
        rw [← List.countP_append, List.take_append_drop]
    _ = count := by rw [earlier, later, List.length_take, Nat.min_eq_left inside, Nat.add_zero]

end

/-- The line of an offset is the number of lines that start up to it, be it found or not, as far
as that number fits. -/
theorem lineOf_eq_countP {table : LineTable} {offset first : Nat} {rest : List Nat}
    (ascending : table.starts.Pairwise (· < ·)) (shape : table.starts = first :: rest)
    (begins : first ≤ offset) :
    table.lineOf offset = min (table.starts.countP (· ≤ offset)) counterMax := by
  have finds : Finds table.starts offset (search table.starts offset) := finds_search ascending
  unfold lineOf
  generalize search table.starts offset = result at finds
  cases finds with
  | @found index stands =>
      obtain ⟨inside, isKey⟩ := List.getElem?_eq_some_iff.mp stands
      have count : table.starts.countP (· ≤ offset) = index + 1 := by
        refine countP_le_of_cut inside ?_ ?_
        · intro entry member
          exact isKey ▸ le_of_mem_take ascending inside entry member
        · intro entry member
          exact isKey ▸ lt_of_mem_drop ascending inside entry member
      rw [count]
      rfl
  | @missing index inside below above =>
      have positive : 0 < index := by
        apply Nat.pos_of_ne_zero
        rintro rfl
        rw [shape] at above
        exact absurd begins (Nat.not_le_of_lt (above first List.mem_cons_self))
      have count : table.starts.countP (· ≤ offset) = index - 1 + 1 := by
        rw [Nat.sub_add_cancel positive]
        exact countP_le_of_cut inside (fun entry member => Nat.le_of_lt (below entry member)) above
      rw [count]
      rfl

/-- The first entry is found if it is zero and the others are not, in whatever order. -/
theorem search_zero {rest : List Nat} (positive : ∀ entry ∈ rest, 0 < entry) :
    search (0 :: rest) 0 = .found 0 := by
  have stays (size : Nat) (within : size ≤ (0 :: rest).length) :
      narrow (0 :: rest) 0 0 size = 0 := by
    induction size using Nat.strongRecOn with
    | ind size inductionHypothesis =>
        rw [narrow]
        split
        · rfl
        next large =>
          obtain ⟨half, isHalf⟩ : ∃ half, size / 2 = half + 1 := ⟨size / 2 - 1, by omega⟩
          have inside : half < rest.length := by
            rw [List.length_cons] at within
            omega
          have above : 0 < (0 :: rest).getD (0 + size / 2) 0 := by
            rw [Nat.zero_add, isHalf, List.getD_cons_succ, List.getD_eq_getElem _ _ inside]
            exact positive _ (List.getElem_mem inside)
          simp only [if_pos above]
          exact inductionHypothesis _ (by omega) (by omega)
  rw [search, stays _ (Nat.le_refl _)]
  rfl

end Transpiler.LineTable
