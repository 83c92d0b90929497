/-!
Contract: cutting text at byte offsets.

Positions in a source are byte offsets into its UTF-8 form, while text is handled
as characters. A cut succeeds only at character boundaries.
-/

namespace Transpiler.Text

/-- The number of bytes of the UTF-8 form. -/
def byteLength (characters : List Char) : Nat :=
  characters.foldr (fun character total => character.utf8Size + total) 0

@[simp] theorem byteLength_nil : byteLength [] = 0 := rfl

@[simp] theorem byteLength_cons (character : Char) (rest : List Char) :
    byteLength (character :: rest) = character.utf8Size + byteLength rest := rfl

@[simp] theorem byteLength_append (first second : List Char) :
    byteLength (first ++ second) = byteLength first + byteLength second := by
  induction first with
  | nil => simp
  | cons character rest inductionHypothesis => simp [inductionHypothesis, Nat.add_assoc]

theorem byteLength_replicate {character : Char} (narrow : character.utf8Size = 1) (count : Nat) :
    byteLength (List.replicate count character) = count := by
  induction count with
  | zero => simp
  | succ count inductionHypothesis =>
      rw [List.replicate_succ, byteLength_cons, inductionHypothesis, narrow, Nat.add_comm]

theorem utf8ByteSize_ofList (characters : List Char) :
    (String.ofList characters).utf8ByteSize = byteLength characters := by
  induction characters with
  | nil => rfl
  | cons character rest inductionHypothesis =>
      have shape : String.ofList (character :: rest) =
          String.singleton character ++ String.ofList rest := by simp
      rw [shape, String.utf8ByteSize_append, String.utf8ByteSize_singleton, inductionHypothesis,
        byteLength_cons]

theorem byteLength_toList (text : String) : byteLength text.toList = text.utf8ByteSize := by
  rw [← utf8ByteSize_ofList, String.ofList_toList]

/-- What follows the first `count` bytes; nothing when the cut would fall inside a
character or past the end. -/
def dropBytes? (count : Nat) (characters : List Char) : Option (List Char) :=
  if count = 0 then some characters
  else
    match characters with
    | [] => none
    | character :: rest =>
        if character.utf8Size ≤ count then dropBytes? (count - character.utf8Size) rest
        else none

/-- The first `count` bytes; nothing when the cut would fall inside a character or past
the end. -/
def takeBytes? (count : Nat) (characters : List Char) : Option (List Char) :=
  if count = 0 then some []
  else
    match characters with
    | [] => none
    | character :: rest =>
        if character.utf8Size ≤ count then
          (takeBytes? (count - character.utf8Size) rest).map (character :: ·)
        else none

/-- The characters between two byte offsets, when both are character boundaries of
the text and stand in order. -/
def slice? (text : List Char) (start stop : Nat) : Option (List Char) :=
  if start ≤ stop then (dropBytes? start text).bind (takeBytes? (stop - start)) else none

/-- A run of characters is as long as it can be if the next one is not of their class. -/
theorem takeWhile_run {inside : Char → Bool} {run rest : List Char}
    (members : ∀ character ∈ run, inside character = true)
    (stops : ∀ next ∈ rest.head?, inside next = false) : (run ++ rest).takeWhile inside = run := by
  rw [List.takeWhile_append_of_pos members]
  cases rest with
  | nil => simp
  | cons next others => simp [stops next rfl]

end Transpiler.Text
