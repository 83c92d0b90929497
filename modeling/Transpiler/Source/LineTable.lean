import Transpiler.Source.Counter
import Transpiler.Text.Slice

/-!
Contract: line and column of a byte offset.

Lines end after each line feed, so a text with `n` line feeds has `n + 1` lines.
Lines and columns count from one, and columns count characters, not bytes. The line
of an offset is found by halving the table. Offsets, lines and columns are numbers of
32 bits, and those that are greater are taken for the greatest.
-/

namespace Transpiler

/-- A line and a column, both counted from one. -/
structure Position where
  line : Nat
  column : Nat
deriving DecidableEq, Repr

/-- A text with the byte offsets at which its lines start, the first being zero. -/
structure LineTable where
  text : List Char
  starts : List Nat
deriving DecidableEq, Repr

namespace LineTable

/-- The offsets right after each line feed, for characters that begin at `offset`. -/
def startsAfter (offset : Nat) : List Char → List Nat
  | [] => []
  | character :: rest =>
      let next := offset + character.utf8Size
      if character == '\n' then next :: startsAfter next rest else startsAfter next rest

def ofText (text : String) : LineTable :=
  let characters := text.toList
  ⟨characters, 0 :: (startsAfter 0 characters).map (min · counterMax)⟩

def lineCount (table : LineTable) : Nat :=
  table.starts.length

/-- How the search for a key in ascending entries ends: at the index of the key, or at
the index where it would have to be put in. -/
inductive SearchResult where
  | found (index : Nat)
  | missing (index : Nat)
deriving DecidableEq, Repr

/-- Halves a window of `size` entries from `base` on until a single entry is left. The
upper half is kept if it starts with the key or with less. -/
def narrow (entries : List Nat) (key base size : Nat) : Nat :=
  if size ≤ 1 then base
  else
    let half := size / 2
    let upper := base + half
    narrow entries key (if key < entries.getD upper 0 then base else upper) (size - half)
termination_by size

/-- The search for a key in ascending entries. -/
def search (entries : List Nat) (key : Nat) : SearchResult :=
  let base := narrow entries key 0 entries.length
  match entries[base]? with
  | none => .missing 0
  | some entry =>
      if entry = key then .found base
      else if entry < key then .missing (base + 1)
      else .missing base

/-- The line that holds a byte offset; the last line also holds every offset past
the end. -/
def lineOf (table : LineTable) (offset : Nat) : Nat :=
  match search table.starts offset with
  | .found index => saturatingSucc index
  | .missing index => saturatingSucc (index - 1)

/-- The position of a byte offset. Offsets past the end count as the end, and an
offset inside a character is shown at the start of its line. -/
def position (table : LineTable) (offset : Nat) : Position :=
  let line := table.lineOf offset
  let lineStart := table.starts.getD (line - 1) 0
  let stop := min offset (Text.byteLength table.text)
  let before := (Text.slice? table.text lineStart stop).getD []
  ⟨line, saturatingSucc before.length⟩

/-- A character that ends a line or belongs to its terminator. -/
def isTerminator (character : Char) : Bool :=
  character == '\n' || character == '\r'

/-- The text of a line without the line feed and carriage returns at its end. -/
def lineText? (table : LineTable) (line : Nat) : Option (List Char) :=
  if line = 0 then none
  else do
    let start ← table.starts[line - 1]?
    let stop := table.starts.getD line (Text.byteLength table.text)
    let whole ← Text.slice? table.text start stop
    return (whole.reverse.dropWhile isTerminator).reverse

end LineTable
end Transpiler
