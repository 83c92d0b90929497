/-!
Contract: blank characters and trimming.

Blank characters are those of the Unicode property `White_Space`. The byte order
mark is not one of them.
-/

namespace Transpiler.Text

/-- A character with the property `White_Space`. -/
def isBlank (character : Char) : Bool :=
  let codePoint := character.toNat
  (9 ≤ codePoint && codePoint ≤ 13)
    || (0x2000 ≤ codePoint && codePoint ≤ 0x200a)
    || [0x20, 0x85, 0xa0, 0x1680, 0x2028, 0x2029, 0x202f, 0x205f, 0x3000].contains codePoint

/-- The characters without the blanks at their end. -/
def trimBlankEnd (characters : List Char) : List Char :=
  (characters.reverse.dropWhile isBlank).reverse

/-- The characters without the blanks at either end. -/
def trimBlank (characters : List Char) : List Char :=
  trimBlankEnd (characters.dropWhile isBlank)

end Transpiler.Text
