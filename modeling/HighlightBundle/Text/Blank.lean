/-!
# Blank characters and trimming

Ids are compared after white space at their ends is removed. What counts as white space is the
Unicode property `White_Space`, a closed set of twenty-five characters: it holds the no-break
space, the line and paragraph separators and the ideographic space, and it does not hold the
zero-width characters, the byte order mark or the four information separators below the space.

`trim` works on the characters of a string, so that it can be followed through lists.
-/

namespace HighlightBundle

/-- The Unicode property `White_Space`. -/
def isBlank (c : Char) : Bool :=
  let n := c.toNat
  (9 ≤ n && n ≤ 13) || n == 0x20 || n == 0x85 || n == 0xA0 || n == 0x1680 ||
    (0x2000 ≤ n && n ≤ 0x200A) || n == 0x2028 || n == 0x2029 || n == 0x202F || n == 0x205F ||
    n == 0x3000

/-- The characters without the blanks at both ends. -/
def trimBlanks (cs : List Char) : List Char :=
  ((cs.dropWhile isBlank).reverse.dropWhile isBlank).reverse

/-- The string without the blanks at both ends. -/
def trim (s : String) : String :=
  String.ofList (trimBlanks s.toList)

example : trim "\u3000 a b\u00a0\n" = "a b" := by decide +kernel

/-- The zero-width space is not blank. -/
example : trim "\u200b" = "\u200b" := by decide +kernel

end HighlightBundle
