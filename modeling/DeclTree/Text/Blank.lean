/-!
# Blank characters

The white space of Unicode, and texts trimmed of it at both ends.
-/

set_option autoImplicit false
set_option relaxedAutoImplicit false

namespace DeclTree.Text

/-- White space: the blanks of ASCII, the next-line character, and the spaces and separators. -/
def isBlank (c : Char) : Bool :=
  let n := c.toNat
  (9 ≤ n && n ≤ 13) || n == 0x20 || n == 0x85 || n == 0xA0 || n == 0x1680 ||
    (0x2000 ≤ n && n ≤ 0x200A) || n == 0x2028 || n == 0x2029 || n == 0x202F || n == 0x205F ||
    n == 0x3000

/-- The text without the blanks at its two ends. -/
def trimmed (s : String) : String :=
  String.ofList ((s.toList.dropWhile isBlank).reverse.dropWhile isBlank).reverse

end DeclTree.Text
