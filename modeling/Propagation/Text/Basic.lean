/-!
# Characters and bytes of texts

The characters with the white-space property are skipped before a number in a written time and cut
from both ends of a setting. A text that is to be cut after so many bytes is measured in UTF-8.

## Main definitions

* `Text.isBlank`: whether a character is white space.
* `Text.skipBlank`: a text without the blanks it starts with.
* `Text.trim`: a text without the blanks at either end.
* `Text.bytes`: the number of bytes of a text.
-/

namespace Propagation.Text

/-- Whether `c` is white space: the ASCII controls from tab to carriage return, the space, and
the spaces and separators outside ASCII. -/
def isBlank (c : Char) : Bool :=
  let n := c.toNat
  (0x9 ≤ n && n ≤ 0xd) || n = 0x20 || n = 0x85 || n = 0xa0 || n = 0x1680 ||
    (0x2000 ≤ n && n ≤ 0x200a) || n = 0x2028 || n = 0x2029 || n = 0x202f || n = 0x205f ||
    n = 0x3000

/-- The text `s` without the blanks it starts with. -/
def skipBlank (s : List Char) : List Char := s.dropWhile isBlank

/-- The text `s` without the blanks it starts or ends with. -/
def trim (s : List Char) : List Char := (skipBlank (skipBlank s).reverse).reverse

/-- The number of bytes of a text in UTF-8. -/
def bytes : List Char → Nat
  | [] => 0
  | c :: rest => c.utf8Size + bytes rest

end Propagation.Text
