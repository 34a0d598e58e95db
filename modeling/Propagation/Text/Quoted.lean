import Propagation.Text.Printable
import Propagation.Text.Numeral

/-!
# Quoted texts

How an error message shows a text that it complains about: between double quotes, with every
character that would mislead a reader written as an escape.

## Main definitions

* `Text.escape`: one character, as it stands between the quotes.
* `Text.quote`: a whole text with its quotes.
-/

namespace Propagation.Text

/-- One character between quotes. Quote, backslash and the four named controls have a short
escape; what else is unprintable is written by its code point. -/
def escape (c : Char) : List Char :=
  match c with
  | '\x00' => ['\\', '0']
  | '\t' => ['\\', 't']
  | '\n' => ['\\', 'n']
  | '\r' => ['\\', 'r']
  | '"' => ['\\', '"']
  | '\\' => ['\\', '\\']
  | c =>
    if isPrintable c then [c]
    else ['\\', 'u', '\x7b'] ++ Numeral.digits 16 c.toNat ++ ['\x7d']

/-- The text between double quotes. -/
def quote (s : String) : String :=
  String.ofList ('"' :: s.toList.flatMap escape ++ ['"'])

end Propagation.Text
