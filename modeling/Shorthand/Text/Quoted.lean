import Shorthand.Text.Printable
/-!
# Quoted text

A text on a line of output: between double quotes, with an escape for the quote, the backslash, tab, line ends and NUL,
and with the code point in hexadecimal for every other char that is not printable.
-/
namespace Shorthand.Text

/-- The escape of `c`, which is `c` itself where it can be shown. -/
def escape (c : Char) : List Char :=
  if c = '\t' then ['\\', 't']
  else if c = '\r' then ['\\', 'r']
  else if c = '\n' then ['\\', 'n']
  else if c = '\x00' then ['\\', '0']
  else if c = '"' then ['\\', '"']
  else if c = '\\' then ['\\', '\\']
  else if isPrintable c then [c]
  else ['\\', 'u', '\x7b'] ++ Nat.toDigits 16 c.toNat ++ ['\x7d']

def quoted (t : List Char) : String := String.ofList ('"' :: (t.flatMap escape ++ ['"']))

end Shorthand.Text
