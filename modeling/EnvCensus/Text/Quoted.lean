import EnvCensus.Text.Code
import EnvCensus.Text.Printable

/-! Quoted form of a text in messages.  A text stands between single quotes, or between double
quotes when it holds single ones and no double one; the quote and the backslash are escaped, the
three common controls have letters, and what cannot be printed, a half among it, is written by its
code. -/
namespace EnvCensus.Text

/-- A character that is not printed itself: two, four or eight digits, as few as its code needs. -/
def codeEscape (n : Nat) : List Char :=
  if n < 0x100 then '\\' :: 'x' :: hexDigits 2 n
  else if n < 0x10000 then '\\' :: 'u' :: hexDigits 4 n
  else '\\' :: 'U' :: hexDigits 8 n

/-- One character of a text that stands between two `q`. -/
def quotedChar (q c : Char) : List Char :=
  if c == q || c == '\\' then ['\\', c]
  else if c == '\n' then ['\\', 'n']
  else if c == '\r' then ['\\', 'r']
  else if c == '\t' then ['\\', 't']
  else if isPrintable c then [c]
  else codeEscape (unitOf c)

/-- Double quotes only where they spare escapes. -/
def quoteFor (cs : List Char) : Char :=
  if cs.contains '\'' && !cs.contains '"' then '"' else '\''

def quotedChars (cs : List Char) : List Char :=
  let q := quoteFor cs
  q :: cs.flatMap (quotedChar q) ++ [q]

/-- The text as messages show it. -/
def quoted (s : String) : String := String.ofList (quotedChars s.toList)

end EnvCensus.Text
