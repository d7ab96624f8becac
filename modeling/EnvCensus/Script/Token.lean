import EnvCensus.Script.Cursor
import EnvCensus.Text.Code

/-! Tokens of scripts: words, numbers, strings, regular expressions and operators.  Each is
measured by a length function on the text at hand and then taken from the cursor; operators are
the longest that the text begins with. -/
namespace EnvCensus.Script

/-- ASCII characters that no word contains. -/
def wordStops : List Char :=
  [':', ';', '\x60', '"', '\'', '@', '#', '.', ',', '|', '^', '&', '<', '=', '>', '+', '-', '*',
   '/', '\\', '%', '?', '!', '~', '(', ')', '[', ']', '{', '}']

/-- Characters of words: everything but controls, blanks and punctuation. -/
def isWordPart (c : Char) : Bool :=
  if c.toNat < 128 then c.toNat > 32 && !wordStops.contains c else !isGapBlank c

/-- The length of the word at the front, where escaped characters count as parts of it. -/
def wordTail : List Char → Nat
  | '\\' :: 'u' :: a :: b :: c :: d :: rest =>
    if Text.isHexDigit a && Text.isHexDigit b && Text.isHexDigit c && Text.isHexDigit d then 6 + wordTail rest else 0
  | c :: rest => if isWordPart c then 1 + wordTail rest else 0
  | [] => 0

def wordLength (cs : List Char) : Nat :=
  match cs with
  | [] => 0
  | c :: _ => if c.isDigit then 0 else wordTail cs

/-- The word at the front, empty if there is none. -/
def wordOf (cs : List Char) : String := String.ofList (cs.take (wordLength cs))

/-- Words that no identifier of an untyped script may be. -/
def reservedWords : List String :=
  ["break", "case", "catch", "class", "const", "continue", "debugger", "default", "delete", "do",
   "else", "export", "extends", "false", "finally", "for", "function", "if", "import", "in",
   "instanceof", "new", "null", "return", "super", "switch", "this", "throw", "true", "try",
   "typeof", "var", "void", "while", "with"]

/-- Words that begin an expression of their own and so are no identifiers where one begins. -/
def operandWords : List String :=
  ["class", "function", "new", "typeof", "void", "delete", "this", "super", "null", "true",
   "false", "import"]

/-- Words that an operand may not be in a dialect. -/
def Dialect.excludes (d : Dialect) (w : String) : Bool :=
  operandWords.contains w || (!d.isTyped && reservedWords.contains w)

/-- Words that a name may not be where one is declared. -/
def Dialect.reserves (d : Dialect) (w : String) : Bool :=
  !d.isTyped && reservedWords.contains w

/-- The length of digits of one kind, single underscores between them. -/
def digitsLength (isDigit : Char → Bool) : List Char → Nat
  | '_' :: c :: rest => if isDigit c then 2 + digitsLength isDigit rest else 0
  | c :: rest => if isDigit c then 1 + digitsLength isDigit rest else 0
  | [] => 0

def decimalLength (cs : List Char) : Nat :=
  if cs.head?.any Char.isDigit then digitsLength Char.isDigit cs else 0

/-- The length of an exponent, zero if the text begins with none. -/
def exponentLength (cs : List Char) : Nat :=
  match cs with
  | e :: rest =>
    if e == 'e' || e == 'E' then
      let sign := if rest.head? == some '+' || rest.head? == some '-' then 1 else 0
      let digits := decimalLength (rest.drop sign)
      if digits == 0 then 0 else 1 + sign + digits
    else 0
  | [] => 0

/-- The length of a number after a radix mark, the mark included. -/
def radixLength (isDigit : Char → Bool) (rest : List Char) : Nat :=
  if rest.head?.any isDigit then
    let n := 2 + digitsLength isDigit rest
    if (rest.drop (n - 2)).head? == some 'n' then n + 1 else n
  else 1

/-- The length of the number at the front, zero if there is none. -/
def numberLength (cs : List Char) : Nat :=
  match cs with
  | '0' :: x :: rest =>
    if x == 'x' || x == 'X' then radixLength Text.isHexDigit rest
    else if x == 'o' || x == 'O' then radixLength (fun c => '0' ≤ c && c ≤ '7') rest
    else if x == 'b' || x == 'B' then radixLength (fun c => c == '0' || c == '1') rest
    else plain cs
  | _ => plain cs
where
  plain (cs : List Char) : Nat :=
    let whole := decimalLength cs
    let after := cs.drop whole
    match after with
    | '.' :: rest =>
      let digits := decimalLength rest
      if whole == 0 && digits == 0 then 0
      else whole + 1 + digits + exponentLength (rest.drop digits)
    | 'n' :: _ => if whole == 0 then 0 else whole + 1
    | _ => if whole == 0 then 0 else whole + exponentLength after

/-- Whether an escape may begin with the text after its backslash. -/
def escapeAllowed (cs : List Char) : Bool :=
  match cs with
  | [] => false
  | 'x' :: rest => (rest.take 2).length == 2 && (rest.take 2).all Text.isHexDigit
  | 'u' :: '{' :: rest =>
    (rest.head?.any Text.isHexDigit) && (rest.dropWhile Text.isHexDigit).head? == some '}'
  | 'u' :: rest => (rest.take 4).length == 4 && (rest.take 4).all Text.isHexDigit
  | _ => true

/-- The length of a string whose closing quote is `q`, that quote included; `seen` characters of
it have been read. -/
def stringTail (q : Char) (seen : Nat) : List Char → Option Nat
  | [] => none
  | '\\' :: '\r' :: '\n' :: rest => stringTail q (seen + 3) rest
  | '\\' :: c :: rest =>
    if escapeAllowed (c :: rest) then stringTail q (seen + 2) rest else none
  | c :: rest =>
    if c == q then some (seen + 1)
    else if c == '\n' || c == '\r' then none
    else stringTail q (seen + 1) rest

/-- The length of the string at the front. -/
def stringLength (cs : List Char) : Option Nat :=
  match cs with
  | q :: rest => if q == '"' || q == '\'' then stringTail q 1 rest else none
  | [] => none

/-- The length of the characters of a template up to its end, a substitution or a faulty escape;
`seen` characters have been read. -/
def templateRunFrom (seen : Nat) : List Char → Nat
  | [] => seen
  | '\\' :: c :: rest =>
    if escapeAllowed (c :: rest) then templateRunFrom (seen + 2) rest else seen
  | '$' :: '{' :: _ => seen
  | c :: rest => if c == '\x60' then seen else templateRunFrom (seen + 1) rest

def templateRun (cs : List Char) : Nat := templateRunFrom 0 cs

/-- The length of a regular expression up to its closing slash; `seen` characters have been read
and `inClass` tells whether a bracketed class is open. -/
def regexTail (inClass : Bool) (seen : Nat) : List Char → Option Nat
  | [] => none
  | '\\' :: c :: rest => if c == '\n' then none else regexTail inClass (seen + 2) rest
  | c :: rest =>
    if c == '\n' then none
    else if inClass then regexTail (c ≠ ']') (seen + 1) rest
    else if c == '/' then some (seen + 1)
    else regexTail (c == '[') (seen + 1) rest

/-- The length of the regular expression at the front, flags included. -/
def regexLength (cs : List Char) : Option Nat :=
  match cs with
  | '/' :: rest =>
    match regexTail false 1 rest with
    | some n =>
      if n ≤ 2 then none
      else some (n + ((cs.drop n).takeWhile fun c => 'a' ≤ c && c ≤ 'z').length)
    | none => none
  | _ => none

/-- Operators and punctuation of more than one character, longer ones first. -/
def longOperators : List (List Char) :=
  [">>>=", "...", "===", "!==", "**=", "<<=", ">>=", ">>>", "&&=", "||=", "??=", "=>", "==", "!=",
   "<=", ">=", "&&", "||", "??", "?.", "++", "--", "+=", "-=", "*=", "/=", "%=", "&=", "|=", "^=",
   "<<", ">>", "**"].map String.toList

/-- The operator or punctuation mark at the front; `?.` before a digit is a mere question mark. -/
def operatorOf (cs : List Char) : String :=
  match cs with
  | [] => ""
  | c :: rest =>
    if c.isAlphanum then ""
    else if c == '?' && rest.head? == some '.' && (rest.drop 1).head?.any Char.isDigit then "?"
    else
      match longOperators.find? fun o => o.isPrefixOf cs with
      | some o => String.ofList o
      | none => String.singleton c

namespace Parser

/-- The operator or punctuation mark with this text. -/
def mark (s : String) : Parser Tree := do
  ensure (operatorOf (← peek) == s)
  take .mark s.length

/-- A mark that the text begins with, even if a longer one does too. -/
def shortMark (s : String) : Parser Tree := do
  ensure (s.toList.isPrefixOf (← peek))
  take .mark s.length

/-- The keyword with this text. -/
def keyword (s : String) : Parser Tree := do
  ensure (wordOf (← peek) == s)
  take .mark s.length

/-- One of several keywords. -/
def keywordIn (ws : List String) : Parser Tree := do
  let w := wordOf (← peek)
  ensure (ws.contains w)
  take .mark w.length

/-- The word ahead, empty if there is none. -/
def peekWord : Parser String := do return wordOf (← peek)

def peekOperator : Parser String := do return operatorOf (← peek)

/-- Any word at all, standing for the given kind. -/
def word (kind : Kind) : Parser Tree := do
  let n := wordLength (← peek)
  ensure (n ≠ 0)
  take kind n

/-- A word that the dialect lets be declared. -/
def name (d : Dialect) : Parser Tree := do
  let w ← peekWord
  ensure (w ≠ "" && !d.reserves w)
  take .identifier w.length

/-- A private name, its number sign included. -/
def privateName : Parser Tree := do
  match ← peek with
  | '#' :: rest =>
    let n := wordLength rest
    ensure (n ≠ 0)
    take .privateIdentifier (n + 1)
  | _ => failure

def string : Parser Tree := do
  match stringLength (← peek) with
  | some n => take .string n
  | none => failure

def number : Parser Tree := do
  let n := numberLength (← peek)
  ensure (n ≠ 0)
  take .number n

def regex : Parser Tree := do
  match regexLength (← peek) with
  | some n => take .regex n
  | none => failure

/-- Whether the gap before the next token breaks the line. -/
def brokenLine : Parser Bool := fun c => some (c.gap.contains '\n', c)

/-- The end of a statement: a semicolon, or nothing where it may be left out. -/
def semicolon (d : Dialect) (afterOperand : Bool) : Parser (List Tree) := do
  if (← peek).head? == some ';' then one (take .mark 1)
  else
    ensure (mayEndStatement d afterOperand (← peekRaw))
    return []

end Parser

end EnvCensus.Script
