import EnvCensus.Script.Token
import EnvCensus.Text.Code

/-! Values of string literals.  An escape names a character by its code, by a letter or by itself;
before the end of a line it joins the line to the next. -/
namespace EnvCensus.Script

/-- A code beyond the last code point; one that exceeds 31 bits is told apart. -/
inductive EscapeFault where
  | beyondCodePoints (code : Nat)
  | beyondWord (code : Nat)
  deriving DecidableEq, Repr

/-- The character with the given code. -/
def charOfCode (n : Nat) : Except EscapeFault Char :=
  if n > 0x7FFFFFFF then .error (.beyondWord n)
  else if n > 0x10FFFF then .error (.beyondCodePoints n)
  else .ok (Text.charOfUnit n)

/-- Characters that stand for a control when escaped. -/
def controlEscapes : List (Char × Char) :=
  [('n', '\n'), ('t', '\t'), ('r', '\r'), ('b', '\x08'), ('f', '\x0c'), ('v', '\x0b'),
   ('0', '\x00')]

/-- An escape by code at the front of the text after a backslash: its code and its length. -/
def codeEscape? (cs : List Char) : Option (Nat × Nat) :=
  match cs with
  | 'u' :: '{' :: rest =>
    let digits := rest.takeWhile Text.isHexDigit
    if digits ≠ [] && (rest.drop digits.length).head? == some '}' then
      some (Text.hexNumber digits, digits.length + 3)
    else none
  | 'u' :: rest =>
    let digits := rest.take 4
    if digits.length == 4 && digits.all Text.isHexDigit then some (Text.hexNumber digits, 5) else none
  | 'x' :: rest =>
    let digits := rest.take 2
    if digits.length == 2 && digits.all Text.isHexDigit then some (Text.hexNumber digits, 3) else none
  | _ => none

/-- The value of an escape of one character, or of two that end a line. -/
def plainEscape (cs : List Char) : List Char × Nat :=
  match cs with
  | [] => ([], 0)
  | '\r' :: '\n' :: _ => ([], 2)
  | c :: _ =>
    if c == '\n' || c == '\r' || c == '\u2028' || c == '\u2029' then ([], 1)
    else ([((controlEscapes.find? fun e => e.1 == c).map (·.2)).getD c], 1)

/-- The value of the escape at the front of the text after a backslash, and its length.  Two halves
of one character stay two halves. -/
def escapeValue (cs : List Char) : Except EscapeFault (List Char × Nat) :=
  match codeEscape? cs with
  | none => .ok (plainEscape cs)
  | some (code, n) => (charOfCode code).map fun c => ([c], n)

/-- The value of a literal's body; `skip` characters belong to an escape that was read. -/
def decodeFrom (skip : Nat) : List Char → Except EscapeFault (List Char)
  | [] => .ok []
  | c :: rest =>
    match skip with
    | k + 1 => decodeFrom k rest
    | 0 =>
      if c == '\\' && rest ≠ [] then do
        let (value, n) ← escapeValue rest
        return value ++ (← decodeFrom n rest)
      else do
        return c :: (← decodeFrom 0 rest)

/-- The value of a literal's body; a backslash at the very end stands for itself. -/
def decodeEscapes (body : List Char) : Except EscapeFault (List Char) := decodeFrom 0 body

/-- The text between the first and the last character. -/
def innerText (cs : List Char) : List Char := (cs.drop 1).dropLast

/-- Whether a tree is a string or a template without substitutions. -/
def isTextLiteral (t : Tree) : Bool :=
  match t.kind with
  | .string => true
  | .templateString => !t.children.any fun c => c.kind == .templateSubstitution
  | _ => false

/-- The value of a string or of a template without substitutions. -/
def literalValue (t : Tree) : Except EscapeFault (Option String) :=
  if isTextLiteral t then
    (decodeEscapes (innerText t.text)).map fun cs => some (String.ofList cs)
  else .ok none

def literalValue? : Option Tree → Except EscapeFault (Option String)
  | none => .ok none
  | some t => literalValue t

end EnvCensus.Script
