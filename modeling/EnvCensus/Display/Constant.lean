import EnvCensus.Text.Blank
import EnvCensus.Text.Word

/-! Constants as parameters of an action: words for constants, numbers, texts in quotes, and several
of them in brackets or braces.  A name may stand before the bracket of the parameters. -/
namespace EnvCensus.Display.Constant

/-- What follows the closing quote of a text. -/
def afterText? (quote : Char) : List Char → Option (List Char)
  | '\\' :: _ :: rest => afterText? quote rest
  | c :: rest =>
    if c == quote then some rest else if c == '\n' then none else afterText? quote rest
  | [] => none

/-- What follows digits, with a point and more of them or without; a whole number does not begin
with a zero that could be left out. -/
def afterNumber? (cs : List Char) : Option (List Char) :=
  let whole := cs.takeWhile Char.isDigit
  match cs.drop whole.length with
  | '.' :: rest =>
    let fraction := rest.takeWhile Char.isDigit
    if whole.isEmpty && fraction.isEmpty then none else some (rest.drop fraction.length)
  | rest =>
    if whole.isEmpty || (whole.head? == some '0' && whole.any (· != '0')) then none else some rest

/-- What follows a word for a constant. -/
def afterWord? (cs : List Char) : Option (List Char) :=
  (["True", "False", "None"].find? fun w => w.toList.isPrefixOf cs).map fun w => cs.drop w.length

def skipBlanks (cs : List Char) : List Char := cs.dropWhile Text.isBlank

mutual

/-- What follows a constant at the front of the text, read in at most `fuel` steps. -/
def after? (fuel : Nat) (cs : List Char) : Option (List Char) :=
  match fuel with
  | 0 => none
  | fuel + 1 =>
    match skipBlanks cs with
    | '(' :: rest => itemsAfter? fuel ')' rest
    | '\x7b' :: rest => itemsAfter? fuel '\x7d' rest
    | '\'' :: rest => afterText? '\'' rest
    | '"' :: rest => afterText? '"' rest
    | '-' :: rest => afterNumber? (skipBlanks rest)
    | '+' :: rest => afterNumber? (skipBlanks rest)
    | rest => (afterWord? rest).or (afterNumber? rest)

/-- What follows the bracket that closes constants with commas between them; in braces two may be
paired by a colon. -/
def itemsAfter? (fuel : Nat) (close : Char) (cs : List Char) : Option (List Char) :=
  match fuel with
  | 0 => none
  | fuel + 1 =>
    match skipBlanks cs with
    | [] => none
    | c :: rest =>
      if c == close then some rest
      else do
        let first ← after? fuel (c :: rest)
        let first ←
          match skipBlanks first with
          | ':' :: value => if close == '\x7d' then after? fuel value else none
          | first => some first
        match skipBlanks first with
        | ',' :: rest => itemsAfter? fuel close rest
        | d :: rest => if d == close then some rest else none
        | [] => none

end

/-- Whether a text is a constant. -/
def isConstant (cs : List Char) : Bool :=
  match after? (2 * cs.length + 2) cs with
  | some rest => (skipBlanks rest).isEmpty
  | none => false

def isNamePart (c : Char) : Bool := Text.isWordChar c || c == '.'

/-- Whether a text can be the parameters of an action: a name, parameters in a bracket, both, or any
constant. -/
def areParameters (cs : List Char) : Bool :=
  let cs := Text.trim cs
  match cs.dropWhile isNamePart with
  | [] => true
  | '(' :: rest => isConstant (if cs.getLast? == some ')' then '(' :: rest else cs)
  | _ => isConstant cs

end EnvCensus.Display.Constant
