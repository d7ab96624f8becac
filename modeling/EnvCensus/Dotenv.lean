import EnvCensus.Name
import EnvCensus.Path
import EnvCensus.Text.Blank
import EnvCensus.Text.Case
import EnvCensus.Text.Lines

/-! Declaration files: one `NAME=value` a line, with an optional `export`, a value that may stand
in one layer of quotes and a comment after a `#` outside quotes.  An empty value and a placeholder
declare a variable without giving it a value. -/
namespace EnvCensus.Dotenv

/-- Values that only hold the place of a value, whatever their case. -/
def placeholders : List String :=
  ["YOUR_VALUE_HERE", "CHANGE_ME", "REPLACE_ME", "TODO", "TBD", "...", "XXX"]

/-- No letter outside ASCII has an upper case within a placeholder, so ASCII case suffices. -/
def isPlaceholder (value : String) : Bool := placeholders.contains (Text.upperAscii value)

structure Entry where
  name : String
  value : Option String := none
  comment : Option String := none
  line : Nat := 0
  deriving DecidableEq, Repr

def Entry.hasValue (e : Entry) : Bool := e.value.isSome

/-- Looks for the first `#` past the first character with an even number of quotes of either kind
before it; `before` is what was passed, reversed. -/
def commentStart (before : List Char) (evenSingle evenDouble : Bool) :
    List Char → Option (List Char × List Char)
  | [] => none
  | c :: rest =>
    if c == '#' && !before.isEmpty && evenSingle && evenDouble then some (before.reverse, rest)
    else
      commentStart (c :: before) (evenSingle != (c == '\'')) (evenDouble != (c == '"')) rest

/-- The line up to its comment, and the comment; an uncommented line is left as it is. -/
def splitComment (line : List Char) : List Char × Option (List Char) :=
  match commentStart [] true true line with
  | some (before, after) => (Text.trim before, some (Text.trim after))
  | none => (line, none)

/-- The value that a declaration gives, if it gives one. -/
def parseValue (raw : List Char) : Option String :=
  let value := String.ofList (Text.stripQuotes (Text.trim raw))
  if value == "" || isPlaceholder value then none else some value

/-- What follows the word `export` and the blanks after it. -/
def afterExport? (cs : List Char) : Option (List Char) :=
  match cs with
  | 'e' :: 'x' :: 'p' :: 'o' :: 'r' :: 't' :: c :: rest =>
    if Text.isBlank c then some (Text.trimLeft rest) else none
  | _ => none

/-- A name, an equals sign and a value on one line, with blanks around the sign. -/
def binding? (cs : List Char) : Option (String × List Char) := do
  let (name, rest) ← Name.split cs
  match Text.trimLeft rest with
  | '=' :: raw =>
    let raw := Text.trimLeft raw
    if raw.contains '\n' then none else some (String.ofList name, raw)
  | _ => none

/-- A binding, after `export` if that leaves one. -/
def declaration? (cs : List Char) : Option (String × List Char) :=
  match (afterExport? cs).bind binding? with
  | some b => some b
  | none => binding? cs

/-- The entry of one line; blank lines, comments and everything unrecognised have none. -/
def parseLine (line : List Char) (number : Nat := 0) : Option Entry :=
  let stripped := Text.trim line
  if stripped.isEmpty || stripped.head? == some '#' then none
  else
    let (working, comment) := splitComment stripped
    (declaration? working).map fun (name, raw) =>
      { name, value := parseValue raw, line := number
        comment := (comment.filter (· ≠ [])).map String.ofList }

/-- The entries of consecutive lines, the first of which has the number `n`. -/
def parseLines (n : Nat) : List (List Char) → List Entry
  | [] => []
  | l :: rest =>
    match parseLine l n with
    | some e => e :: parseLines (n + 1) rest
    | none => parseLines (n + 1) rest

def parse (content : String) : List Entry := parseLines 1 (Text.lines content.toList)

def dropFinalFeed (cs : List Char) : List Char :=
  if cs.getLast? == some '\n' then cs.dropLast else cs

/-- Names of declaration files: `.env`, `.env.` and more, `env`, `environment` and whatever ends
in `.env`; one line feed may end the name. -/
def isFileName (name : String) : Bool :=
  let base := dropFinalFeed name.toList
  let dotEnv := ".env".toList
  base == dotEnv || base == "env".toList || base == "environment".toList ||
    (!base.contains '\n' &&
      ((".env.".toList.isPrefixOf base && base.length > 5) ||
        (dotEnv.isSuffixOf base && base.length > 4)))

def handles (path : String) : Bool := isFileName (Path.parse path).name

end EnvCensus.Dotenv
