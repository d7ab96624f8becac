import EnvCensus.Script.Grammar.Rule

/-! Markup elements inside expressions: tags with attributes, text, entities and braces that hold
expressions. -/
namespace EnvCensus.Script.Grammar

open Script.Parser

variable (g : Grammar)

/-- The length of a name in a tag, in which words may be joined by hyphens. -/
def tagWordTail : List Char → Nat
  | [] => 0
  | c :: rest => if isWordPart c || c == '-' then 1 + tagWordTail rest else 0

def tagWord : Parser Tree := do
  let cs ← peek
  ensure (wordLength cs ≠ 0)
  take .identifier (tagWordTail cs)

def tagName : Parser (List Tree) := do
  let first ← tagWord
  let more ← g.many (do return [← mark "." <|> mark ":", ← tagWord])
  return first :: more

/-- Braces with a sequence, a spread or nothing between them. -/
def elementBraces : Parser Tree :=
  nodeOf .element (do
    let opening ← mark "\x7b"
    let inner ← maybe (one (
      nodeOf .spread (do return [← mark "...", ← g.rule .expression]) <|> g.rule .sequence))
    return opening :: inner ++ [← mark "\x7d"])

/-- The length of an attribute string, its closing quote `q` included; `seen` characters of it
have been read. -/
def attributeTail (q : Char) (seen : Nat) : List Char → Option Nat
  | [] => none
  | c :: rest => if c == q then some (seen + 1) else attributeTail q (seen + 1) rest

def attributeString : Parser Tree := do
  match ← peek with
  | q :: rest =>
    ensure (q == '"' || q == '\'')
    match attributeTail q 1 rest with
    | some n => take .string n
    | none => failure
  | [] => failure

def tagAttribute : Parser Tree :=
  g.elementBraces <|>
  nodeOf .elementAttribute (do
    let n ← g.tagName
    let value ← maybe (do
      let eq ← shortMark "="
      return [eq, ← attributeString <|> g.elementBraces <|> g.rule .element])
    return n ++ value)

/-- The length of text up to the next character that means something. -/
def elementTextLength (cs : List Char) : Nat :=
  (cs.takeWhile fun c => !(['<', '>', '{', '}', '&'].contains c)).length

/-- The length of a character entity, zero if the text begins with none. -/
def entityLength (cs : List Char) : Nat :=
  match cs with
  | '&' :: '#' :: x :: rest =>
    let (digits, least) :=
      if x == 'x' || x == 'X' then ((rest.takeWhile Text.isHexDigit).length, 3)
      else (((x :: rest).takeWhile Char.isDigit).length, 2)
    let top := if least == 3 then 6 else 5
    if 1 ≤ digits && digits ≤ top && (cs.drop (least + digits)).head? == some ';' then
      least + digits + 1
    else 0
  | '&' :: rest =>
    let letters := (rest.takeWhile Char.isAlpha).length
    if 1 ≤ letters && letters ≤ 30 && (rest.drop letters).head? == some ';' then letters + 2
    else 0
  | _ => 0

def elementChild : Parser (List Tree) := do
  let raw ← peekRaw
  let n := elementTextLength raw
  if n ≠ 0 then one (takeRaw .characters n)
  else
    match raw with
    | '&' :: _ =>
      ensure (entityLength raw ≠ 0)
      one (takeRaw .characters (entityLength raw))
    | '{' :: _ => one g.elementBraces
    | '<' :: _ => one (g.rule .element)
    | _ => failure

/-- An element: a self-closing tag, or an opening tag, children and a closing tag. -/
def element : Parser Tree :=
  nodeOf .element (do
    let opening ← shortMark "<"
    let head ← maybe (do
      let n ← g.tagName
      let types ← g.ifTyped (one (g.rule .typeArguments))
      let attributes ← g.many (one g.tagAttribute)
      return n ++ types ++ attributes)
    (do
      ensure (head ≠ [])
      let slash ← mark "/"
      return opening :: head ++ [slash, ← shortMark ">"]) <|>
    (do
      let close ← shortMark ">"
      let children ← g.many g.elementChild
      let less ← shortMark "<"
      let slash ← mark "/"
      let name ← maybe g.tagName
      return opening :: head ++ close :: children ++ [less, slash] ++ name ++ [← shortMark ">"]))

end EnvCensus.Script.Grammar
