import EnvCensus.Script.Grammar.Classes

/-! Statements and declarations.  A statement is told by its first word or mark; where a word may
also begin an expression, the declaration is tried first. -/
namespace EnvCensus.Script.Grammar

open Script.Parser

variable (g : Grammar)

/-- The end of a statement that closes with an operand. -/
def close : Parser (List Tree) := semicolon g.dialect true

/-- The end of a statement that closes with a word or a type. -/
def closeBare : Parser (List Tree) := semicolon g.dialect false

def block : Parser Tree :=
  nodeOf .block (do
    let opening ← mark "\x7b"
    let body ← g.many (do
      ensure ((← peekOperator) ≠ "\x7d")
      one (g.rule .statement))
    return opening :: body ++ [← mark "\x7d"])

/-- A declared name or pattern with its type and its value. -/
def declarator : Parser Tree :=
  nodeOf .variableDeclarator (do
    let n ← g.rule .binding
    let t ← g.ifTyped (do
      let sure ← maybe (one (mark "!"))
      return sure ++ [← g.typeClause])
    let init ← maybe (do return [← mark "=", (← g.rule .expression).as .value])
    return n.as .name :: t ++ init)

def endsInValue (ts : List Tree) : Bool :=
  ts.getLast?.any fun t => (t.child? .value).isSome

/-- Declared variables without the end of their statement. -/
def declared : Parser (List Tree) := do
  let w ← keywordIn ["var", "let", "const"]
  return w :: (← g.commaList (one g.declarator))

def variableDeclaration : Parser Tree :=
  nodeOf .declaration (do
    let vs ← g.declared
    return vs ++ (← semicolon g.dialect (endsInValue vs)))

/-- A function with its name; in typed scripts the body may be missing. -/
def functionDeclaration : Parser Tree := do
  let async ← maybe (one (keyword "async"))
  let function ← keyword "function"
  let star ← maybe (one (mark "*"))
  let n ← name g.dialect
  let signature ← g.callSignature
  let head := async ++ [function] ++ star ++ [n.as .name] ++ signature
  if (← peekOperator) == "\x7b" then
    let kind := if star.isEmpty then Kind.functionDeclaration else .generatorDeclaration
    return .node .plain kind (head ++ [← g.rule .block])
  else
    ensure g.isTyped
    return .node .plain .declaration (head ++ (← g.closeBare))

def classDeclaration : Parser Tree :=
  nodeOf .classDefinition (do
    let decs ← g.decorators
    let abstract ← g.ifTyped (one (keyword "abstract"))
    let class_ ← keyword "class"
    ensure ((← peekWord) ≠ "")
    return decs ++ abstract ++ [class_, ← g.rule .classRest])

def enumMember : Parser (List Tree) := do
  let n ← g.rule .property
  let value ← maybe (do return [← mark "=", ← g.rule .expression])
  return n :: value

def enumDeclaration : Parser Tree :=
  nodeOf .declaration (do
    let const ← maybe (one (keyword "const"))
    let enum ← keyword "enum"
    let n ← word .identifier
    let opening ← mark "\x7b"
    return const ++ [enum, n, opening] ++ (← g.listUpTo "\x7d" g.enumMember))

def interfaceDeclaration : Parser Tree :=
  nodeOf .declaration (do
    let interface ← keyword "interface"
    let n ← word .identifier
    let types ← maybe (one (g.rule .typeParameters))
    let parents ← maybe (do
      let extends_ ← keyword "extends"
      return extends_ :: (← g.commaList (one (g.rule .typeExpression))))
    return [interface, n] ++ types ++ parents ++ [← g.rule .objectType])

def aliasDeclaration : Parser Tree :=
  nodeOf .declaration (do
    let type ← keyword "type"
    let n ← word .identifier
    let types ← maybe (one (g.rule .typeParameters))
    let eq ← mark "="
    let t ← g.rule .typeExpression
    return [type, n] ++ types ++ [eq, t] ++ (← g.closeBare))

/-- A named group of declarations, with or without a body. -/
def moduleDeclaration : Parser Tree :=
  nodeOf .declaration (do
    let w ← keywordIn ["namespace", "module"]
    let n ← one string <|> (do
      let first ← word .identifier
      let more ← g.many (do return [← mark ".", ← word .identifier])
      return first :: more)
    let body ← one (g.rule .block) <|> g.closeBare
    return w :: n ++ body)

def importAlias : Parser Tree :=
  nodeOf .declaration (do
    let import_ ← keyword "import"
    let kind ← maybe (do
      let type ← keyword "type"
      ensure ((← peekOperator) ≠ "=")
      return [type])
    let n ← word .identifier
    let eq ← mark "="
    let subject ← (do return [← keyword "require", ← mark "(", ← string, ← mark ")"]) <|> (do
      let first ← word .identifier
      let more ← g.many (do return [← mark ".", ← word .identifier])
      return first :: more)
    return [import_] ++ kind ++ [n, eq] ++ subject ++ (← g.closeBare))

def functionStart : Parser Unit := do
  let _ ← maybe (one (keyword "async"))
  let _ ← keyword "function"
  let _ ← maybe (one (mark "*"))
  ensure ((← peekWord) ≠ "")

def classStart : Parser Unit := do
  let _ ← keyword "class"
  let w ← peekWord
  ensure (w ≠ "" && w ≠ "extends")

/-- Declarations, told by their first word. -/
def declarationFor (w : String) : Parser Tree :=
  match w with
  | "var" => g.variableDeclaration
  | "const" => (if g.isTyped then g.enumDeclaration else failure) <|> g.variableDeclaration
  | "let" => g.variableDeclaration
  | "function" | "async" => do
    ensure (← ahead functionStart)
    g.functionDeclaration
  | "class" => g.classDeclaration
  | _ =>
    if g.isTyped then
      match w with
      | "abstract" => g.classDeclaration
      | "enum" => g.enumDeclaration
      | "interface" => g.interfaceDeclaration
      | "type" => g.aliasDeclaration
      | "namespace" | "module" => g.moduleDeclaration
      | "import" => g.importAlias
      | _ => failure
    else failure

def declaration : Parser Tree := do
  if (← peekOperator) == "@" then g.classDeclaration else g.declarationFor (← peekWord)

/-- A declaration of something that exists elsewhere. -/
def ambientDeclaration : Parser Tree :=
  nodeOf .declaration (do
    let declare ← keyword "declare"
    let rest ← (do
      let w ← keyword "global"
      return [w, ← g.rule .block]) <|> one g.declaration
    return declare :: rest)

/-- A condition in parentheses. -/
def condition : Parser Tree := do return (← g.parenthesized).as .condition

def ifStatement : Parser Tree :=
  nodeOf .ifStatement (do
    let if_ ← keyword "if"
    let c ← g.condition
    let yes ← g.rule .statement
    let no ← maybe (one (nodeOf .statement (do
      return [← keyword "else", ← g.rule .statement])))
    return [if_, c, yes] ++ no)

def caseHead : Parser (List Tree) :=
  (do
    let case_ ← keyword "case"
    return [case_, ← g.rule .sequence, ← mark ":"]) <|>
  (do return [← keyword "default", ← mark ":"])

def switchCase : Parser (List Tree) := do
  let head ← g.caseHead
  let body ← g.many (do
    ensure ((← peekOperator) ≠ "\x7d")
    let w ← peekWord
    ensure (w ≠ "case" && w ≠ "default")
    one (g.rule .statement))
  return [.node .plain .statement (head ++ body)]

def switchStatement : Parser Tree :=
  nodeOf .statement (do
    let switch ← keyword "switch"
    let subject ← g.condition
    let opening ← mark "\x7b"
    let cases ← g.many g.switchCase
    return [switch, subject, opening] ++ cases ++ [← mark "\x7d"])

/-- The head of a loop over the members or the elements of something. -/
def eachHead : Parser (List Tree) := do
  let opening ← mark "("
  let left ← (do
      let w ← keywordIn ["var", "let", "const"]
      let b ← g.rule .binding
      let init ← maybe (do
        ensure (w.text == "var".toList)
        return [← mark "=", ← g.rule .expression])
      return w :: b :: init) <|> one (g.rule .target)
  let op ← keywordIn ["in", "of"]
  return opening :: left ++ [op, ← g.rule .sequence, ← mark ")"]

/-- The head of a counting loop. -/
def countHead : Parser (List Tree) := do
  let opening ← mark "("
  let init ← (do
      let vs ← g.declared
      return [.node .plain .declaration vs]) <|> maybe (one (g.rule .sequence))
  let first ← mark ";"
  let test ← maybe (one (g.rule .sequence))
  let second ← mark ";"
  let next ← maybe (one (g.rule .sequence))
  return opening :: init ++ [first] ++ test ++ [second] ++ next ++ [← mark ")"]

def forStatement : Parser Tree :=
  nodeOf .statement (do
    let for_ ← keyword "for"
    let await ← maybe (one (keyword "await"))
    let head ← g.eachHead <|> (do
      ensure await.isEmpty
      g.countHead)
    return for_ :: await ++ head ++ [← g.rule .statement])

def whileStatement : Parser Tree :=
  nodeOf .statement (do
    let w ← keywordIn ["while", "with"]
    let c ← g.condition
    return [w, c, ← g.rule .statement])

def doStatement : Parser Tree :=
  nodeOf .statement (do
    let do_ ← keyword "do"
    let body ← g.rule .statement
    let while_ ← keyword "while"
    let c ← g.condition
    return [do_, body, while_, c] ++ (← maybe g.closeBare))

def tryStatement : Parser Tree :=
  nodeOf .statement (do
    let try_ ← keyword "try"
    let body ← g.rule .block
    let handler ← maybe (do
      let catch_ ← keyword "catch"
      let parameter ← maybe (do
        let opening ← mark "("
        let b ← g.rule .binding
        let t ← g.ifTyped (one g.typeClause)
        return opening :: b :: t ++ [← mark ")"])
      return catch_ :: parameter ++ [← g.rule .block])
    let final ← maybe (do return [← keyword "finally", ← g.rule .block])
    return [try_, body] ++ handler ++ final)

/-- A jump with an optional label. -/
def jumpStatement : Parser Tree :=
  nodeOf .statement (do
    let w ← keywordIn ["break", "continue", "debugger"]
    let label ← maybe (do
      ensure (!mayEndStatement g.dialect false (← peekRaw) && w.text ≠ "debugger".toList)
      one (name g.dialect))
    return w :: label ++ (← g.closeBare))

def returnStatement : Parser Tree :=
  nodeOf .statement (do
    let return_ ← keyword "return"
    let value ← maybe (do
      ensure (!mayEndStatement g.dialect false (← peekRaw))
      one (g.rule .sequence))
    return return_ :: value ++ (← semicolon g.dialect (!value.isEmpty)))

def throwStatement : Parser Tree :=
  nodeOf .statement (do
    let throw_ ← keyword "throw"
    let value ← g.rule .sequence
    return [throw_, value] ++ (← g.close))

def labeledStatement : Parser Tree :=
  nodeOf .statement (do
    let label ← name g.dialect
    let colon ← mark ":"
    return [label, colon, ← g.rule .statement])

def expressionStatement : Parser Tree :=
  nodeOf .statement (do
    let value ← g.rule .sequence
    return value :: (← g.close))

/-- A name in an import or export list, which may be renamed. -/
def exchangedName : Parser (List Tree) := do
  let kind ← g.ifTyped (do
    let w ← keywordIn ["type", "typeof"]
    let next ← peekWord
    ensure ((next ≠ "" && next ≠ "as") || (← peek).head? == some '"')
    return [w])
  let n ← string <|> word .identifier
  let renamed ← maybe (do return [← keyword "as", ← string <|> word .identifier])
  return kind ++ n :: renamed

def exchangedNames : Parser (List Tree) := do
  return (← mark "\x7b") :: (← g.listUpTo "\x7d" g.exchangedName)

def fromClause : Parser (List Tree) := do return [← keyword "from", ← string]

/-- The attributes of an import. -/
def importAttributes : Parser (List Tree) := maybe (do
  let w ← keywordIn ["with", "assert"]
  return [w, ← g.object])

def wholeImport : Parser (List Tree) := do
  return [← mark "*", ← keyword "as", ← word .identifier]

def importClause : Parser (List Tree) :=
  wholeImport <|> g.exchangedNames <|> (do
    let n ← word .identifier
    let more ← maybe (do
      let comma ← mark ","
      return comma :: (← wholeImport <|> g.exchangedNames))
    return n :: more)

def importStatement : Parser Tree :=
  nodeOf .importStatement (do
    let import_ ← keyword "import"
    let origin ← one string <|>
      (do
        let kind ← g.ifTyped (one (keywordIn ["type", "typeof"]))
        let clause ← g.importClause
        return kind ++ clause ++ (← fromClause)) <|>
      (do
        let clause ← g.importClause
        return clause ++ (← fromClause))
    let attributes ← g.importAttributes
    return import_ :: origin ++ attributes ++ (← g.closeBare))

def exportTail : Parser (List Tree) :=
  (do
    let default ← keyword "default"
    let subject ← (do
        ensure ((← peekOperator) == "@" || (← peekOperator) == "")
        one g.declaration) <|> (do
        let value ← g.rule .expression
        return value :: (← g.close))
    return default :: subject) <|>
  (do
    let star ← mark "*"
    let renamed ← maybe (do return [← keyword "as", ← string <|> word .identifier])
    let source ← fromClause
    let attributes ← g.importAttributes
    return star :: renamed ++ source ++ attributes ++ (← g.closeBare)) <|>
  (do
    let kind ← g.ifTyped (one (keyword "type"))
    let names ← g.exchangedNames
    let source ← maybe fromClause
    let attributes ← g.importAttributes
    return kind ++ names ++ source ++ attributes ++ (← g.closeBare)) <|>
  (do
    ensure g.isTyped
    let eq ← mark "="
    let value ← g.rule .expression
    return [eq, value] ++ (← g.close)) <|>
  (do
    ensure g.isTyped
    return [← keyword "as", ← keyword "namespace", ← word .identifier] ++ (← g.closeBare)) <|>
  one g.declaration <|>
  (do
    ensure g.isTyped
    one g.ambientDeclaration)

def exportStatement : Parser Tree :=
  nodeOf .exportStatement (do
    let decs ← g.decorators
    let export_ ← keyword "export"
    return decs ++ export_ :: (← g.exportTail))

/-- Statements that begin with a word. -/
def wordStatement (w : String) : Parser Tree :=
  match w with
  | "if" => g.ifStatement
  | "for" => g.forStatement
  | "while" | "with" => g.whileStatement
  | "do" => g.doStatement
  | "switch" => g.switchStatement
  | "try" => g.tryStatement
  | "return" => g.returnStatement
  | "throw" => g.throwStatement
  | "break" | "continue" | "debugger" => g.jumpStatement
  | "import" =>
    g.importStatement <|> (if g.isTyped then g.importAlias else failure) <|>
      g.expressionStatement
  | "export" => g.exportStatement
  | "var" | "const" => g.declarationFor w
  | "class" => do
    if ← ahead classStart then g.classDeclaration else g.expressionStatement
  | "function" | "async" => do
    if ← ahead functionStart then g.functionDeclaration
    else g.labeledStatement <|> g.expressionStatement
  | _ =>
    (if g.isTyped && w == "declare" then g.ambientDeclaration else g.declarationFor w) <|>
      g.labeledStatement <|> g.expressionStatement

/-- Markup comments, which hide the rest of their line, may stand before a statement. -/
def markupComment : Parser (List Tree) := do
  let cs ← peek
  ensure ("<!--".toList.isPrefixOf cs || "-->".toList.isPrefixOf cs)
  one (take .characters (cs.takeWhile (· ≠ '\n')).length)

/-- Whether the text after a brace begins with something of length `n` and a colon. -/
def keyAhead (cs : List Char) (length : List Char → Nat) : Bool :=
  let inner := cs.drop (gapLength cs)
  let n := length inner
  let after := inner.drop n
  n ≠ 0 && (after.drop (gapLength after)).head? == some ':'

/-- A brace opens a block; before a string and a colon it opens an object, and before a word and
a colon it does so where no block can be read. -/
def braceStatement (rest : List Char) : Parser Tree :=
  if keyAhead rest fun cs => (stringLength cs).getD 0 then g.expressionStatement
  else if keyAhead rest wordLength then g.rule .block <|> g.expressionStatement
  else g.rule .block

def statement : Parser Tree := do
  match ← peek with
  | [] => failure
  | c :: rest =>
    if c == ';' then take .mark 1
    else if c == '{' then g.braceStatement rest
    else if c == '@' then
      g.exportStatement <|> g.classDeclaration
    else if c == '<' || c == '-' then
      nodeOf .statement markupComment <|> g.expressionStatement
    else
      match ← peekWord with
      | "" => g.expressionStatement
      | w => g.wordStatement w

/-- A whole script: an interpreter line, then statements to the end. -/
def program : Parser Tree :=
  nodeOf .program (do
    let cs ← peekRaw
    let line ← if "#!".toList.isPrefixOf cs then
        one (takeRaw .characters (cs.takeWhile (· ≠ '\n')).length)
      else pure []
    let body ← g.many (one (g.rule .statement))
    ensure ((← peek) == [])
    return line ++ body)

end EnvCensus.Script.Grammar
