import EnvCensus.Script.Grammar.Rule

/-! Types of typed scripts.  They matter only as far as they have to be passed over, with one
exception: a type query names a value, so its parts are expressions. -/
namespace EnvCensus.Script.Grammar

open Script.Parser

variable (g : Grammar)

/-- A colon and a type. -/
def typeClause : Parser Tree :=
  nodeOf .typeClause (do return [← mark ":", ← g.rule .typeExpression])

/-- A type, or the claim that a parameter has one. -/
def typeOrClaim : Parser (List Tree) :=
  (do
    let asserts ← keyword "asserts"
    let subject ← word .identifier
    let claim ← maybe (do return [← keyword "is", ← g.rule .typeExpression])
    return [asserts, subject] ++ claim) <|>
  (do
    let subject ← word .identifier
    return [subject, ← keyword "is", ← g.rule .typeExpression]) <|>
  one (g.rule .typeExpression)

/-- The annotation of what a function returns. -/
def returnClause : Parser Tree :=
  nodeOf .typeClause (do return (← mark ":") :: (← g.typeOrClaim))

def typeArguments : Parser Tree :=
  nodeOf .typeArguments (do
    let opening ← shortMark "<"
    let items ← g.commaList (one (g.rule .typeExpression))
    let comma ← maybe (one (mark ","))
    return opening :: items ++ comma ++ [← shortMark ">"])

/-- One declared parameter with its bound and default. -/
def typeParameter : Parser (List Tree) := do
  let mods ← g.many (do
    let w ← keywordIn ["const", "in", "out"]
    ensure ((← peekWord) ≠ "" && (← peekWord) ≠ "extends")
    return [w])
  let n ← word .identifier
  let upper ← maybe (do return [← keyword "extends", ← g.rule .typeExpression])
  let default ← maybe (do return [← mark "=", ← g.rule .typeExpression])
  return mods ++ [n] ++ upper ++ default

def typeParameters : Parser Tree :=
  nodeOf .typeParameters (do
    let opening ← shortMark "<"
    let items ← g.commaList g.typeParameter
    let comma ← maybe (one (mark ","))
    return opening :: items ++ comma ++ [← shortMark ">"])

/-- Parameters, an arrow and a result. -/
def functionType : Parser (List Tree) := do
  let types ← maybe (one (g.rule .typeParameters))
  let ps ← g.rule .parameters
  let arrow ← mark "=>"
  return types ++ [ps, arrow] ++ (← g.typeOrClaim)

def constructorType : Parser (List Tree) := do
  let abstract ← maybe (one (keyword "abstract"))
  let new ← keyword "new"
  return abstract ++ [new] ++ (← g.functionType)

/-- One more member or subscript of what a type query names. -/
def queryStep (subject : Tree) : Parser Tree :=
  (do
    let dot ← mark "." <|> mark "?."
    let property ← privateName <|> word .propertyIdentifier
    return .node .plain .memberExpression [subject.as .object, dot, property.as .property]) <|>
  (do
    ensure (!(← brokenLine))
    let opening ← mark "["
    let index ← string <|> number
    let closing ← mark "]"
    return .node .plain .subscriptExpression
      [subject.as .object, opening, index.as .index, closing])

def importedType : Parser (List Tree) := do
  return [← keyword "import", ← mark "(", ← string, ← mark ")"]

def typeQuery : Parser (List Tree) := do
  let typeof ← keyword "typeof"
  let subject ← (do
      ensure ((← peekWord) ≠ "import")
      word .identifier) <|> nodeOf .callExpression importedType
  let query ← g.iterate queryStep subject
  let types ← maybe (one (g.rule .typeArguments))
  return [typeof, query] ++ types

/-- An element of a tuple: a type that may have a label, be optional or stand for many. -/
def tupleItem : Parser (List Tree) := do
  let dots ← maybe (one (mark "..."))
  let label ← maybe (do
    let n ← word .identifier
    let optional ← maybe (one (mark "?"))
    return n :: optional ++ [← mark ":"])
  let t ← g.rule .typeExpression
  let optional ← maybe (one (mark "?"))
  return dots ++ label ++ [t] ++ optional

/-- A qualified name with type arguments. -/
def namedType : Parser (List Tree) := do
  let first ← word .identifier
  let more ← g.many (do return [← mark ".", ← word .identifier])
  let types ← maybe (do
    ensure (!(← brokenLine))
    one (g.rule .typeArguments))
  return first :: more ++ types

/-- A template whose substitutions are types. -/
def templateType : Parser (List Tree) := do
  ensure ((← peek).head? == some '\x60')
  let opening ← take .mark 1
  let parts ← g.many (do
    let n := templateRun (← peekRaw)
    if n ≠ 0 then one (takeRaw .characters n)
    else
      ensure ("$\x7b".toList.isPrefixOf (← peekRaw))
      let start ← takeRaw .mark 2
      return [start, ← g.rule .typeExpression, ← mark "\x7d"])
  ensure ((← peekRaw).head? == some '\x60')
  return opening :: parts ++ [← takeRaw .mark 1]

def literalType : Parser (List Tree) :=
  one string <|> one number <|> (do return [← mark "-", ← number]) <|> g.templateType

def typePrimary : Parser (List Tree) := do
  match ← peekOperator with
  | "(" => return [← mark "(", ← g.rule .typeExpression, ← mark ")"]
  | "[" => return (← mark "[") :: (← g.listUpTo "]" g.tupleItem)
  | "\x7b" => one (g.rule .objectType)
  | "*" => one (mark "*")
  | _ =>
    match ← peekWord with
    | "typeof" => g.typeQuery
    | "import" => do
      let call ← importedType
      let more ← g.many (do return [← mark ".", ← word .identifier])
      return call ++ more ++ (← maybe (one (g.rule .typeArguments)))
    | "" => g.literalType
    | _ => g.namedType

/-- An operand of a union or an intersection: a primary type between its operators and its
brackets. -/
def typeOperand : Parser Tree :=
  nodeOf .typeExpression (
    (do
      let op ← keywordIn ["keyof", "readonly", "unique"]
      return [op, ← g.rule .typeOperand]) <|>
    (do
      let infer ← keyword "infer"
      let n ← word .identifier
      let bound ← maybe (do
        let extends_ ← keyword "extends"
        let t ← g.rule .typeOperand
        ensure ((← peekOperator) ≠ "?")
        return [extends_, t])
      return [infer, n] ++ bound) <|>
    (do
      let t ← g.typePrimary
      let more ← g.many (do
        ensure (!(← brokenLine))
        let opening ← mark "["
        let index ← maybe (one (g.rule .typeExpression))
        return opening :: index ++ [← mark "]"])
      return t ++ more))

def operatorList (op : String) (item : Parser (List Tree)) : Parser (List Tree) := do
  let leading ← maybe (one (mark op))
  let first ← item
  let more ← g.many (do
    let o ← mark op
    return o :: (← item))
  return leading ++ first ++ more

def unionType : Parser (List Tree) :=
  g.operatorList "|" (g.operatorList "&" (do
    (do
      ensure ((← peekOperator) == "(" || (← peekOperator) == "<")
      g.functionType) <|> one (g.rule .typeOperand)))

def typeExpression : Parser Tree :=
  nodeOf .typeExpression (
    g.constructorType <|>
    (do
      let subject ← g.unionType
      let choice ← maybe (do
        ensure (!(← brokenLine))
        let extends_ ← keyword "extends"
        let upper ← g.rule .typeExpression
        let q ← mark "?"
        let yes ← g.rule .typeExpression
        let colon ← mark ":"
        return [extends_, upper, q, yes, colon, ← g.rule .typeExpression])
      return subject ++ choice))

/-- The bracketed part of an index signature or of a mapped type. -/
def indexBrackets : Parser (List Tree) := do
  let opening ← mark "["
  let n ← word .identifier
  let range ← (one g.typeClause) <|> (do
    let in_ ← keyword "in"
    let t ← g.rule .typeExpression
    let renamed ← maybe (do return [← keyword "as", ← g.rule .typeExpression])
    return [in_, t] ++ renamed)
  return [opening, n] ++ range ++ [← mark "]"]

/-- A sign before a question mark or `readonly` that a mapped type adds or removes. -/
def mappedSign : Parser (List Tree) := maybe (one (mark "-" <|> mark "+"))

def indexSignature : Parser (List Tree) := do
  let readonly ← maybe (do
    let sign ← mappedSign
    return sign ++ [← keyword "readonly"])
  let brackets ← g.indexBrackets
  let optional ← maybe (do
    let sign ← mappedSign
    return sign ++ [← mark "?"])
  let t ← maybe (one g.typeClause)
  return readonly ++ brackets ++ optional ++ t

/-- Type parameters, parameters and a result. -/
def callSignature : Parser (List Tree) := do
  let types ← g.ifTyped (one (g.rule .typeParameters))
  let ps ← g.rule .parameters
  let result ← g.ifTyped (one g.returnClause)
  return types ++ [ps] ++ result

/-- A word that modifies the member it stands before and is not itself the member's name. -/
def modifier (ws : List String) : Parser (List Tree) := do
  let w ← keywordIn ws
  let next ← peekOperator
  ensure (!(["(", ":", "?", "!", "=", ",", ";", "\x7d", "<"].contains next) && (← peek) ≠ [])
  return [w]

def memberSignature : Parser (List Tree) := do
  let mods ← g.many (modifier
    ["public", "private", "protected", "static", "readonly", "override", "get", "set", "async"])
  let star ← maybe (one (mark "*"))
  let n ← g.rule .property
  let optional ← maybe (one (mark "?"))
  let rest ← g.callSignature <|> maybe (one g.typeClause)
  return mods ++ star ++ [n.as .name] ++ optional ++ rest

def typeMember : Parser (List Tree) :=
  g.indexSignature <|>
  (do
    let abstract ← maybe (one (keyword "abstract"))
    let new ← keyword "new"
    return abstract ++ [new] ++ (← g.callSignature)) <|>
  g.callSignature <|> g.memberSignature

def objectType : Parser Tree :=
  nodeOf .typeExpression (do
    let opening ← mark "\x7b"
    let leading ← maybe (one (mark "," <|> mark ";"))
    let members ← g.many (do
      ensure ((← peekOperator) ≠ "\x7d")
      let m ← nodeOf .typeExpression g.typeMember
      let sep ← one (mark ",") <|> semicolon g.dialect false
      return m :: sep)
    return opening :: leading ++ members ++ [← mark "\x7d"])

end EnvCensus.Script.Grammar
