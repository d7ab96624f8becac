/-! Syntax trees of scripts.  A tree keeps every character of its source: a token carries the
blanks and comments before it, so the text of a node is the text of its tokens run together.  Each
tree has a role, which says what it is to its parent, and tokens know where they stand. -/
namespace EnvCensus.Script

/-- A place in a source: the number of line feeds before it, and the bytes since the last one. -/
structure Point where
  row : Nat
  column : Nat
  deriving DecidableEq, Repr, Inhabited

/-- The place after a character. -/
def Point.after (p : Point) (c : Char) : Point :=
  if c == '\n' then ⟨p.row + 1, 0⟩ else ⟨p.row, p.column + c.utf8Size⟩

/-- The place after a text. -/
def Point.advance (p : Point) (cs : List Char) : Point := cs.foldl Point.after p

/-- What a tree stands for.  Punctuation and keywords are marks; they alone are unnamed. -/
inductive Kind where
  | mark
  | identifier
  | propertyIdentifier
  | privateIdentifier
  | shorthandProperty
  | shorthandPattern
  | constant
  | number
  | string
  | regex
  | characters
  | templateString
  | templateSubstitution
  | program
  | statement
  | block
  | declaration
  | variableDeclarator
  | ifStatement
  | functionDeclaration
  | generatorDeclaration
  | functionExpression
  | generatorExpression
  | arrowFunction
  | methodDefinition
  | parameters
  | classBody
  | classDefinition
  | fieldDefinition
  | decorator
  | objectPattern
  | arrayPattern
  | restPattern
  | pairPattern
  | assignmentPattern
  | objectAssignmentPattern
  | object
  | pair
  | array
  | spread
  | computedName
  | parenthesized
  | sequence
  | memberExpression
  | subscriptExpression
  | callExpression
  | newExpression
  | arguments
  | metaProperty
  | unaryExpression
  | updateExpression
  | binaryExpression
  | ternaryExpression
  | assignmentExpression
  | awaitExpression
  | yieldExpression
  | typeAssertion
  | nonNullExpression
  | element
  | elementAttribute
  | typeExpression
  | typeClause
  | typeParameters
  | typeArguments
  | exportStatement
  | importStatement
  deriving DecidableEq, Repr, Inhabited

/-- What a tree is to its parent, where that matters. -/
inductive Role where
  | plain
  | name
  | value
  | key
  | object
  | property
  | index
  | left
  | operator
  | right
  | condition
  deriving DecidableEq, Repr, Inhabited

/-- A token with the gap before it, or a node over its children. -/
inductive Tree where
  | token (role : Role) (kind : Kind) (gap text : List Char) (start stop : Point)
  | node (role : Role) (kind : Kind) (children : List Tree)
  deriving Repr, Inhabited

namespace Tree

def kind : Tree → Kind
  | token _ k _ _ _ _ => k
  | node _ k _ => k

def role : Tree → Role
  | token r _ _ _ _ _ => r
  | node r _ _ => r

def children : Tree → List Tree
  | token .. => []
  | node _ _ cs => cs

/-- The same tree in another role. -/
def as (t : Tree) (r : Role) : Tree :=
  match t with
  | token _ k g x a b => token r k g x a b
  | node _ k cs => node r k cs

/-- The same tree standing for something else. -/
def asKind (t : Tree) (k : Kind) : Tree :=
  match t with
  | token r _ g x a b => token r k g x a b
  | node r _ cs => node r k cs

def isNamed (t : Tree) : Bool := t.kind ≠ .mark

def namedChildren (t : Tree) : List Tree := t.children.filter isNamed

/-- The first child in a role. -/
def child? (t : Tree) (r : Role) : Option Tree := t.children.find? fun c => c.role == r

mutual

/-- Every character of the tree, the gap before it included. -/
def written : Tree → List Char
  | token _ _ gap text _ _ => gap ++ text
  | node _ _ cs => writtenAll cs

def writtenAll : List Tree → List Char
  | [] => []
  | c :: cs => c.written ++ writtenAll cs

end

mutual

/-- The characters from the first token of the tree to its last. -/
def text : Tree → List Char
  | token _ _ _ text _ _ => text
  | node _ _ cs => textAll cs

def textAll : List Tree → List Char
  | [] => []
  | c :: cs => c.text ++ writtenAll cs

end

mutual

/-- Where the first token begins. -/
def start? : Tree → Option Point
  | token _ _ _ _ start _ => some start
  | node _ _ cs => startAll? cs

def startAll? : List Tree → Option Point
  | [] => none
  | c :: cs =>
    match c.start? with
    | some p => some p
    | none => startAll? cs

end

mutual

/-- Where the last token ends. -/
def stop? : Tree → Option Point
  | token _ _ _ _ _ stop => some stop
  | node _ _ cs => stopAll? cs

def stopAll? : List Tree → Option Point
  | [] => none
  | c :: cs =>
    match stopAll? cs with
    | some p => some p
    | none => c.stop?

end

def start (t : Tree) : Point := t.start?.getD default

def stop (t : Tree) : Point := t.stop?.getD default

/-- The text as a string. -/
def textString (t : Tree) : String := String.ofList t.text

end Tree

end EnvCensus.Script
