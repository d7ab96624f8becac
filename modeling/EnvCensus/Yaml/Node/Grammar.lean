import EnvCensus.Yaml.Node
import EnvCensus.Yaml.Token

/-! The node that the tokens of a document stand for.  A block is a run of items or of keys and
values between its start and its end; brackets and braces hold entries between commas.  Anchors
name nodes for the references after them, each name once. -/
namespace EnvCensus.Yaml.Node

/-- What an anchor names: a node, or a collection that is still being read, by its place. -/
inductive Anchored where
  | node (n : Node)
  | unfinished (isMapping : Bool) (mark : Mark)

/-- The state of reading: the tokens ahead with the fault behind them, the tag handles of the
document and its anchors. -/
structure Source where
  tokens : List Token
  fault : Option Fault
  handles : List (String × String) := []
  anchors : List (String × Anchored) := []

abbrev Reader := StateT Source (Except Fault)

namespace Reader

def fail {α : Type} (stage : Stage) (mark : Mark) : Reader α :=
  throw (.malformed stage (some mark))

/-- The next token, which is not taken. -/
def peek : Reader Token := do
  let s ← get
  match s.tokens with
  | t :: _ => return t
  | [] => throw (s.fault.getD (.malformed .nesting none))

/-- Takes the next token. -/
def take : Reader Token := do
  let t ← peek
  modify fun s => { s with tokens := s.tokens.drop 1 }
  return t

/-- Whether the next token is one of the given marks. -/
def at? (kinds : List Token.Kind) : Reader Bool := do
  return kinds.contains (← peek).kind

/-- Takes the next token if it is the given mark. -/
def takeIf (kind : Token.Kind) : Reader (Option Token) := do
  if (← peek).kind == kind then return some (← take)
  return none

/-- Fails at the next token. -/
def unexpected {α : Type} : Reader α := do fail .nesting (← peek).start

/-- The node that stands for nothing at a place. -/
def nothing (mark : Mark) : Node := .scalar (Schema.suggested "") "" mark

end Reader

open Reader

/-- What may stand before the content of a node. -/
structure Properties where
  anchor : Option String := none
  label : Option TagLabel := none
  start : Option Mark := none
  labelMark : Mark := default
  stop : Mark := default

/-- An anchor, if one stands here. -/
def anchorProperty (p : Properties) : Reader Properties := do
  let t ← peek
  match t.kind with
  | .anchor name =>
    let _ ← take
    return { p with anchor := some name, start := p.start.or (some t.start), stop := t.stop }
  | _ => return p

/-- A tag, if one stands here. -/
def tagProperty (p : Properties) : Reader Properties := do
  let t ← peek
  match t.kind with
  | .tag label =>
    let _ ← take
    return { p with
      label := some label, start := p.start.or (some t.start), labelMark := t.start
      stop := t.stop }
  | _ => return p

/-- An anchor and a tag, in either order, or one of them, or none. -/
def properties : Reader Properties := do
  let p ← anchorProperty {}
  let p ← tagProperty p
  if p.label.isSome && p.anchor.isNone then anchorProperty p else return p

/-- The full name of a tag; the tag that leaves the choice open is none. -/
def tagName (p : Properties) : Reader (Option String) := do
  match p.label with
  | none => return none
  | some l =>
    let name ← match l.handle with
      | none => pure l.suffix
      | some h =>
        match (← get).handles.lookup h with
        | some lead => pure (lead ++ l.suffix)
        | none => fail .nesting p.labelMark
    return some name

/-- The tag of a scalar; without a name, a plain one has the tag that its form suggests. -/
def scalarTag (name : Option String) (text : String) (plain : Bool) : Tag :=
  match name with
  | none => if plain then Schema.suggested text else .str
  | some n => if n == "!" then Schema.suggested text else Tag.ofName n

def collectionTag (name : Option String) (default : Tag) : Tag :=
  match name with
  | none => default
  | some n => if n == "!" then default else Tag.ofName n

/-- Lets an anchor name something; no two anchors have one name. -/
def declare (anchor : Option String) (mark : Mark) (what : Anchored) : Reader Unit := do
  match anchor with
  | none => return
  | some name =>
    if ((← get).anchors.lookup name).isSome then fail .references mark
    modify fun s => { s with anchors := (name, what) :: s.anchors }

/-- Lets an anchor that was declared name a node. -/
def settle (anchor : Option String) (n : Node) : Reader Node := do
  match anchor with
  | none => return n
  | some name =>
    modify fun s => { s with
      anchors := s.anchors.map fun e => if e.1 == name then (name, .node n) else e }
    return n

def reference (name : String) (mark : Mark) : Reader Node := do
  match (← get).anchors.lookup name with
  | some (.node n) => return n
  | some (.unfinished isMapping start) => return .loop isMapping start
  | none => fail .references mark

/-- A node, or nothing at the given place if one of the marks follows. -/
def unless? (kinds : List Token.Kind) (mark : Mark) (node : Reader Node) : Reader Node := do
  if ← at? kinds then return nothing mark
  node

/-- The value after a key, in front of the given marks; it may be missing with its mark. -/
def valueNode (stops : List Token.Kind) (node : Reader Node) : Reader Node := do
  match ← takeIf .value with
  | some t => unless? stops t.stop node
  | none => return nothing (← peek).start

/-- The items of a block, at most `fuel`, to its end. -/
def blockItems (node : Reader Node) : Nat → List Node → Reader (List Node)
  | 0, _ => unexpected
  | fuel + 1, done => do
    match ← takeIf .item with
    | some t =>
      let n ← unless? [.item, .blockEnd] t.stop node
      blockItems node fuel (n :: done)
    | none =>
      if (← takeIf .blockEnd).isNone then unexpected
      return done.reverse

/-- Items that no block of their own encloses, at most `fuel`. -/
def bareItems (node : Reader Node) : Nat → List Node → Reader (List Node)
  | 0, _ => unexpected
  | fuel + 1, done => do
    match ← takeIf .item with
    | some t =>
      let n ← unless? [.item, .key, .value, .blockEnd] t.stop node
      bareItems node fuel (n :: done)
    | none => return done.reverse

/-- The keys and values of a block, at most `fuel`, to its end. -/
def blockEntries (node : Reader Node) : Nat → List (Node × Node) → Reader (List (Node × Node))
  | 0, _ => unexpected
  | fuel + 1, done => do
    match ← takeIf .key with
    | some t =>
      let k ← unless? [.key, .value, .blockEnd] t.stop node
      let v ← valueNode [.key, .value, .blockEnd] node
      blockEntries node fuel ((k, v) :: done)
    | none =>
      if (← takeIf .blockEnd).isNone then unexpected
      return done.reverse

/-- Takes the comma before an entry that is not the first. -/
def separator (isFirst : Bool) : Reader Unit := do
  if !isFirst then
    if (← takeIf .comma).isNone then unexpected

/-- A key with its value as an item between brackets. -/
def pairItem (start : Mark) (stop : Mark) (node : Reader Node) : Reader Node := do
  let k ← unless? [.value, .comma, .closeBracket] stop node
  let v ← valueNode [.comma, .closeBracket] node
  return .mapping .map [(k, v)] start

/-- The items between brackets, at most `fuel`, to the closing one. -/
def flowItems (node : Reader Node) : Nat → List Node → Reader (List Node)
  | 0, _ => unexpected
  | fuel + 1, done => do
    if (← takeIf .closeBracket).isSome then return done.reverse
    separator done.isEmpty
    match ← takeIf .key with
    | some t => do
      let n ← pairItem t.start t.stop node
      flowItems node fuel (n :: done)
    | none =>
      if (← takeIf .closeBracket).isSome then return done.reverse
      let n ← node
      flowItems node fuel (n :: done)

/-- The entries between braces, at most `fuel`, to the closing one; a node without a key mark is a
key without a value. -/
def flowEntries (node : Reader Node) : Nat → List (Node × Node) → Reader (List (Node × Node))
  | 0, _ => unexpected
  | fuel + 1, done => do
    if (← takeIf .closeBrace).isSome then return done.reverse
    separator done.isEmpty
    match ← takeIf .key with
    | some t => do
      let k ← unless? [.value, .comma, .closeBrace] t.stop node
      let v ← valueNode [.comma, .closeBrace] node
      flowEntries node fuel ((k, v) :: done)
    | none =>
      if (← takeIf .closeBrace).isSome then return done.reverse
      let k ← node
      let v := nothing (← peek).start
      flowEntries node fuel ((k, v) :: done)

/-- Where a node stands: inside brackets, or in a block, where it may be a value whose items need
no block of their own. -/
inductive Context where
  | flow
  | block
  | value
  deriving DecidableEq, Repr

/-- A sequence; `item` reads a node in it and `items` all of them. -/
def sequenceNode (p : Properties) (name : Option String) (start : Mark)
    (items : Reader (List Node)) : Reader Node := do
  declare p.anchor start (.unfinished false start)
  settle p.anchor (.sequence (collectionTag name .seq) (← items) start)

def mappingNode (p : Properties) (name : Option String) (start : Mark)
    (entries : Reader (List (Node × Node))) : Reader Node := do
  declare p.anchor start (.unfinished true start)
  settle p.anchor (.mapping (collectionTag name .map) (← entries) start)

def scalarNode (p : Properties) (name : Option String) (start : Mark) (text : String)
    (plain : Bool) : Reader Node := do
  let n := Node.scalar (scalarTag name text plain) text start
  declare p.anchor start (.node n)
  return n

/-- The content behind the properties; `node` reads a node one level deeper. -/
def content (context : Context) (fuel : Nat) (p : Properties) (node : Context → Reader Node) :
    Reader Node := do
  let name ← tagName p
  let t ← peek
  let start := p.start.getD t.start
  match t.kind, context with
  | .item, .value => sequenceNode p name start (bareItems (node .block) fuel [])
  | .scalar text plain, _ => do
    let _ ← take
    scalarNode p name start text plain
  | .openBracket, _ => sequenceNode p name start do
      let _ ← take
      flowItems (node .flow) fuel []
  | .openBrace, _ => mappingNode p name start do
      let _ ← take
      flowEntries (node .flow) fuel []
  | .blockSequence, .flow => unexpected
  | .blockMapping, .flow => unexpected
  | .blockSequence, _ => sequenceNode p name start do
      let _ ← take
      blockItems (node .block) fuel []
  | .blockMapping, _ => mappingNode p name start do
      let _ ← take
      blockEntries (node .value) fuel []
  | _, _ =>
    if p.start.isSome then scalarNode p name start "" true
    else unexpected

/-- A node of at most `fuel` levels and as many entries on each. -/
def node : Nat → Context → Reader Node
  | 0, _ => unexpected
  | fuel + 1, context => do
    let t ← peek
    match t.kind with
    | .alias name => do
      let _ ← take
      reference name t.start
    | _ => content context fuel (← properties) (node fuel)

/-- Handles that every document has. -/
def defaultHandles : List (String × String) := [("!", "!"), ("!!", Tag.lead)]

/-- The directives before a document, at most `fuel`: one version at most, and tag handles. -/
def directives : Nat → Bool → List (String × String) → Reader (List (String × String))
  | 0, _, _ => unexpected
  | fuel + 1, versioned, handles => do
    let t ← peek
    match t.kind with
    | .directive d => do
      let _ ← take
      match d with
      | .version major =>
        if versioned || major ≠ 1 then fail .nesting t.start
        directives fuel true handles
      | .handle name lead =>
        if (handles.lookup name).isSome then fail .nesting t.start
        directives fuel versioned (handles ++ [(name, lead)])
      | .other => directives fuel versioned handles
    | _ => return handles

/-- The directives and the mark at the head of a document. -/
def head (fuel : Nat) : Reader Unit := do
  let handles ← directives fuel false []
  if (← takeIf .documentStart).isNone then unexpected
  modify fun s => { s with handles := handles ++ defaultHandles }

/-- A document that starts with a mark or with directives. -/
def explicitDocument (fuel : Nat) : Reader Node := do
  head fuel
  let t ← peek
  match t.kind with
  | .directive _ => return nothing t.start
  | .documentStart => return nothing t.start
  | .documentEnd => return nothing t.start
  | .streamEnd => return nothing t.start
  | _ => node fuel .block

def document (fuel : Nat) : Reader Node := do
  match (← peek).kind with
  | .directive _ => explicitDocument fuel
  | .documentStart => explicitDocument fuel
  | _ =>
    modify fun s => { s with handles := defaultHandles }
    node fuel .block

/-- Takes the marks after a document, at most `fuel`. -/
def skipEnds : Nat → Reader Unit
  | 0 => return
  | fuel + 1 => do
    if (← takeIf .documentEnd).isSome then skipEnds fuel

/-- The only document of a text; a text may hold none. -/
def single (fuel : Nat) : Reader (Option Node) := do
  if ← at? [.streamEnd] then return none
  let n ← document fuel
  skipEnds fuel
  let t ← peek
  if t.kind == .streamEnd then return some n
  head fuel
  fail .references t.start

/-- The collections that anchors name. -/
def Source.collections (s : Source) : List Node :=
  s.anchors.filterMap fun
    | (_, .node (.scalar ..)) => none
    | (_, .node n) => some n
    | (_, .unfinished ..) => none

/-- The node of a text, if it holds one, with the collections that loops may lead to. -/
def ofText? (cs : List Char) : Except Fault (Option (Node × List Node)) :=
  let ts := Tokens.ofText cs
  let read := single (2 * ts.tokens.length + 2) { tokens := ts.tokens, fault := ts.fault }
  read.map fun (n, s) => n.map fun n => (n, s.collections)

end EnvCensus.Yaml.Node
