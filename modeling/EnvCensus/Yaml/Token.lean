import EnvCensus.Yaml.Label
import EnvCensus.Yaml.Scalar

/-! Tokens of a document.  Besides the marks and scalars that the text holds there are tokens
without a text: the start and the end of a block, which indentation alone shows, and the key mark
of a key that only the colon behind it reveals.  Until a colon can no longer follow, such a token
may still come to stand before tokens that have been read. -/
namespace EnvCensus.Yaml

inductive Token.Kind where
  | streamEnd
  | directive (d : Directive)
  | documentStart
  | documentEnd
  | blockSequence
  | blockMapping
  | blockEnd
  | openBracket
  | closeBracket
  | openBrace
  | closeBrace
  | item
  | comma
  | key
  | value
  | alias (name : String)
  | anchor (name : String)
  | tag (label : TagLabel)
  | scalar (text : String) (plain : Bool)
  deriving DecidableEq, Repr

structure Token where
  kind : Token.Kind
  start : Mark
  stop : Mark
  deriving DecidableEq, Repr

/-- Tokens up to a fault or to the end. -/
structure Tokens where
  tokens : List Token
  fault : Option Fault

/-- A place among the tokens where a key may turn out to start. -/
structure Candidate where
  place : Nat
  required : Bool
  index : Nat
  mark : Mark
  deriving DecidableEq, Repr

/-- The state of reading: the tokens so far, the columns of open blocks, innermost first, the
depth of open brackets, whether a key may start here, and at most one candidate for each depth. -/
structure Layout where
  cursor : Cursor
  tokens : Array Token := #[]
  blocks : List Nat := []
  depth : Nat := 0
  keyAllowed : Bool := true
  candidates : List (Nat × Candidate) := []

namespace Layout

def inFlow (s : Layout) : Bool := s.depth ≠ 0

def push (s : Layout) (kind : Token.Kind) (start stop : Mark) : Layout :=
  { s with tokens := s.tokens.push ⟨kind, start, stop⟩ }

def insert (s : Layout) (place : Nat) (kind : Token.Kind) (mark : Mark) : Layout :=
  { s with tokens := s.tokens.insertIdxIfInBounds place ⟨kind, mark, mark⟩ }

/-- Candidates on the current line, at most 1024 characters back, remain; a required one may not
go. -/
def dropStale (s : Layout) : Except Fault Layout :=
  let stale (k : Candidate) : Bool :=
    k.mark.line ≠ s.cursor.line || s.cursor.index - k.index > 1024
  if s.candidates.any fun e => stale e.2 && e.2.required then .error s.cursor.fault
  else .ok { s with candidates := s.candidates.filter fun e => !stale e.2 }

/-- The state without the candidate of the current depth. -/
def dropCandidate (s : Layout) : Except Fault Layout :=
  match s.candidates.lookup s.depth with
  | none => .ok s
  | some k =>
    if k.required then .error s.cursor.fault
    else .ok { s with candidates := s.candidates.filter fun e => e.1 ≠ s.depth }

/-- Notes that the next token may start a key; it has to, if it starts a line of its block. -/
def noteCandidate (s : Layout) : Except Fault Layout :=
  if s.keyAllowed then do
    let required := !s.inFlow && s.blocks.head? == some s.cursor.column
    let s ← s.dropCandidate
    let k : Candidate := ⟨s.tokens.size, required, s.cursor.index, s.cursor.mark⟩
    return { s with candidates := (s.depth, k) :: s.candidates }
  else .ok s

/-- Ends the blocks whose column fails the test. -/
def endBlocks (keep : Nat → Bool) (s : Layout) : Layout :=
  if s.inFlow then s
  else
    let ended := s.blocks.takeWhile fun n => !keep n
    let m := s.cursor.mark
    { s with
      tokens := s.tokens ++ (ended.map fun _ => (⟨.blockEnd, m, m⟩ : Token)).toArray
      blocks := s.blocks.dropWhile fun n => !keep n }

/-- Whether a block at this column would be inside the current one. -/
def isDeeper (s : Layout) (column : Nat) : Bool := s.blocks.head?.all (· < column)

/-- Starts a block at the current column, if it is deeper than the current block. -/
def startBlock (kind : Token.Kind) (s : Layout) : Layout :=
  if s.isDeeper s.cursor.column then
    { s.push kind s.cursor.mark s.cursor.mark with blocks := s.cursor.column :: s.blocks }
  else s

/-- Reads a mark of `n` characters. -/
def take (s : Layout) (kind : Token.Kind) (n : Nat) : Layout :=
  let after := s.cursor.skip n
  { s.push kind s.cursor.mark after.mark with cursor := after }

/-- The place of the next token, in at most `fuel` lines, and whether a line has ended. -/
def nextPlace : Nat → Bool → Cursor → Bool × Cursor
  | 0, broken, c => (broken, c)
  | fuel + 1, broken, c =>
    let c := c.skipSpaces.skipComment
    match c.lineBreak? with
    | some (_, after) => nextPlace fuel true after
    | none => (broken, c)

/-- The state before the next token; a new line outside of brackets may start with a key. -/
def approach (s : Layout) : Layout :=
  let c := s.cursor
  let c := if c.index == 0 && c.head == some '\uFEFF' then c.next else c
  let (broken, c) := nextPlace (c.rest.length + 1) false c
  { s with cursor := c, keyAllowed := s.keyAllowed || (broken && !s.inFlow) }

def finish (s : Layout) : Except Fault Layout := do
  let s ← (s.endBlocks fun _ => false).dropCandidate
  return { s.take .streamEnd 0 with keyAllowed := false, candidates := [] }

/-- A mark at the start of a line that no block contains. -/
def topLevel (s : Layout) : Except Fault Layout := do
  let s ← (s.endBlocks fun _ => false).dropCandidate
  return { s with keyAllowed := false }

def readDirective (s : Layout) : Except Fault Layout := do
  let s ← s.topLevel
  let (d, after) ← Label.directive s.cursor
  return { s.push (.directive d) s.cursor.mark after.mark with cursor := after }

def openFlow (s : Layout) (kind : Token.Kind) : Except Fault Layout := do
  let s ← s.noteCandidate
  return { s.take kind 1 with depth := s.depth + 1, keyAllowed := true }

def closeFlow (s : Layout) (kind : Token.Kind) : Except Fault Layout := do
  let s ← s.dropCandidate
  return { s.take kind 1 with depth := s.depth - 1, keyAllowed := false }

def readComma (s : Layout) : Except Fault Layout := do
  let s ← s.dropCandidate
  return { s.take .comma 1 with keyAllowed := true }

/-- The state before a mark that may start a block of the given kind. -/
def enterBlock (s : Layout) (kind : Token.Kind) : Except Fault Layout :=
  if s.inFlow then .ok s
  else if !s.keyAllowed then .error s.cursor.fault
  else .ok (s.startBlock kind)

def readItem (s : Layout) : Except Fault Layout := do
  let s ← (← s.enterBlock .blockSequence).dropCandidate
  return { s.take .item 1 with keyAllowed := true }

def readKey (s : Layout) : Except Fault Layout := do
  let s ← (← s.enterBlock .blockMapping).dropCandidate
  return { s.take .key 1 with keyAllowed := !s.inFlow }

/-- Puts the key mark before the candidate, and the start of a mapping if it is the first key. -/
def revealKey (s : Layout) (k : Candidate) : Layout :=
  let s := { s with
    candidates := s.candidates.filter fun e => e.1 ≠ s.depth
    keyAllowed := false }
  let s := s.insert k.place .key k.mark
  if !s.inFlow && s.isDeeper k.mark.column then
    { s.insert k.place .blockMapping k.mark with blocks := k.mark.column :: s.blocks }
  else s

def readValue (s : Layout) : Except Fault Layout := do
  match s.candidates.lookup s.depth with
  | some k => return (s.revealKey k).take .value 1
  | none =>
    let s ← (← s.enterBlock .blockMapping).dropCandidate
    return { s.take .value 1 with keyAllowed := !s.inFlow }

/-- A token that may be a key, or part of one, and that no key may follow directly. -/
def readKeyPart (s : Layout) (read : Cursor → Except Fault (Token.Kind × Cursor)) : Except Fault Layout := do
  let s ← s.noteCandidate
  let (kind, after) ← read s.cursor
  return { s.push kind s.cursor.mark after.mark with cursor := after, keyAllowed := false }

def readQuoted (s : Layout) (double : Bool) : Except Fault Layout :=
  s.readKeyPart fun c => do
    let v ← Quoted.read double c
    return (.scalar (String.ofList v.text) false, v.after)

/-- The columns by which the contents of the current block are indented. -/
def indent (s : Layout) : Nat := (s.blocks.head?.map (· + 1)).getD 0

def readBlock (s : Layout) (folded : Bool) : Except Fault Layout := do
  let s ← s.dropCandidate
  let v ← Block.read folded s.indent s.cursor
  return { s.push (.scalar (String.ofList v.text) false) s.cursor.mark v.stop with
    cursor := v.after, keyAllowed := true }

def readPlain (s : Layout) : Except Fault Layout := do
  let s ← s.noteCandidate
  let (v, broken) := Plain.read s.inFlow s.indent s.cursor
  return { s.push (.scalar (String.ofList v.text) true) s.cursor.mark v.stop with
    cursor := v.after, keyAllowed := broken }

/-- Characters that do not start a plain scalar, whatever follows. -/
def isReserved (c : Char) : Bool :=
  ",[]\x7b\x7d#&*!|>'\"%@\x60".toList.contains c || endsWord (some c)

/-- Whether a plain scalar starts here: some marks start one before a word. -/
def startsPlain (s : Layout) (ch : Char) : Bool :=
  let beforeWord := !endsWord (s.cursor.peek 1)
  if ch == '-' then beforeWord
  else if ch == '?' || ch == ':' then beforeWord && !s.inFlow
  else !isReserved ch

/-- Whether a key or value mark stands here. -/
def atMark (s : Layout) : Bool := s.inFlow || endsWord (s.cursor.peek 1)

/-- Reads the next token; its first character is `ch`. -/
def readAt (s : Layout) (ch : Char) : Except Fault Layout :=
  let c := s.cursor
  if ch == '%' && c.column == 0 then s.readDirective
  else if c.column == 0 && c.atTriple '-' then return (← s.topLevel).take .documentStart 3
  else if c.column == 0 && c.atTriple '.' then return (← s.topLevel).take .documentEnd 3
  else if ch == '[' then s.openFlow .openBracket
  else if ch == '\x7b' then s.openFlow .openBrace
  else if ch == ']' then s.closeFlow .closeBracket
  else if ch == '\x7d' then s.closeFlow .closeBrace
  else if ch == ',' then s.readComma
  else if ch == '-' && endsWord (c.peek 1) then s.readItem
  else if ch == '?' && s.atMark then s.readKey
  else if ch == ':' && s.atMark then s.readValue
  else if ch == '*' then
    s.readKeyPart fun c => (Label.anchor c).map fun (n, after) => (.alias n, after)
  else if ch == '&' then
    s.readKeyPart fun c => (Label.anchor c).map fun (n, after) => (.anchor n, after)
  else if ch == '!' then
    s.readKeyPart fun c => (Label.tag c).map fun (t, after) => (.tag t, after)
  else if ch == '|' && !s.inFlow then s.readBlock false
  else if ch == '>' && !s.inFlow then s.readBlock true
  else if ch == '\'' then s.readQuoted false
  else if ch == '"' then s.readQuoted true
  else if s.startsPlain ch then s.readPlain
  else .error c.fault

/-- Reads one more token of the text. -/
def step (s : Layout) : Except Fault Layout := do
  let s ← s.approach.dropStale
  let s := s.endBlocks fun n => n ≤ s.cursor.column
  let s ← match s.cursor.head with
    | none => s.finish
    | some ch => s.readAt ch
  s.dropStale

/-- The count of tokens before which no key mark can come to stand any more. -/
def settled (s : Layout) : Nat :=
  s.candidates.foldl (fun n e => min n e.2.place) s.tokens.size

def isFinished (s : Layout) : Bool := s.tokens.back?.any fun t => t.kind == .streamEnd

/-- Reads at most `fuel` more tokens; before a fault only the settled tokens count. -/
def run : Nat → Layout → Tokens
  | 0, s => ⟨s.tokens.toList, none⟩
  | fuel + 1, s =>
    match s.step with
    | .error e => ⟨s.tokens.toList.take s.settled, some e⟩
    | .ok t => if t.isFinished then ⟨t.tokens.toList, none⟩ else run fuel t

end Layout

/-- The tokens of a text. -/
def Tokens.ofText (cs : List Char) : Tokens :=
  Layout.run (cs.length + 2) { cursor := { rest := cs } }

end EnvCensus.Yaml
