import EnvCensus.Text.Code
import EnvCensus.Yaml.Cursor

/-! Labels of a document: anchors and aliases, tags of nodes, and the directives at its head. -/
namespace EnvCensus.Yaml

/-- A tag as written: a handle, if it has one, and the text after it. -/
structure TagLabel where
  handle : Option String
  suffix : String
  deriving DecidableEq, Repr

inductive Directive where
  | version (major : Nat)
  | handle (name lead : String)
  | other
  deriving DecidableEq, Repr

namespace Label

/-- Characters that may stand right after the name of an anchor. -/
def endsAnchor (c : Option Char) : Bool :=
  endsWord c || c.any fun ch => "?:,]\x7d%@\x60".toList.contains ch

def nameAt (c : Cursor) : List Char := c.rest.takeWhile isNameChar

/-- The name of an anchor or alias whose indicator stands here. -/
def anchor (c : Cursor) : Except Fault (String × Cursor) :=
  let c := c.next
  let name := nameAt c
  let after := c.skip name.length
  if name.isEmpty then .error c.fault
  else if !endsAnchor after.head then .error after.fault
  else .ok (String.ofList name, after)

/-- Characters of the text of a tag besides letters and digits. -/
def isTagChar (c : Char) : Bool :=
  c.isAlphanum || "-;/?:@&=+$,_.!~*'()[]".toList.contains c

/-- The bytes of escapes by percent signs, at most `fuel` of them. -/
def escapedBytes : Nat → List UInt8 → Cursor → Except Fault (List UInt8 × Cursor)
  | 0, done, c => .ok (done.reverse, c)
  | fuel + 1, done, c =>
    if c.head == some '%' then
      let c := c.next
      let ds := c.rest.take 2
      if ds.length == 2 && ds.all Text.isHexDigit then
        escapedBytes fuel (UInt8.ofNat (Text.hexNumber ds) :: done) (c.skip 2)
      else .error c.fault
    else .ok (done.reverse, c)

/-- The text of escapes by percent signs, whose bytes encode it. -/
def escapedText (c : Cursor) : Except Fault (List Char × Cursor) := do
  let (bytes, after) ← escapedBytes c.rest.length [] c
  match String.fromUTF8? ⟨bytes.toArray⟩ with
  | some s => return (s.toList, after)
  | none => throw c.fault

/-- Reads on behind the text `done`, in at most `fuel` steps. -/
def tagTextFrom : Nat → List Char → Cursor → Except Fault (List Char × Cursor)
  | 0, done, c => .ok (done, c)
  | fuel + 1, done, c =>
    if c.head == some '%' then
      match escapedText c with
      | .error e => .error e
      | .ok (cs, after) => tagTextFrom fuel (done ++ cs) after
    else
      let part := c.rest.takeWhile isTagChar
      if part.isEmpty then .ok (done, c)
      else tagTextFrom fuel (done ++ part) (c.skip part.length)

/-- The text of a tag, which may not be empty. -/
def tagText (c : Cursor) : Except Fault (String × Cursor) :=
  if c.head.any fun ch => ch == '%' || isTagChar ch then
    (tagTextFrom (c.rest.length + 1) [] c).map fun (cs, after) => (String.ofList cs, after)
  else .error c.fault

/-- A handle: an exclamation mark, alone before a space, or with a name and a second one. -/
def handle (c : Cursor) : Except Fault (String × Cursor) :=
  if c.head ≠ some '!' then .error c.fault
  else if c.peek 1 == some ' ' then .ok ("!", c.next)
  else
    let name := nameAt c.next
    let after := c.skip (name.length + 1)
    if after.head == some '!' then
      .ok (String.ofList ('!' :: name ++ ['!']), after.next)
    else .error after.fault

/-- Whether a second exclamation mark stands before the next blank. -/
def hasHandle (c : Cursor) : Bool :=
  (c.rest.takeWhile fun ch => !endsPart (some ch)).contains '!'

/-- A text in angle brackets, whose opening bracket was read. -/
def verbatim (c : Cursor) : Except Fault (TagLabel × Cursor) := do
  let (suffix, c) ← tagText c
  if c.head ≠ some '>' then throw c.fault
  return (⟨none, suffix⟩, c.next)

def shorthand (c : Cursor) : Except Fault (TagLabel × Cursor) := do
  if hasHandle c.next then
    let (h, c) ← handle c
    let (suffix, c) ← tagText c
    return (⟨some h, suffix⟩, c)
  else
    let (suffix, c) ← tagText c.next
    return (⟨some "!", suffix⟩, c)

/-- The tag whose exclamation mark stands here. -/
def tag (c : Cursor) : Except Fault (TagLabel × Cursor) := do
  let (t, after) ←
    if c.peek 1 == some '<' then verbatim (c.skip 2)
    else if endsWord (c.peek 1) then pure (⟨none, "!"⟩, c.next)
    else shorthand c
  if !endsPart after.head then throw after.fault
  return (t, after)

def number (c : Cursor) : Except Fault (Nat × Cursor) :=
  let ds := c.rest.takeWhile Char.isDigit
  if ds.isEmpty then .error c.fault
  else .ok (ds.foldl (fun n d => 10 * n + (d.toNat - '0'.toNat)) 0, c.skip ds.length)

def version (c : Cursor) : Except Fault (Directive × Cursor) := do
  let (major, c) ← number c.skipSpaces
  if c.head ≠ some '.' then throw c.fault
  let (_, c) ← number c.next
  if !endsPart c.head then throw c.fault
  return (.version major, c)

def handleDirective (c : Cursor) : Except Fault (Directive × Cursor) := do
  let (name, c) ← handle c.skipSpaces
  if c.head ≠ some ' ' then throw c.fault
  let (lead, c) ← tagText c.skipSpaces
  if !endsPart c.head then throw c.fault
  return (.handle name lead, c)

/-- The directive whose percent sign stands here, with its line. -/
def directive (c : Cursor) : Except Fault (Directive × Cursor) := do
  let c := c.next
  let name := nameAt c
  if name.isEmpty then throw c.fault
  let c := c.skip name.length
  if !endsPart c.head then throw c.fault
  let (d, c) ←
    if name == "YAML".toList then version c
    else if name == "TAG".toList then handleDirective c
    else pure (Directive.other, c.skipWhile fun ch => !isBreak ch)
  let c := c.skipSpaces.skipComment
  if !endsLine c.head then throw c.fault
  return (d, c.skipBreak)

end Label

end EnvCensus.Yaml
