import EnvCensus.Script.Cursor
import EnvCensus.Text.Blank
import EnvCensus.Text.Case
import EnvCensus.Text.Word

/-! Scripts inside component files.  The bodies of script elements, and the front matter of a page
that has one, are kept; everything else is blanked out, line feeds apart, so that places in the
script are places in the file. -/
namespace EnvCensus.Script

/-- A range of characters, from `start` up to `stop`. -/
structure Span where
  start : Nat
  stop : Nat
  deriving DecidableEq, Repr

/-- Letters of other scripts that count as an ASCII letter when case is disregarded. -/
def looseLetter (c : Char) : Char :=
  if c == 'ſ' then 's' else if c == 'İ' || c == 'ı' then 'i' else c.toLower

/-- What follows a word at the front of the text, case disregarded. -/
def afterLoose? : List Char → List Char → Option (List Char)
  | [], cs => some cs
  | w :: ws, c :: cs => if looseLetter c == w then afterLoose? ws cs else none
  | _ :: _, [] => none

/-- A closing tag at the front of the text: its length. -/
def closingTag? (cs : List Char) : Option Nat := do
  let rest ← afterLoose? "</script".toList cs
  match Text.trimLeft rest with
  | '>' :: after => some (cs.length - after.length)
  | _ => none

/-- The nearest closing tag: the characters before it, and its length. -/
def closingFrom (before : Nat) : List Char → Option (Nat × Nat)
  | [] => none
  | c :: cs =>
    if c == '<' then
      match closingTag? (c :: cs) with
      | some n => some (before, n)
      | none => closingFrom (before + 1) cs
    else closingFrom (before + 1) cs

/-- A script element at the front of a text. -/
structure Element where
  attributes : List Char
  bodyStart : Nat
  bodyLength : Nat
  length : Nat

/-- The element whose opening tag begins the text, up to the nearest closing tag. -/
def element? (cs : List Char) : Option Element := do
  let rest ← afterLoose? "<script".toList cs
  match rest with
  | [] => none
  | c :: _ =>
    if Text.isWordChar c then none
    else
      let attributes := rest.takeWhile (· ≠ '>')
      match rest.dropWhile (· ≠ '>') with
      | [] => none
      | _ :: body => do
        let bodyStart := 7 + attributes.length + 1
        let (n, close) ← closingFrom 0 body
        return ⟨attributes, bodyStart, n, bodyStart + n + close⟩

/-- The elements of a text whose first character stands at `at_`; `skip` characters belong to an
element that was found, and `found` holds the elements so far, latest first. -/
def elementsFrom (at_ skip : Nat) (found : List (Nat × Element)) :
    List Char → List (Nat × Element)
  | [] => found.reverse
  | c :: cs =>
    match skip with
    | k + 1 => elementsFrom (at_ + 1) k found cs
    | 0 =>
      if c == '<' then
        match element? (c :: cs) with
        | some e => elementsFrom (at_ + 1) (e.length - 1) ((at_, e) :: found) cs
        | none => elementsFrom (at_ + 1) 0 found cs
      else elementsFrom (at_ + 1) 0 found cs

/-- The script elements of a text, from left to right and without overlap. -/
def elements (cs : List Char) : List (Nat × Element) := elementsFrom 0 0 [] cs

/-- Whether a language attribute stands at the front of the text. -/
def namesTyped (cs : List Char) : Bool :=
  match (afterLoose? "lang".toList cs).map Text.trimLeft with
  | some ('=' :: rest) =>
    match Text.trimLeft rest with
    | q :: value =>
      (q == '"' || q == '\'') && (["ts", "typescript"].any fun w =>
        match afterLoose? w.toList value with
        | some (r :: _) => r == '"' || r == '\''
        | _ => false)
    | [] => false
  | _ => false

/-- Whether some attribute after `before` says that the script is typed. -/
def isTypedFrom (before : Option Char) : List Char → Bool
  | [] => false
  | c :: cs =>
    (!before.any Text.isWordChar && namesTyped (c :: cs)) || isTypedFrom (some c) cs

def Element.isTyped (e : Element) : Bool := isTypedFrom none e.attributes

def Element.span (at_ : Nat) (e : Element) : Span :=
  ⟨at_ + e.bodyStart, at_ + e.bodyStart + e.bodyLength⟩

/-- The length of the text before the nearest line that begins with a fence. -/
def fenceFrom (before : Nat) : List Char → Option Nat
  | [] => none
  | c :: cs =>
    if "\n---".toList.isPrefixOf (c :: cs) then some before else fenceFrom (before + 1) cs

/-- The front matter between two fences at the front of a page. -/
def frontMatter? (cs : List Char) : Option Span :=
  match Text.trimLeft cs with
  | '-' :: '-' :: '-' :: rest =>
    match rest.dropWhile fun c => c == ' ' || c == '\t' with
    | '\n' :: body =>
      let start := cs.length - body.length
      (fenceFrom 0 body).map fun n => ⟨start, start + n⟩
    | _ => none
  | _ => none

/-- Blanks in place of everything but line feeds. -/
def blanked (cs : List Char) : List Char := cs.map fun c => if c == '\n' then c else ' '

/-- The characters from `start` up to `stop`. -/
def slice (cs : List Char) (start stop : Nat) : List Char := (cs.drop start).take (stop - start)

/-- The spans as they stand and what lies between them blanked, from `position` on. -/
def keepFrom (content : List Char) (position : Nat) : List Span → List Char
  | [] => blanked (content.drop position)
  | s :: rest =>
    blanked (slice content position s.start) ++ slice content s.start s.stop ++
      keepFrom content s.stop rest

def Span.le (a b : Span) : Bool := a.start < b.start || (a.start == b.start && a.stop ≤ b.stop)

/-- The script of a component file and its dialect.  Only pages have front matter, which is
typed. -/
def extract (content : List Char) (suffix : String) : List Char × Dialect :=
  let matter := if suffix == ".astro" then (frontMatter? content).toList else []
  let found := elements content
  let spans := matter ++ found.map fun (at_, e) => e.span at_
  let typed := !matter.isEmpty || found.any fun (_, e) => e.isTyped
  (keepFrom content 0 (spans.mergeSort Span.le), if typed then .typescript else .javascript)

end EnvCensus.Script
