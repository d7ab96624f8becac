import EnvCensus.Text.CaseTable

/-! Case of texts.  `fold` removes case differences and `swap` exchanges the two cases, both for
every script; `lowerAscii` and `upperAscii` touch the ASCII letters alone and serve where a text
is compared with a fixed ASCII word that no other letter maps into. -/
namespace EnvCensus.Text

/-- The counterpart of a code point in a table of runs and long entries. -/
def caseMapped (runs : List CaseRun) (long : List (Nat × List Nat)) (n : Nat) :
    Option (List Char) :=
  match runs.find? fun r => r.first ≤ n && n ≤ r.last && (n - r.first) % r.step == 0 with
  | some r => some [Char.ofNat (n + r.shift).toNat]
  | none => (long.find? fun e => e.1 == n).map fun e => e.2.map Char.ofNat

def foldChar (c : Char) : List Char :=
  if c.toNat < 128 then [c.toLower]
  else (caseMapped foldRuns foldLong c.toNat).getD [c]

/-- The text with case differences removed. -/
def fold (cs : List Char) : List Char := cs.flatMap foldChar

def isCased (c : Char) : Bool :=
  if c.toNat < 128 then c.isAlpha else inRanges casedRanges c.toNat

def isCaseSkipped (c : Char) : Bool :=
  if c.toNat < 128 then ['\'', '.', ':', '^', '\x60'].contains c
  else inRanges caseSkippedRanges c.toNat

/-- Whether the nearest character that counts, if any, has a case. -/
def casedNext (cs : List Char) : Bool :=
  match cs.dropWhile isCaseSkipped with
  | [] => false
  | c :: _ => isCased c

/-- A capital sigma ends a word when a cased character stands before it and none after it. -/
def smallSigma (before after : List Char) : Char :=
  if casedNext before && !casedNext after then 'ς' else 'σ'

/-- The opposite case of one character, between the text before it (reversed) and after it. -/
def swapChar (before : List Char) (c : Char) (after : List Char) : List Char :=
  if c.toNat < 128 then [if c.isUpper then c.toLower else c.toUpper]
  else if c == 'Σ' then [smallSigma before after]
  else
    match caseMapped lowerRuns lowerLong c.toNat with
    | some cs => cs
    | none => (caseMapped upperRuns upperLong c.toNat).getD [c]

/-- The opposite case of a text that follows `before` (reversed). -/
def swapAfter (before : List Char) : List Char → List Char
  | [] => []
  | c :: rest => swapChar before c rest ++ swapAfter (c :: before) rest

def swap (cs : List Char) : List Char := swapAfter [] cs

def lowerAscii (s : String) : String := String.ofList (s.toList.map Char.toLower)

def upperAscii (s : String) : String := String.ofList (s.toList.map Char.toUpper)

end EnvCensus.Text
