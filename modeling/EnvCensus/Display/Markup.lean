import EnvCensus.Display.Constant
import EnvCensus.Display.Pictograph
import EnvCensus.Display.Style

/-! Marked-up text.  A tag in square brackets opens a style; a tag that begins with a slash closes
the style that it names, or the last one when it names none.  Tags do not show; a backslash before
a tag makes it show.  A style whose name begins with an at sign is an action, and what follows an
equals sign in its tag are the parameters of it. -/
namespace EnvCensus.Display.Markup

/-- Whether a character may stand first in a tag. -/
def startsTag (c : Char) : Bool :=
  ('a' ≤ c && c ≤ 'z') || c == '#' || c == '/' || c == '@'

/-- The tag after an opening bracket and what follows its closing bracket. -/
def tag? (cs : List Char) : Option (List Char × List Char) :=
  match cs with
  | c :: _ =>
    if startsTag c then
      match cs.dropWhile (fun d => d != ']' && d != '[') with
      | ']' :: rest => some (cs.takeWhile (fun d => d != ']' && d != '['), rest)
      | _ => none
    else none
  | [] => none

theorem tag?_length {cs tag rest : List Char} (h : tag? cs = some (tag, rest)) :
    rest.length < cs.length := by
  unfold tag? at h
  split at h
  · split at h
    · split at h
      · rename_i c cs _ _ r hr
        have := (List.dropWhile_sublist (p := fun d => d != ']' && d != '[') (l := c :: cs)).length_le
        rw [hr] at this
        simp only [Option.some.injEq, Prod.mk.injEq] at h
        obtain ⟨_, rfl⟩ := h
        simp only [List.length_cons] at this ⊢
        omega
      · cases h
    · cases h
  · cases h

/-- A part of a text with markup. -/
inductive Part where
  | plain (cs : List Char)
  | tag (cs : List Char)
  deriving DecidableEq, Repr

/-- Characters put before the parts. -/
def Part.prepend (c : Char) : List Part → List Part
  | plain cs :: rest => plain (c :: cs) :: rest
  | rest => plain [c] :: rest

/-- The parts that backslashes before a tag stand for: half of them, and the tag itself as plain
text when their number is odd. -/
def guardedTag (slashes : Nat) (tag : List Char) : List Part :=
  (if slashes < 2 then [] else [.plain (List.replicate (slashes / 2) '\\')]) ++
    [if slashes % 2 == 1 then .plain ('[' :: tag ++ [']']) else .tag tag]

/-- The parts of a text after `slashes` backslashes. -/
def partsAfter (slashes : Nat) : List Char → List Part
  | [] => if slashes == 0 then [] else [.plain (List.replicate slashes '\\')]
  | '\\' :: rest => partsAfter (slashes + 1) rest
  | '[' :: rest =>
    match h : tag? rest with
    | some (tag, after) =>
      have : after.length < rest.length + 1 := Nat.lt_succ_of_lt (tag?_length h)
      guardedTag slashes tag ++ partsAfter 0 after
    | none => (List.replicate slashes '\\').foldr Part.prepend (Part.prepend '[' (partsAfter 0 rest))
  | c :: rest => (List.replicate slashes '\\').foldr Part.prepend (Part.prepend c (partsAfter 0 rest))
termination_by cs => cs.length

def parts (cs : List Char) : List Part := partsAfter 0 cs

/-- Plain text as it shows: a backslash before a bracket is dropped and pictographs stand for their
names. -/
def unescaped : List Char → List Char
  | '\\' :: '[' :: rest => '[' :: unescaped rest
  | c :: rest => c :: unescaped rest
  | [] => []

/-- An open style: the normal form of its name, and what follows an equals sign behind the name. -/
structure Opened where
  name : String
  parameters : Option (List Char)
  deriving DecidableEq, Repr

/-- What is wrong with a tag: it closes nothing, it closes an action whose parameters are no
constant, or a part of a colour in it is no number. -/
inductive Fault where
  | unopened
  | parameters
  | noNumber (part : List Char)
  deriving DecidableEq, Repr

/-- The name of a tag, before the sign of its value. -/
def tagName (tag : List Char) : List Char := tag.takeWhile (· != '=')

def tagParameters (tag : List Char) : Option (List Char) :=
  match tag.dropWhile (· != '=') with
  | _ :: value => some value
  | [] => none

def normalName (name : List Char) : Except Fault String :=
  (Style.normalForm (String.ofList name)).mapError .noNumber

/-- The last open style of a name and the others. -/
def closeNamed (name : String) : List Opened → Option (Opened × List Opened)
  | [] => none
  | s :: rest =>
    if s.name == name then some (s, rest)
    else (closeNamed name rest).map fun (t, others) => (t, s :: others)

/-- Whether a style can be closed: the parameters of an action are a constant. -/
def canClose (s : Opened) : Bool :=
  s.name.toList.head? != some '@' ||
    ((s.parameters.filter fun cs => !cs.isEmpty).all Constant.areParameters)

/-- The open styles, the last first, after a tag. -/
def afterTag (opened : List Opened) (tag : List Char) : Except Fault (List Opened) :=
  match tagName tag with
  | '/' :: name => do
    let closed ←
      if (Text.trim name).isEmpty then
        pure (opened.head?.map fun s => (s, opened.tail))
      else do
        pure (closeNamed (← normalName (Text.trim name)) opened)
    match closed with
    | none => throw .unopened
    | some (s, others) => if canClose s then return others else throw .parameters
  | name => do return ⟨← normalName name, tagParameters tag⟩ :: opened

/-- The characters of the parts that show, with the styles that are open before them. -/
def shown (opened : List Opened) : List Part → Except Fault (List Char)
  | [] => .ok []
  | .plain cs :: rest => do return Pictograph.replaced (unescaped cs) ++ (← shown opened rest)
  | .tag cs :: rest => do shown (← afterTag opened cs) rest

/-- Controls that no text on display holds. -/
def isDropped (c : Char) : Bool := [7, 8, 11, 12, 13].contains c.toNat

def withoutControls (cs : List Char) : List Char := cs.filter fun c => !isDropped c

/-- What a text with markup shows. -/
def read (s : String) : Except Fault (List Char) :=
  if s.toList.contains '[' then (shown [] (parts s.toList)).map withoutControls
  else .ok (withoutControls (Pictograph.replaced s.toList))

end EnvCensus.Display.Markup
