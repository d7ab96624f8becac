import EnvCensus.Display.PictographTable
import EnvCensus.Text.Blank
import EnvCensus.Text.Case
import EnvCensus.Text.Code

/-! Pictographs by name.  A name between two colons stands for a pictograph; the name of a person
or a part of one may be followed by a skin tone, and any name by the way in which it is to be
shown.  Colons around anything else stand for themselves. -/
namespace EnvCensus.Display.Pictograph

/-- The skin tones, with the modifier of each. -/
def tones : List (String × Char) :=
  [("_light_skin_tone", Char.ofNat 0x1F3FB), ("_medium-light_skin_tone", Char.ofNat 0x1F3FC),
   ("_medium_skin_tone", Char.ofNat 0x1F3FD), ("_medium-dark_skin_tone", Char.ofNat 0x1F3FE),
   ("_dark_skin_tone", Char.ofNat 0x1F3FF)]

/-- The text without an ending, if it has it. -/
def without? (ending cs : List Char) : Option (List Char) :=
  if ending.isSuffixOf cs then some (cs.take (cs.length - ending.length)) else none

/-- Code points of no more than five hexadecimal digits with hyphens between them. -/
def codesFrom (n : Nat) : List Char → List Char
  | [] => [Char.ofNat n]
  | '-' :: rest => Char.ofNat n :: codesFrom 0 rest
  | d :: rest => codesFrom ((16 * n + Text.hexValue d) % 0x100000) rest

/-- The code points that a row gives for a name with its mark. -/
def inRow? (start : List Char) (row : String) : Option (List Char) :=
  ((row.splitOn " ").find? fun e => start.isPrefixOf e.toList).map fun e =>
    codesFrom 0 (e.toList.drop start.length)

/-- The code points that the table gives for a name with its mark. -/
def rowOf? (name : List Char) (mark : Char) : Option (List Char) :=
  pictographRows.findSome? (inRow? (name ++ [mark]))

/-- The pictograph of a name with a skin tone, whose modifier comes second. -/
def toned? (name : List Char) : Option (List Char) :=
  tones.findSome? fun (ending, modifier) => do
    let base ← without? ending.toList name
    match ← rowOf? base '~' with
    | c :: rest => some (c :: modifier :: rest)
    | [] => none

/-- The pictograph of a name. -/
def ofName? (name : List Char) : Option (List Char) :=
  if name.isEmpty || name.any (fun c => c == '=' || c == '~') then none
  else ((rowOf? name '=').or (rowOf? name '~')).or (toned? name)

/-- Endings of a name that say how it is to be shown, with the selector of each. -/
def variants : List (String × Char) :=
  [("-emoji", Char.ofNat 0xFE0F), ("-text", Char.ofNat 0xFE0E)]

/-- What a text between colons stands for. -/
def ofCode? (code : List Char) : Option (List Char) :=
  let lower := code.map Char.toLower
  match variants.findSome? fun (ending, c) => (without? ending.toList lower).map fun n => (n, c) with
  | some (name, selector) => (ofName? name).map (· ++ [selector])
  | none => ofName? lower

/-- The text up to the next colon and what follows that, when no blank comes before it. -/
def upToColon? (cs : List Char) : Option (List Char × List Char) :=
  match cs.dropWhile (fun c => c != ':' && !Text.isBlank c) with
  | ':' :: rest => some (cs.takeWhile (fun c => c != ':' && !Text.isBlank c), rest)
  | _ => none

theorem upToColon?_length {cs code rest : List Char} (h : upToColon? cs = some (code, rest)) :
    rest.length < cs.length := by
  unfold upToColon? at h
  split at h
  · rename_i r hr
    have := (List.dropWhile_sublist (p := fun c => c != ':' && !Text.isBlank c) (l := cs)).length_le
    rw [hr] at this
    simp only [Option.some.injEq, Prod.mk.injEq] at h
    obtain ⟨_, rfl⟩ := h
    simp only [List.length_cons] at this
    omega
  · cases h

/-- The text with pictographs for their names. -/
def replaced : List Char → List Char
  | [] => []
  | ':' :: rest =>
    match h : upToColon? rest with
    | some (code, after) =>
      have : after.length < rest.length + 1 := Nat.lt_succ_of_lt (upToColon?_length h)
      (ofCode? code).getD (':' :: code ++ [':']) ++ replaced after
    | none => ':' :: replaced rest
  | c :: rest => c :: replaced rest
termination_by cs => cs.length

end EnvCensus.Display.Pictograph
