import EnvCensus.Text.Blank
import EnvCensus.Text.Case
import EnvCensus.Text.Code

/-! Styles by name.  A style lists attributes and colours in words; styles that come to the same
have one normal form, in which the attributes stand in a fixed order and the colours after them. -/
namespace EnvCensus.Display.Style

/-- Attributes with their short names, in the order of normal forms. -/
def attributeNames : List (String × List String) :=
  [("bold", ["b"]), ("dim", ["d"]), ("italic", ["i"]), ("underline", ["u"]), ("blink", []),
   ("blink2", []), ("reverse", ["r"]), ("conceal", ["c"]), ("strike", ["s"]),
   ("underline2", ["uu"]), ("frame", []), ("encircle", []), ("overline", ["o"])]

/-- The attribute that a word names. -/
def attributeOf? (word : String) : Option String :=
  (attributeNames.find? fun a => a.1 == word || a.2.contains word).map (·.1)

/-- Rows of the names of colours. -/
def colorRows : List String :=
  ["black red green yellow blue magenta cyan white bright_black bright_red bright_green",
   "bright_yellow bright_blue bright_magenta bright_cyan bright_white grey0 gray0 navy_blue",
   "dark_blue blue3 blue1 dark_green deep_sky_blue4 dodger_blue3 dodger_blue2 green4",
   "spring_green4 turquoise4 deep_sky_blue3 dodger_blue1 green3 spring_green3 dark_cyan",
   "light_sea_green deep_sky_blue2 deep_sky_blue1 spring_green2 cyan3 dark_turquoise",
   "turquoise2 green1 spring_green1 medium_spring_green cyan2 cyan1 dark_red deep_pink4",
   "purple4 purple3 blue_violet orange4 grey37 gray37 medium_purple4 slate_blue3",
   "royal_blue1 chartreuse4 dark_sea_green4 pale_turquoise4 steel_blue steel_blue3",
   "cornflower_blue chartreuse3 cadet_blue sky_blue3 steel_blue1 pale_green3 sea_green3",
   "aquamarine3 medium_turquoise chartreuse2 sea_green2 sea_green1 aquamarine1",
   "dark_slate_gray2 dark_magenta dark_violet purple light_pink4 plum4 medium_purple3",
   "slate_blue1 yellow4 wheat4 grey53 gray53 light_slate_grey light_slate_gray",
   "medium_purple light_slate_blue dark_olive_green3 dark_sea_green light_sky_blue3",
   "sky_blue2 dark_sea_green3 dark_slate_gray3 sky_blue1 chartreuse1 light_green",
   "pale_green1 dark_slate_gray1 red3 medium_violet_red magenta3 dark_orange3 indian_red",
   "hot_pink3 medium_orchid3 medium_orchid medium_purple2 dark_goldenrod light_salmon3",
   "rosy_brown grey63 gray63 medium_purple1 gold3 dark_khaki navajo_white3 grey69 gray69",
   "light_steel_blue3 light_steel_blue yellow3 dark_sea_green2 light_cyan3 light_sky_blue1",
   "green_yellow dark_olive_green2 dark_sea_green1 pale_turquoise1 deep_pink3 magenta2",
   "hot_pink2 orchid medium_orchid1 orange3 light_pink3 pink3 plum3 violet light_goldenrod3",
   "tan misty_rose3 thistle3 plum2 khaki3 light_goldenrod2 light_yellow3 grey84 gray84",
   "light_steel_blue1 yellow2 dark_olive_green1 honeydew2 light_cyan1 red1 deep_pink2",
   "deep_pink1 magenta1 orange_red1 indian_red1 hot_pink dark_orange salmon1 light_coral",
   "pale_violet_red1 orchid2 orchid1 orange1 sandy_brown light_salmon1 light_pink1 pink1",
   "plum1 gold1 navajo_white1 misty_rose1 thistle1 yellow1 light_goldenrod1 khaki1 wheat1",
   "cornsilk1 grey100 gray100 grey3 gray3 grey7 gray7 grey11 gray11 grey15 gray15 grey19",
   "gray19 grey23 gray23 grey27 gray27 grey30 gray30 grey35 gray35 grey39 gray39 grey42",
   "gray42 grey46 gray46 grey50 gray50 grey54 gray54 grey58 gray58 grey62 gray62 grey66",
   "gray66 grey70 gray70 grey74 gray74 grey78 gray78 grey82 gray82 grey85 gray85 grey89",
   "gray89 grey93 gray93"]

/-- The colours that have names. -/
def colorNames : List String := colorRows.flatMap fun row => row.splitOn " "

/-- A number of digits that is at most 255. -/
def isOctet (cs : List Char) : Bool :=
  !cs.isEmpty && cs.all Char.isDigit &&
    decide (cs.foldl (fun n c => 10 * n + (c.toNat - 48)) 0 ≤ 255)

/-- The pieces of a text between commas. -/
def commaPieces (cs : List Char) : List (List Char) :=
  cs.foldr (fun c pieces =>
    if c == ',' then [] :: pieces
    else
      match pieces with
      | p :: more => (c :: p) :: more
      | [] => [[c]]) [[]]

/-- What stands between a beginning and a closing bracket that ends the text. -/
def between? (opening : String) (cs : List Char) : Option (List Char) :=
  if opening.toList.isPrefixOf cs && cs.getLast? == some ')' then
    some ((cs.drop opening.length).dropLast)
  else none

def isHexColor (cs : List Char) : Bool :=
  match cs with
  | '#' :: ds => ds.length == 6 && ds.all Text.isHexDigit
  | _ => false

/-- Whether a word in lower case is a colour: a name, a number or the parts of it. -/
def isColor (word : String) : Bool :=
  word == "default" || colorNames.contains word || isHexColor word.toList ||
    ((between? "color(" word.toList).any fun cs => decide (cs.length ≤ 3) && isOctet cs) ||
    (between? "rgb(" word.toList).any fun cs =>
      let parts := commaPieces cs
      parts.length == 3 && parts.all isOctet

/-- Why words are no style: one has no meaning in its place, or the parts of a colour, three of
them and of digits alone, are not all numbers. -/
inductive Misfit where
  | meaningless
  | noNumber (part : List Char)
  deriving DecidableEq, Repr

/-- The colour that a word in lower case names. -/
def color (word : String) : Except Misfit String :=
  if isColor word then .ok word
  else
    match (between? "rgb(" word.toList).filter fun cs =>
      cs.all (fun c => c.isDigit || c == ',') && (commaPieces cs).length == 3 with
    | some cs =>
      match (commaPieces cs).find? List.isEmpty with
      | some part => .error (.noNumber part)
      | none => .error .meaningless
    | none => .error .meaningless

/-- The parts of a style that have been read. -/
structure Parts where
  attributes : List (String × Bool) := []
  color : Option String := none
  background : Option String := none
  link : Option String := none

def Parts.set (p : Parts) (name : String) (on : Bool) : Parts :=
  { p with attributes := (p.attributes.filter fun a => a.1 != name) ++ [(name, on)] }

/-- Reads the words of a style, given with their forms in lower case. -/
def partsOf (p : Parts) : List (String × String) → Except Misfit Parts
  | [] => .ok p
  | [(_, word)] =>
    if word == "on" || word == "not" || word == "link" then .error .meaningless
    else
      match attributeOf? word with
      | some a => .ok (p.set a true)
      | none => (color word).map fun c => { p with color := some c }
  | (_, word) :: (original, next) :: rest =>
    if word == "on" then do
      let c ← color next
      partsOf { p with background := some c } rest
    else if word == "not" then
      match attributeOf? original with
      | some a => partsOf (p.set a false) rest
      | none => .error .meaningless
    else if word == "link" then partsOf { p with link := some original } rest
    else
      match attributeOf? word with
      | some a => partsOf (p.set a true) ((original, next) :: rest)
      | none => do
        let c ← color word
        partsOf { p with color := some c } ((original, next) :: rest)

/-- The normal form of what has been read. -/
def Parts.text (p : Parts) : String :=
  let attributes := attributeNames.filterMap fun a =>
    (p.attributes.lookup a.1).map fun on => if on then a.1 else "not " ++ a.1
  let words := attributes ++ p.color.toList ++
    (p.background.map fun c => ["on", c]).getD [] ++ (p.link.map fun l => ["link", l]).getD []
  if words.isEmpty then "none" else " ".intercalate words

/-- The words of a text. -/
def wordsOf (cs : List Char) : List String :=
  ((cs.splitBy fun a b => Text.isBlank a == Text.isBlank b).filter fun w =>
    !w.any Text.isBlank).map String.ofList

/-- The normal form of a style; what is no style is taken in lower case as it stands.  A part of a
colour that should be a number and is none is a fault. -/
def normalForm (s : String) : Except (List Char) String :=
  let words := wordsOf s.toList
  if words.isEmpty || Text.trimmed s == "none" then .ok "none"
  else
    match partsOf {} (words.map fun w => (w, Text.lowerAscii w)) with
    | .ok p => .ok p.text
    | .error .meaningless => .ok (Text.lowerAscii (Text.trimmed s))
    | .error (.noNumber part) => .error part

end EnvCensus.Display.Style
