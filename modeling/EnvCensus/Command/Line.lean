/-! Command lines.  Options begin with a hyphen and may stand among the arguments; short options
can be written together, and the value of an option in the same word or in the next one.  Two
hyphens end the options. -/
namespace EnvCensus.Command

/-- An option: its names and whether it has a value. -/
structure OptionSpec where
  names : List String
  hasValue : Bool := true
  deriving DecidableEq, Repr

/-- What a command line says: the options in their order, named by the first of their names, and
the arguments. -/
structure Line where
  options : List (String × String) := []
  arguments : List String := []
  deriving DecidableEq, Repr

namespace Line

def find? (specs : List OptionSpec) (name : String) : Option OptionSpec :=
  specs.find? fun s => s.names.contains name

def key (s : OptionSpec) : String := s.names.headD ""

def withOption (l : Line) (s : OptionSpec) (value : String) : Line :=
  { l with options := l.options ++ [(key s, value)] }

/-- The options that the letters of one word name, and the words after it that are left; `none`
stands for a word that the last option takes as its value from the words that follow. -/
def letters (specs : List OptionSpec) (words : List String) (l : Line) :
    List Char → Option (Line × List String)
  | [] => some (l, words)
  | c :: rest =>
    match find? specs (String.ofList ['-', c]) with
    | none => none
    | some s =>
      if !s.hasValue then letters specs words (l.withOption s "") rest
      else if !rest.isEmpty then some (l.withOption s (String.ofList rest), words)
      else
        match words with
        | w :: words => some (l.withOption s w, words)
        | [] => none

theorem letters_length {specs : List OptionSpec} {words left : List String} {l m : Line}
    {cs : List Char} (h : letters specs words l cs = some (m, left)) :
    left.length ≤ words.length := by
  induction cs generalizing l with
  | nil => simp only [letters, Option.some.injEq, Prod.mk.injEq] at h; simp [h.2]
  | cons c rest ih =>
    unfold letters at h
    split at h
    · cases h
    · split at h
      · exact ih h
      · split at h
        · simp only [Option.some.injEq, Prod.mk.injEq] at h; simp [h.2]
        · split at h
          · simp only [Option.some.injEq, Prod.mk.injEq] at h; simp [← h.2]
          · cases h

/-- The part of a word before its first equals sign, and what follows the sign. -/
def atEquals (word : List Char) : String × Option String :=
  match word.dropWhile (· != '=') with
  | _ :: value => (String.ofList (word.takeWhile (· != '=')), some (String.ofList value))
  | [] => (String.ofList word, none)

/-- Reads an option word; the words that are left follow. -/
def optionWord (specs : List OptionSpec) (word : String) (words : List String) (l : Line) :
    Option (Line × List String) :=
  let (name, value) := atEquals word.toList
  match (find? specs name).filter fun _ => ['-', '-'].isPrefixOf name.toList with
  | some s =>
    match s.hasValue, value with
    | true, some v => some (l.withOption s v, words)
    | false, none => some (l.withOption s "", words)
    | false, some _ => none
    | true, none =>
      match words with
      | w :: rest => some (l.withOption s w, rest)
      | [] => none
  | none =>
    if ['-', '-'].isPrefixOf word.toList then none
    else letters specs words l (word.toList.drop 1)

theorem optionWord_length {specs : List OptionSpec} {word : String} {words left : List String}
    {l m : Line} (h : optionWord specs word words l = some (m, left)) :
    left.length ≤ words.length := by
  unfold optionWord at h
  simp only at h
  split at h
  · split at h
    · simp only [Option.some.injEq, Prod.mk.injEq] at h; simp [h.2]
    · simp only [Option.some.injEq, Prod.mk.injEq] at h; simp [h.2]
    · cases h
    · split at h
      · simp only [Option.some.injEq, Prod.mk.injEq] at h; simp [← h.2]
      · cases h
  · split at h
    · cases h
    · exact letters_length h

/-- Reads words; absent when they name an unknown option or lack a value. -/
def readFrom (specs : List OptionSpec) (l : Line) (words : List String) : Option Line :=
  match words with
  | [] => some l
  | word :: rest =>
    if word == "--" then some { l with arguments := l.arguments ++ rest }
    else if word.length > 1 && word.toList.head? == some '-' then
      match h : optionWord specs word rest l with
      | some (m, left) =>
        have : left.length < rest.length + 1 := Nat.lt_succ_of_le (optionWord_length h)
        readFrom specs m left
      | none => none
    else readFrom specs { l with arguments := l.arguments ++ [word] } rest
termination_by words.length

def read (specs : List OptionSpec) (words : List String) : Option Line := readFrom specs {} words

/-- The values of an option, in order. -/
def values (l : Line) (name : String) : List String :=
  (l.options.filter fun o => o.1 == name).map (·.2)

/-- The last value of an option. -/
def value? (l : Line) (name : String) : Option String := (l.values name).getLast?

/-- Whether an option is given. -/
def has (l : Line) (name : String) : Bool := (l.value? name).isSome

end Line

end EnvCensus.Command
