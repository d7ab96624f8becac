import EnvCensus.Name
import EnvCensus.Text.Blank
import EnvCensus.Text.Lines
import EnvCensus.Text.Word

/-! Shell scripts, read line by line: the names a script assigns or declares, its references to
variables and a short description of the place where a reference stands. -/
namespace EnvCensus.Shell

/-- A reference to a variable; `fallback` is the text after `:-` or `:=`. -/
structure Reference where
  name : String
  fallback : Option String
  column : Nat
  deriving DecidableEq, Repr

/-- The fallback clause of a braced reference up to its closing brace, and what follows. -/
def braceTail? (cs : List Char) : Option (Option (List Char) × List Char) :=
  match cs with
  | '}' :: rest => some (none, rest)
  | ':' :: op :: rest =>
    if op == '-' || op == '=' then
      match rest.dropWhile (· ≠ '}') with
      | _ :: after => some (some (rest.takeWhile (· ≠ '}')), after)
      | [] => none
    else none
  | _ => none

/-- The reference whose dollar sign stands just before the text: name, fallback and the rest. -/
def reference? (cs : List Char) : Option (List Char × Option (List Char) × List Char) :=
  match cs with
  | '{' :: inner => do
    let (name, tail) ← Name.split inner
    let (fallback, rest) ← braceTail? tail
    return (name, fallback, rest)
  | _ => (Name.split cs).map fun (name, rest) => (name, none, rest)

theorem split_length {cs name rest : List Char} (h : Name.split cs = some (name, rest)) :
    name.length + rest.length = cs.length := by
  cases cs with
  | nil => simp [Name.split] at h
  | cons c cs =>
    simp only [Name.split] at h
    split at h
    · simp only [Option.some.injEq, Prod.mk.injEq] at h
      obtain ⟨rfl, rfl⟩ := h
      have := congrArg List.length (List.takeWhile_append_dropWhile (p := Name.isTail) (l := cs))
      simp only [List.length_append] at this
      simp only [List.length_cons]
      omega
    · cases h

theorem braceTail_length {cs rest : List Char} {d : Option (List Char)}
    (h : braceTail? cs = some (d, rest)) : rest.length < cs.length := by
  unfold braceTail? at h
  split at h
  · cases h; simp
  · rename_i op r
    split at h
    · split at h
      · rename_i x after hd
        simp only [Option.some.injEq, Prod.mk.injEq] at h
        obtain ⟨-, rfl⟩ := h
        have := (List.dropWhile_sublist (p := (· ≠ '}')) (l := r)).length_le
        rw [hd] at this
        simp only [List.length_cons] at *
        omega
      · cases h
    · cases h
  · cases h

theorem reference_length {cs name rest : List Char} {d : Option (List Char)}
    (h : reference? cs = some (name, d, rest)) : rest.length < cs.length := by
  unfold reference? at h
  split at h
  · rename_i inner
    simp only [Option.bind_eq_bind, Option.pure_def, Option.bind_eq_some_iff, Prod.exists,
      Option.some.injEq, Prod.mk.injEq] at h
    obtain ⟨n, t, hs, d', r, hb, rfl, rfl, rfl⟩ := h
    have h1 := split_length hs
    have h2 := braceTail_length hb
    simp only [List.length_cons]
    omega
  · simp only [Option.map_eq_some_iff, Prod.exists, Prod.mk.injEq] at h
    obtain ⟨n, r, hs, rfl, -, rfl⟩ := h
    have h1 := split_length hs
    cases cs with
    | nil => simp [Name.split] at hs
    | cons c cs =>
      have : 0 < n.length := by
        simp only [Name.split] at hs
        split at hs
        · cases hs; simp
        · cases hs
      omega

/-- The references of a text whose first character has the given column and stands after
`before`. -/
def referencesFrom (column : Nat) (before : Option Char) (cs : List Char) : List Reference :=
  match cs with
  | [] => []
  | c :: rest =>
    if c == '$' && before != some '\\' then
      match h : reference? rest with
      | some (name, fallback, after) =>
        have : after.length < rest.length := reference_length h
        ⟨String.ofList name, fallback.map fun d => String.ofList (Text.stripQuotes d), column⟩ ::
          referencesFrom (column + 1 + (rest.length - after.length))
            (rest.take (rest.length - after.length)).getLast? after
      | none => referencesFrom (column + 1) (some c) rest
    else referencesFrom (column + 1) (some c) rest
termination_by cs.length

/-- The references of a line from left to right, columns counted from one. -/
def references (line : List Char) : List Reference := referencesFrom 1 none line

/-- Whether a line is neither blank nor a comment. -/
def isCode (line : List Char) : Bool :=
  match Text.trim line with
  | [] => false
  | c :: _ => c ≠ '#'

/-- What follows `word` and at least one blank. -/
def afterWord? (word : String) (cs : List Char) : Option (List Char) :=
  if word.toList.isPrefixOf cs then
    match cs.drop word.length with
    | c :: rest => if Text.isBlank c then some (Text.trimLeft rest) else none
    | [] => none
  else none

/-- The name directly before an equals sign. -/
def assignedName? (cs : List Char) : Option (List Char) :=
  match Name.split cs with
  | some (name, '=' :: _) => some name
  | _ => none

/-- The name that a line assigns, after `export` if that leaves one. -/
def assignment? (cs : List Char) : Option (List Char) :=
  match (afterWord? "export" cs).bind assignedName? with
  | some n => some n
  | none => assignedName? cs

def declarators : List String := ["declare", "local", "readonly", "typeset"]

/-- Options of a declaration, each with the blanks after it; the count bounds their number. -/
def skipFlags : Nat → List Char → List Char
  | 0, cs => cs
  | n + 1, cs =>
    match cs with
    | '-' :: rest =>
      let letters := rest.takeWhile Char.isAlpha
      match rest.dropWhile Char.isAlpha with
      | c :: more =>
        if letters ≠ [] && Text.isBlank c then skipFlags n (Text.trimLeft more) else cs
      | [] => cs
    | _ => cs

/-- The first name that a line declares. -/
def declaration? (cs : List Char) : Option (List Char) :=
  declarators.findSome? fun w =>
    (afterWord? w cs).bind fun rest =>
      (Name.split (skipFlags rest.length rest)).map (·.1)

/-- The names that the code lines assign or declare. -/
def assignedNames (lines : List (List Char)) : List String :=
  (lines.filter isCode).flatMap fun l =>
    let cs := Text.trim l
    ((assignment? cs).toList ++ (declaration? cs).toList).map String.ofList

/-- The name of a function whose definition begins the text: a word, then empty parentheses or an
opening brace. -/
def definedName? (cs : List Char) : Option (List Char) :=
  match cs with
  | [] => none
  | c :: rest =>
    if Name.isHead c then
      let isPart := fun d => Text.isWordChar d || d == '-'
      let name := c :: rest.takeWhile isPart
      match Text.trimLeft (rest.dropWhile isPart) with
      | '{' :: _ => some name
      | '(' :: more => if (Text.trimLeft more).head? == some ')' then some name else none
      | _ => none
    else none

def functionName? (cs : List Char) : Option (List Char) :=
  match (afterWord? "function" cs).bind definedName? with
  | some n => some n
  | none => definedName? cs

/-- The nearest function that begins on one of the lines, given from the last one up; words that
begin compound commands are no functions. -/
def enclosingFunction? (lines : List (List Char)) : Option (List Char) :=
  lines.findSome? fun l =>
    (functionName? (Text.trim l)).filter fun n =>
      !(["if", "for", "while", "case"].contains (String.ofList n))

def startsWithAny (words : List String) (cs : List Char) : Bool :=
  words.any fun w => w.toList.isPrefixOf cs

/-- Where a reference on the first of the lines stands; the lines before it follow, nearest
first, and only five of them count. -/
def contextOf (line : List Char) (above : List (List Char)) : String :=
  let cs := Text.trim line
  if startsWithAny ["if ", "elif ", "[[ ", "[ "] cs || Text.contains " if ".toList cs then
    "Conditional statement"
  else if startsWithAny ["export "] cs then "Environment export"
  else if startsWithAny ["echo ", "printf "] cs then "Output command"
  else if cs.contains '=' then "Variable assignment"
  else
    match enclosingFunction? (line :: above.take 5) with
    | some n => "Function: " ++ String.ofList n
    | none => "Shell script"

/-- Every line with the lines above it, nearest first. -/
def withAbove (above : List (List Char)) : List (List Char) → List (List Char × List (List Char))
  | [] => []
  | l :: rest => (l, above) :: withAbove (l :: above) rest

/-- The description of every line. -/
def contexts (lines : List (List Char)) : List String :=
  (withAbove [] lines).map fun (l, above) => contextOf l above

/-- Parameters and names of the shell itself, and common loop variables. -/
def ownNames : List String :=
  ["0", "1", "2", "3", "4", "5", "6", "7", "8", "9", "@", "*", "#", "?", "-", "$", "!", "_",
   "IFS", "PATH", "PS1", "PS2", "PS3", "PS4", "HOME", "USER", "SHELL", "PWD", "OLDPWD",
   "RANDOM", "SECONDS", "LINENO", "BASH_VERSION", "BASH_SOURCE", "BASH_LINENO", "FUNCNAME",
   "PIPESTATUS", "HOSTNAME", "HOSTTYPE", "OSTYPE", "MACHTYPE", "SHLVL", "PPID", "EUID", "UID",
   "GID", "i", "j", "k", "x", "y", "z", "item", "line", "file"]

def hintLength : Nat := 100

/-- A reference that counts as a use of the environment, with its place and surroundings. -/
structure Use where
  reference : Reference
  line : Nat
  context : String
  hint : String
  deriving DecidableEq, Repr

/-- A reference counts when its name is not one of the shell's own and either it has a fallback
or the script nowhere assigns the name. -/
def isUse (assigned : List String) (r : Reference) : Bool :=
  !ownNames.contains r.name && (r.fallback.isSome || !assigned.contains r.name)

def usesOfLine (assigned : List String) (number : Nat) (line : List Char)
    (above : List (List Char)) : List Use :=
  if isCode line then
    ((references line).filter (isUse assigned)).map fun r =>
      ⟨r, number, contextOf line above,
        String.ofList ((Text.trim line).take hintLength)⟩
  else []

def usesFrom (assigned : List String) (number : Nat) (above : List (List Char)) :
    List (List Char) → List Use
  | [] => []
  | l :: rest =>
    usesOfLine assigned number l above ++ usesFrom assigned (number + 1) (l :: above) rest

/-- The uses of a script, line by line. -/
def uses (content : String) : List Use :=
  let lines := Text.lines content.toList
  usesFrom (assignedNames lines) 1 [] lines

end EnvCensus.Shell
