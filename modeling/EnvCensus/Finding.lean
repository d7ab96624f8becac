import EnvCensus.Name
import EnvCensus.Path
import EnvCensus.Source

/-! Findings: one variable, how it was found, where it stands and what is known of it.  References
and findings come from checked constructors.  A reference has an absolute path and counts lines
and columns from one; a finding has a source, at least one reference and a valid name. -/
namespace EnvCensus

/-- A reference whose line or column is below one. -/
structure FileRef.OutOfRange where
  line : Int
  column : Int
  deriving DecidableEq, Repr

def FileRef.OutOfRange.message (e : FileRef.OutOfRange) : String :=
  s!"FileRef position must be 1-based, got {e.line}:{e.column}"

/-- A place in a file, with a description of the place and a hint on it. -/
structure FileRef where
  path : String
  line : Nat
  column : Nat
  context : Option String := none
  hint : Option String := none
  deriving DecidableEq, Repr

namespace FileRef

/-- A reference read from the directory `here`. -/
def make (here path : String) (line column : Int) (context hint : Option String) :
    Except OutOfRange FileRef :=
  if line < 1 || column < 1 then .error ⟨line, column⟩
  else .ok ⟨Path.absolute here path, line.toNat, column.toNat, context, hint⟩

/-- What tells two references apart. -/
def key (r : FileRef) : String × Nat × Nat := (r.path, r.line, r.column)

end FileRef

/-- Breaches of the conventions that findings rest on. -/
inductive Breach where
  | unknownSource (tag name : String)
  | noFiles (name : String)
  | invalidName (name : String)
  | emptyMerge
  | mixedMerge
  | unrankedSource (tag : String)
  deriving DecidableEq, Repr

def Breach.message : Breach → String
  | unknownSource tag name => s!"Unknown source {Text.quoted tag} for {Text.quoted name}"
  | noFiles name => s!"Finding {Text.quoted name} has no file references"
  | invalidName name => s!"Invalid environment variable name: {Text.quoted name}"
  | emptyMerge => "Cannot merge an empty list of findings"
  | mixedMerge => "All findings must share the same name to be merged"
  | unrankedSource tag => s!"Source {Text.quoted tag} is missing from the priority table"

/-- The rank of the source with this tag. -/
def Source.rankOfTag (t : String) : Except Breach Nat :=
  match Source.ofTag? t with
  | some s => .ok s.rank
  | none => .error (.unrankedSource t)

structure Finding where
  name : String
  source : Source
  files : List FileRef
  required : Bool := true
  defaultValue : Option String := none
  isPublic : Bool := false
  notes : List String := []
  deriving DecidableEq, Repr

namespace Finding

/-- What a finding is said to come from: a source, or a mere tag, which no finding accepts. -/
inductive Origin where
  | source (s : Source)
  | tag (t : String)
  deriving DecidableEq, Repr

/-- A finding whose source, files and name are checked in this order. -/
def make (name : String) (origin : Origin) (files : List FileRef) (required : Bool)
    (defaultValue : Option String) (isPublic : Bool) (notes : List String) :
    Except Breach Finding :=
  match origin with
  | .tag t => .error (.unknownSource t name)
  | .source source =>
    if files.isEmpty then .error (.noFiles name)
    else if !Name.isValid name then .error (.invalidName name)
    else .ok { name, source, files, required, defaultValue, isPublic, notes }

/-- What the checked constructor guarantees. -/
def Valid (f : Finding) : Prop := f.files ≠ [] ∧ Name.isValid f.name = true

theorem make_valid {name : String} {o : Origin} {fs : List FileRef} {r p : Bool}
    {d : Option String} {ns : List String} {f : Finding}
    (h : make name o fs r d p ns = .ok f) : f.Valid := by
  unfold make at h
  split at h
  · cases h
  · split at h
    · cases h
    · split at h
      · cases h
      · rename_i hf hn
        cases h
        exact ⟨by simpa using hf, by simpa using hn⟩

end Finding

end EnvCensus
