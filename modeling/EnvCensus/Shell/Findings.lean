import EnvCensus.Failure
import EnvCensus.Options
import EnvCensus.Shell
import EnvCensus.Text.Case

/-! Findings in shell scripts: one for each name that is used, in the order of first uses. -/
namespace EnvCensus.Shell

def nonEmpty (d : Option String) : Option String := d.filter (· ≠ "")

/-- The finding of a name's first use. -/
def firstFinding (options : Options) (u : Use) (ref : FileRef) : Except Breach Finding :=
  Finding.make u.reference.name (.source .shell) [ref] (!u.reference.fallback.isSome)
    (nonEmpty u.reference.fallback) (Name.isPublic u.reference.name options.publicPrefixes) []

/-- The finding of a name with one more use. -/
def furtherFinding (f : Finding) (u : Use) (ref : FileRef) : Except Breach Finding :=
  Finding.make f.name (.source .shell) (f.files ++ [ref])
    (f.required && !u.reference.fallback.isSome)
    ((nonEmpty f.defaultValue).or (nonEmpty u.reference.fallback)) f.isPublic []

/-- The findings with one more use, at its name's place or at the end. -/
def record (options : Options) (u : Use) (ref : FileRef) :
    List Finding → Except Breach (List Finding)
  | [] => do return [← firstFinding options u ref]
  | f :: rest =>
    if f.name == u.reference.name then do return (← furtherFinding f u ref) :: rest
    else do return f :: (← record options u ref rest)

def scan (here content path : String) (options : Options) : Except Failure (List Finding) :=
  (uses content).foldlM (fun found u => do
    let ref ← Failure.ofRange
      (FileRef.make here path u.line u.reference.column (some u.context) (some u.hint))
    Failure.ofBreach (record options u ref found)) []

def extensions : List String := [".sh", ".bash", ".zsh", ".fish"]

/-- Start-up files of shells. -/
def fileNames : List String :=
  ["bashrc", ".bashrc", "bash_profile", ".bash_profile", "zshrc", ".zshrc", "zprofile",
   ".zprofile", "profile", ".profile", "bashrc.local", "zshrc.local"]

def handles (path : String) : Bool :=
  let p := Path.parse path
  extensions.contains (Text.lowerAscii p.suffix) || fileNames.contains (Text.lowerAscii p.name)

end EnvCensus.Shell
