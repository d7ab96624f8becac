import EnvCensus.Dotenv
import EnvCensus.Failure
import EnvCensus.Options

/-! Findings in declaration files: one for each entry, required when the entry gives no value. -/
namespace EnvCensus.Dotenv

def findingOf (here path : String) (options : Options) (e : Entry) : Except Failure Finding := do
  let ref ← Failure.ofRange (FileRef.make here path e.line 1 e.comment none)
  Failure.ofBreach (Finding.make e.name (.source .dotenv) [ref] (!e.hasValue) e.value
    (Name.isPublic e.name options.publicPrefixes) e.comment.toList)

def scan (here content path : String) (options : Options) : Except Failure (List Finding) :=
  (parse content).mapM (findingOf here path options)

end EnvCensus.Dotenv
