import EnvCensus.Text.Quoted

/-! How a variable was found.  The order of precedence decides which source stands for a variable
that was found in several ways. -/
namespace EnvCensus

inductive Source where
  | ast
  | process
  | importMeta
  | dotenv
  | docker
  | gha
  | shell
  deriving DecidableEq, Repr

namespace Source

/-- Every source, in the order of reports. -/
def all : List Source := [ast, process, importMeta, dotenv, docker, gha, shell]

/-- The tag of a source in reports and options. -/
def tag : Source → String
  | ast => "ast"
  | process => "process"
  | importMeta => "importmeta"
  | dotenv => "dotenv"
  | docker => "docker"
  | gha => "gha"
  | shell => "shell"

def ofTag? (t : String) : Option Source := all.find? fun s => s.tag == t

/-- What is said of a tag that names no source. -/
def unknownTagMessage (t : String) : String := s!"{Text.quoted t} is not a valid Source"

/-- Earlier sources stand for a variable before later ones. -/
def precedence : List Source := [ast, process, importMeta, dotenv, shell, docker, gha]

/-- The place of a source in the order of precedence. -/
def rank (s : Source) : Nat := precedence.idxOf s

end Source

end EnvCensus
