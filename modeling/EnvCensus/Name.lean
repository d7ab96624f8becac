/-! Names of environment variables.  A name is a letter or an underscore followed by letters,
digits and underscores, all ASCII; one line feed after it is let pass.  A name is public when it
begins with one of the prefixes that a bundler exposes to client code. -/
namespace EnvCensus.Name

def isHead (c : Char) : Bool := c.isAlpha || c == '_'

def isTail (c : Char) : Bool := c.isAlphanum || c == '_'

/-- The longest name at the front of a text, and what follows it. -/
def split (cs : List Char) : Option (List Char × List Char) :=
  match cs with
  | [] => none
  | c :: rest =>
    if isHead c then some (c :: rest.takeWhile isTail, rest.dropWhile isTail) else none

/-- Whether the text is a name, up to one line feed at its end. -/
def isValid (s : String) : Bool :=
  match split s.toList with
  | some (_, rest) => rest.isEmpty || rest == ['\n']
  | none => false

/-- Whether the name begins with one of the non-empty prefixes. -/
def isPublic (name : String) (prefixes : List String) : Bool :=
  name ≠ "" && prefixes.any fun p => p ≠ "" && p.toList.isPrefixOf name.toList

end EnvCensus.Name
