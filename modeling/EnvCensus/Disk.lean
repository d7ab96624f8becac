import EnvCensus.Finding.Collation

/-! The files of a disk: a tree of folders, files and links, the entries of a folder in the order
of their names.  A link holds the path that it stands for, as a text. -/
namespace EnvCensus

/-- What a name in a folder stands for. -/
inductive Disk where
  | file (bytes : List UInt8)
  | link (target : String)
  | folder (entries : List (String × Disk))
  deriving Inhabited

namespace Disk

/-- The names from the top of the disk down to a place on it. -/
abbrev Place := List String

/-- A disk with nothing on it. -/
def blank : Disk := folder []

def entries : Disk → List (String × Disk)
  | folder es => es
  | _ => []

def isFolder : Disk → Bool
  | folder _ => true
  | _ => false

def isFile : Disk → Bool
  | file _ => true
  | _ => false

/-- The entry of a folder under a name. -/
def child? (d : Disk) (name : String) : Option Disk :=
  (d.entries.find? fun e => e.1 == name).map (·.2)

/-- What stands at a place; links are not followed. -/
def at? : Disk → Place → Option Disk
  | d, [] => some d
  | d, name :: rest => (d.child? name).bind fun c => c.at? rest

/-- The entries with one under a name: in place of the old one, or before the first greater
name. -/
def enter (name : String) (d : Disk) : List (String × Disk) → List (String × Disk)
  | [] => [(name, d)]
  | e :: rest =>
    if e.1 == name then (name, d) :: rest
    else if Collation.textLe name.toList e.1.toList then (name, d) :: e :: rest
    else e :: enter name d rest

/-- The disk with something at a place; folders are made on the way to it. -/
def put (d : Disk) (new : Disk) : Place → Disk
  | [] => new
  | name :: rest =>
    folder (enter name (put ((d.child? name).getD blank) new rest) d.entries)

/-- The disk without what stands at a place. -/
def erase (d : Disk) : Place → Disk
  | [] => blank
  | [name] => folder (d.entries.filter fun e => e.1 != name)
  | name :: rest =>
    match d.child? name with
    | some c => folder (enter name (c.erase rest) d.entries)
    | none => d

end Disk

end EnvCensus
