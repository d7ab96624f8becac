import EnvCensus.Disk.Route

/-! Writing to a disk.  A file is written where its path leads, after the folders above it have
been made.  What has been made stays when a later step fails. -/
namespace EnvCensus.Disk

/-- The disk with a folder where the names after `base` lead, and whether there is one now. -/
def makeFoldersFrom (d : Disk) (base : Place) : List String → Disk × Bool
  | [] => (d, true)
  | name :: rest =>
    let names := base ++ [name]
    match d.routeFrom linkLimit [] names, d.routeFrom linkLimit [] base with
    | .ok (place, _), .ok (above, _) =>
      match d.at? place, d.at? (above ++ [name]) with
      | some (.folder _), _ => makeFoldersFrom d names rest
      | none, none => makeFoldersFrom (d.put blank (above ++ [name])) names rest
      | _, _ => (d, false)
    | _, _ => (d, false)

/-- The disk with a folder where a path leads, and whether there is one now. -/
def makeFolder (d : Disk) (here : Place) (path : String) : Disk × Bool :=
  makeFoldersFrom d [] (namesFrom here path)

/-- The disk with a file of these bytes where a path leads, and whether it has been written. -/
def write (d : Disk) (here : Place) (path : String) (bytes : List UInt8) : Disk × Bool :=
  let names := namesFrom here path
  match makeFoldersFrom d [] names.dropLast with
  | (d, false) => (d, false)
  | (d, true) =>
    match d.routeFrom linkLimit [] names with
    | .ok (place, _) => if (d.at? place).any isFolder then (d, false) else (d.put (file bytes) place, true)
    | .error _ => (d, false)

/-- The place of a path's last name, which is not followed when it is a link. -/
def placeOf? (d : Disk) (here : Place) (path : String) : Option Place :=
  let names := namesFrom here path
  match d.routeFrom linkLimit [] names.dropLast with
  | .ok (above, _) => some (above ++ names.getLast?.toList)
  | .error _ => none

end EnvCensus.Disk
