import EnvCensus.Disk
import EnvCensus.Path
import EnvCensus.Text.Utf8

/-! Routes over a disk.  A path is followed name by name; a name that climbs leads to the folder
above the place reached so far, and a link is followed by what it stands for.  One route may
follow forty links. -/
namespace EnvCensus.Disk

/-- What keeps a route from its end. -/
inductive Obstacle where
  | missing
  | notFolder
  | tooManyLinks
  deriving DecidableEq, Repr

/-- The number of links that one route may follow. -/
def linkLimit : Nat := 40

/-- Where a link at a place starts from, and the names it goes along. -/
def linkStart (place : Place) (target : String) : Place × List String :=
  let p := Path.parse target
  (if p.isAbsolute then [] else place, p.segments)

/-- The place that the names lead to from a place, and how many more links may be followed.  The
last name may be missing. -/
def routeFrom (d : Disk) (links : Nat) (place : Place) (names : List String) :
    Except Obstacle (Place × Nat) :=
  match names with
  | [] => .ok (place, links)
  | name :: rest =>
    match d.at? place with
    | some (.folder es) =>
      if name == ".." then routeFrom d links place.dropLast rest
      else
        match (folder es).child? name, links with
        | some (.link _), 0 => .error .tooManyLinks
        | some (.link target), links + 1 =>
          routeFrom d links (linkStart place target).1 ((linkStart place target).2 ++ rest)
        | some _, links => routeFrom d links (place ++ [name]) rest
        | none, links => if rest.isEmpty then .ok (place ++ [name], links) else .error .missing
    | _ => .error .notFolder
termination_by (links, names.length)

theorem routeFrom_links {d : Disk} {links left : Nat} {place final : Place} {names : List String}
    (h : routeFrom d links place names = .ok (final, left)) : left ≤ links := by
  fun_induction routeFrom d links place names with
  | case1 => cases h; exact Nat.le_refl _
  | case2 _ _ _ _ _ _ _ ih => exact ih h
  | case3 => cases h
  | case4 _ _ _ _ _ _ _ _ _ ih => exact Nat.le_succ_of_le (ih h)
  | case5 => rename_i ih; exact ih h
  | case6 => cases h; exact Nat.le_refl _
  | case7 => cases h
  | case8 => cases h

/-- The names of a path that is read from a place. -/
def namesFrom (here : Place) (path : String) : Place :=
  let p := Path.parse path
  if p.isAbsolute then p.segments else here ++ p.segments

/-- The place that a path leads to, whether or not something stands there. -/
def route (d : Disk) (here : Place) (path : String) : Except Obstacle Place :=
  (routeFrom d linkLimit [] (namesFrom here path)).map (·.1)

/-- What a path leads to. -/
def find? (d : Disk) (here : Place) (path : String) : Option Disk :=
  match d.route here path with
  | .ok place => d.at? place
  | .error _ => none

def isFolderAt (d : Disk) (here : Place) (path : String) : Bool :=
  (d.find? here path).any isFolder

def isFileAt (d : Disk) (here : Place) (path : String) : Bool := (d.find? here path).any isFile

/-- The bytes of the file that a path leads to. -/
def bytes? (d : Disk) (here : Place) (path : String) : Option (List UInt8) :=
  match d.find? here path with
  | some (.file bs) => some bs
  | _ => none

/-- The names of a path without links and climbing names, as far as its names are there; absent
when links lead in a circle. -/
def settleFrom (d : Disk) (links : Nat) (place : Place) (names : List String) : Option Place :=
  match names with
  | [] => some place
  | name :: rest =>
    if name == ".." then settleFrom d links place.dropLast rest
    else
      match d.at? (place ++ [name]), links with
      | some (.link _), 0 => none
      | some (.link target), links + 1 =>
        settleFrom d links (linkStart place target).1 ((linkStart place target).2 ++ rest)
      | _, links => settleFrom d links (place ++ [name]) rest
termination_by (links, names.length)

def settle (d : Disk) (here : Place) (path : String) : Option Place :=
  settleFrom d linkLimit [] (namesFrom here path)

/-- The text of a place. -/
def pathOf (place : Place) : String := (Path.mk .slash place).render

/-! Texts of files.  A file has a text for a scan unless it is too large or its beginning holds a
zero byte; what is not UTF-8 in it is replaced. -/

/-- The number of bytes at the front of a file in which a zero byte is looked for. -/
def sniffedLength : Nat := 8192

/-- The text of a file of these bytes, when a scan may look at it. -/
def scannedText? (bytes : List UInt8) (maxSize : Int) : Option String :=
  if (bytes.length : Int) > maxSize then none
  else if (bytes.take sniffedLength).contains 0 then none
  else some (String.ofList (Text.decodeLossy bytes))

/-- The text of the file that a path leads to, when a scan may look at it. -/
def readText? (d : Disk) (here : Place) (path : String) (maxSize : Int) : Option String :=
  (d.bytes? here path).bind fun bs => scannedText? bs maxSize

end EnvCensus.Disk
