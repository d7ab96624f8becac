import EnvCensus.Command.Run
import Std.Time.DateTime

/-! The program.  It takes up the files below the current directory and at the paths that the
words of the command line name, runs the words over them, prints what the run prints and writes
the files that the run has changed.  Nothing is decided here: what a command does is a function of
its setting. -/
namespace EnvCensus.Program

/-- The number of bytes above which a file is not taken up. -/
def largestFile : UInt64 := 16777216

/-- The entry of a directory that stands at a path. -/
def entryAt (place : Disk.Place) : IO.FS.DirEntry :=
  ⟨Disk.pathOf place.dropLast, place.getLast?.getD "."⟩

/-- What stands at an entry of a directory.  The real paths of the links in it are collected, of
links to directories only where `deep` holds. -/
partial def takeUp (deep : Bool) (entry : IO.FS.DirEntry) :
    StateT (List String) IO (Option Disk) := do
  match ← entry.path.symlinkMetadata.toBaseIO with
  | .error _ => return none
  | .ok info =>
    match info.type with
    | .file =>
      if info.byteSize > largestFile then return none
      match ← (IO.FS.readBinFile entry.path).toBaseIO with
      | .ok bytes => return some (.file bytes.toList)
      | .error _ => return none
    | .symlink =>
      match ← (IO.FS.realPath entry.path).toBaseIO with
      | .ok target =>
        if deep || !(← target.isDir) then modify (target.toString :: ·)
        return some (.link target.toString)
      | .error _ => return none
    | .dir =>
      match ← entry.path.readDir.toBaseIO with
      | .error _ => return none
      | .ok found =>
        let mut entries : List (String × Disk) := []
        for e in found do
          if let some d ← takeUp deep e then entries := (e.fileName, d) :: entries
        return some (.folder (entries.mergeSort fun a b =>
          Collation.textLe a.1.toList b.1.toList))
    | .other => return none

/-- The disk with all that stands at the paths and at the targets of the links there; `known`
lists the places that have been taken up. -/
partial def takeUpAll (deep : Bool) (disk : Disk) (known : List Disk.Place) :
    List String → IO Disk
  | [] => return disk
  | path :: rest => do
    let place := (Path.parse path).segments
    if known.any (·.isPrefixOf place) then takeUpAll deep disk known rest
    else
      let (found, links) ← (takeUp deep (entryAt place)).run []
      takeUpAll deep (match found with | some d => disk.put d place | none => disk)
        (place :: known) (links ++ rest)

/-- The real paths that words, or the parts of them after an equality sign, lead to. -/
def pathsOf (words : List String) : IO (List String) := do
  let mut paths : List String := []
  for (word : String) in words.flatMap (·.splitOn "=") do
    if let .ok path ← (IO.FS.realPath word).toBaseIO then paths := path.toString :: paths
  return paths.reverse

/-- Writes what differs between two states of what stands at a place. -/
partial def save (place : Disk.Place) (old : Option Disk) (new : Disk) : IO Unit :=
  match new with
  | .file bytes => do
    let same := match old with
      | some (.file before) => before == bytes
      | _ => false
    if !same then IO.FS.writeBinFile (Disk.pathOf place) ⟨bytes.toArray⟩
  | .folder entries => do
    if !old.any Disk.isFolder then IO.FS.createDirAll (Disk.pathOf place)
    for (name, d) in entries do
      save (place ++ [name]) (old.bind (·.child? name)) d
  | .link _ => return

/-- A number in decimal, with zeros in front up to a width. -/
def padded (width : Nat) (n : Int) : String :=
  String.ofList ((toString n).toList.leftpad width '0')

/-- The present moment in UTC, in the form that reports have it. -/
def now : IO String := do
  let t := Std.Time.PlainDateTime.ofWallTime
    ((← Std.Time.Timestamp.now).toWallTime Std.Time.TimeZone.Offset.zero)
  let micros := t.nanosecond.val / 1000
  let fraction := if micros == 0 then "" else "." ++ padded 6 micros
  return padded 4 t.year.toInt ++ "-" ++ padded 2 t.month.val ++ "-" ++ padded 2 t.day.val ++
    "T" ++ padded 2 t.hour.val ++ ":" ++ padded 2 t.time.minute.val ++ ":" ++
    padded 2 t.time.second.val ++ fraction ++ "+00:00"

/-- The width of the display, when the environment does not tell it. -/
def defaultWidth : Nat := 80

def width : IO Nat := do
  return ((← IO.getEnv "COLUMNS").bind String.toNat?).getD defaultWidth

/-- Prints what a run has printed and gives its status. -/
def tell (printed : Command.Printed) : IO UInt32 := do
  (← IO.getStdout).putStr printed.output
  (← IO.getStderr).putStr printed.errors
  return printed.status.toUInt32

/-- Ends a run with a message. -/
def fail (message : String) : IO UInt32 := do
  (← IO.getStderr).putStrLn message
  return 1

/-- Runs the words of a command line and gives the status to end with. -/
def run (words : List String) : IO UInt32 := do
  let started ← IO.monoMsNow
  let here := (← IO.currentDir).toString
  let deep := words.contains "--follow-symlinks"
  let disk ← takeUpAll deep Disk.blank [] (here :: (← pathsOf words))
  let clock : Clock := { time := ← now, milliseconds := (← IO.monoMsNow) - started }
  let setting : Command.Setting :=
    { disk, here := (Path.parse here).segments, clock, width := ← width }
  let (changed, result) := Command.runWords setting words
  match result with
  | .error f =>
    save [] (some disk) changed
    fail f.message
  | .ok printed =>
    match ← (save [] (some disk) changed).toBaseIO with
    | .ok () => tell printed
    | .error e => fail (toString e)

end EnvCensus.Program

def main (words : List String) : IO UInt32 := EnvCensus.Program.run words
