import EnvCensus.Config.Loading
import EnvCensus.Proofs.Disk.Route
import EnvCensus.Proofs.Except
import EnvCensus.Proofs.Text.Utf8
import Mathlib.Data.List.Find

/-!
# How loading a configuration ends

The configuration of a project is decided by the files of the known names at its
root. A load gives a configuration or reports what is wrong with it, whatever stands
on the disk, but for two kinds of files: bytes that are the written form of no
text, unless a fault is found before them, and documents with a scalar that has
the form of a value that does not exist. These end the load with a failure that is
none of the configuration.
-/

namespace EnvCensus

/-! ### Files and their texts -/

/-- A file is read as its text is: it holds the same document, or is faulty in the same way, though
it may tell another place of a malformation. -/
inductive Yaml.FileFault.Agrees : Except Yaml.FileFault Value → Except Yaml.Fault Value → Prop
  | document (v : Value) : Agrees (.ok v) (.ok v)
  | scalar (e : Yaml.ScalarFault) : Agrees (.error (.faulty (.scalar e))) (.error (.scalar e))
  | malformed (stage stage' : Yaml.Stage) (mark mark' : Option Yaml.Mark) :
      Agrees (.error (.faulty (.malformed stage mark))) (.error (.malformed stage' mark'))

/-- What a file has to do with its text. The first block of a file is decoded before anything is
parsed; what no text begins with fails there. -/
class Parsers.Lawful [Parsers] : Prop where
  file_text (text : List Char) : Yaml.FileFault.Agrees (Parsers.file (Text.encode text))
    (Parsers.document (String.ofList (Text.unifyBreaks text)))
  file_other {bytes : List UInt8} (unwritten : ∀ text, bytes ≠ Text.encode text) :
    Parsers.file bytes = .error .undecodable ∨
      ∃ stage mark, Parsers.file bytes = .error (.faulty (.malformed stage mark))
  file_first {bytes : List UInt8}
    (unwritten : ∀ more text, bytes.take Yaml.blockBytes ++ more ≠ Text.encode text) :
    Parsers.file bytes = .error .undecodable

namespace Yaml

variable {bytes : List UInt8}

theorem decode?_eq_none (unwritten : ∀ text, bytes ≠ Text.encode text) :
    Text.decode? bytes = none := by
  cases decoded : Text.decode? bytes with
  | none => rfl
  | some text => exact absurd (Text.decode?_eq_some_iff.mp decoded) (unwritten text)

theorem loadFile_encode (text : List Char) : loadFile (Text.encode text) =
    (load (String.ofList (Text.unifyBreaks text))).mapError .faulty := by
  rw [loadFile, Text.decode?_eq_some_iff.mpr rfl]

theorem loadFile_other (unwritten : ∀ text, bytes ≠ Text.encode text) :
    loadFile bytes = .error .undecodable ∨
      ∃ stage mark, loadFile bytes = .error (.faulty (.malformed stage mark)) := by
  rw [loadFile, decode?_eq_none unwritten]
  cases load (String.ofList (parsedPart bytes)) with
  | ok v => exact .inl rfl
  | error f =>
    cases shows : showsFault (parsedPart bytes) f with
    | false => exact .inl (by simp [shows])
    | true =>
      have settled := (Bool.and_eq_true_iff.mp shows).1
      cases f with
      | malformed stage mark => exact .inr ⟨stage, mark, by simp [shows]⟩
      | scalar e => cases settled

theorem load_nil : load (String.ofList []) = .ok .null := by
  have none : Node.ofText? [] = .ok none := by
    rw [Node.ofText?]
    rfl
  rw [load, String.toList_ofList, none]
  rfl

/-- Before the first block is decoded, nothing is parsed. -/
theorem parsedPart_of_first
    (unwritten : ∀ more text, bytes.take blockBytes ++ more ≠ Text.encode text) :
    parsedPart bytes = [] := by
  have size : Reached.nextBytes {} (blockChars - 0) = blockBytes := rfl
  have bad : isBeginning (bytes.take blockBytes) = false := by
    rw [isBeginning, List.any_eq_false]
    intro more _
    rw [decode?_eq_none (unwritten more)]
    simp
  rw [parsedPart, partFrom, if_neg (by decide)]
  simp only [size, Nat.zero_add, bad, Bool.and_false, Bool.false_eq_true, if_false]
  exact if_pos (by decide)

theorem loadFile_of_first (unwritten : ∀ text, bytes ≠ Text.encode text)
    (first : ∀ more text, bytes.take blockBytes ++ more ≠ Text.encode text) :
    loadFile bytes = .error .undecodable := by
  rw [loadFile, decode?_eq_none unwritten, parsedPart_of_first first, load_nil]

end Yaml

instance Parsers.lawful : Parsers.Lawful where
  file_text text := by
    show Yaml.FileFault.Agrees (Yaml.loadFile _) (Yaml.load _)
    rw [Yaml.loadFile_encode]
    cases Yaml.load (String.ofList (Text.unifyBreaks text)) with
    | ok v => exact .document v
    | error f =>
      cases f with
      | malformed stage mark => exact .malformed stage stage mark mark
      | scalar e => exact .scalar e
  file_other := Yaml.loadFile_other
  file_first {bytes} unwritten := by
    refine Yaml.loadFile_of_first (fun text written => ?_) unwritten
    exact unwritten (bytes.drop Yaml.blockBytes) text (List.take_append_drop _ _ ▸ written)

namespace Config

open Disk

/-! ### Where configurations are loaded from -/

theorem proper_fileNames : ∀ name ∈ fileNames, Path.Proper name := by decide

theorem pathAt_pathOf {place : Place} (proper : ∀ n ∈ place, Path.Proper n) {name : String}
    (known : name ∈ fileNames) : pathAt (pathOf place) name = pathOf (place ++ [name]) :=
  Path.join_name proper (proper_fileNames name known)

theorem proper_place {place : Place} (proper : ∀ n ∈ place, Path.Proper n) {name : String}
    (known : name ∈ fileNames) : ∀ n ∈ place ++ [name], Path.Proper n :=
  List.forall_mem_append.mpr ⟨proper, List.forall_mem_singleton.mpr (proper_fileNames name known)⟩

/-- Two disks with the same files of the known names have the same configuration. -/
theorem load_congr {d d' : Disk} {here root : Place} (proper : ∀ n ∈ root, Path.Proper n)
    (same : ∀ name ∈ fileNames, ∀ path, namesFrom here path = root ++ [name] →
      d'.bytes? here path = d.bytes? here path) :
    load d' here (pathOf root) none = load d here (pathOf root) none := by
  have atRoot : ∀ name ∈ fileNames,
      d'.bytes? here (pathAt (pathOf root) name) = d.bytes? here (pathAt (pathOf root) name) := by
    intro name known
    rw [pathAt_pathOf proper known]
    exact same name known _ (Path.namesFrom_pathOf (proper_place proper known) here)
  have first : file? d' here (pathOf root) = file? d here (pathOf root) := by
    refine List.find?_congr fun name known => ?_
    rw [isFileAt_eq, isFileAt_eq, atRoot name known]
  simp only [load, first]
  cases h : file? d here (pathOf root) with
  | none => rfl
  | some name => simp only [atRoot name (List.mem_of_find?_eq_some h)]

/-! ### The file that is loaded -/

variable {d : Disk} {here : Place} {root path : String} {named : Option String}
  {bytes : List UInt8}

section

variable [Parsers]

/-- The document that a text of a configuration file holds. -/
def reading (text : List Char) : Except Yaml.Fault Value :=
  Parsers.document (String.ofList (Text.unifyBreaks text))

variable [Parsers.Lawful]

end

end Config

end EnvCensus
