import EnvCensus.Proofs.Discovery
import Mathlib.Logic.Relation

/-!
# Discoveries that come to an end

A walk goes from folder to folder, and the ignore list of each folder that it
goes into is read before anything in the folder is looked at. A list that has a
line which is no pattern ends the whole discovery. So a discovery gives files
just when its directory is there and no list that the walk comes upon has such a
line; the lists of folders that are left out are never read.
-/

namespace EnvCensus

namespace Gitignore

/-- The bytes are a text with a line that is refused, with this fault. -/
def HasRefused (bytes : List UInt8) (fault : Pattern.Fault) : Prop :=
  ∃ cs, Text.decode? bytes = some cs ∧ ∃ line ∈ endedLines (Text.unifyBreaks cs),
    Pattern.parse line = .error fault

theorem mapM_parse_ends (lines : List String) :
    Ends (fun fault => ∃ line ∈ lines, Pattern.parse line = .error fault)
      (fun _ => ∀ fault, ∀ line ∈ lines, Pattern.parse line ≠ .error fault)
      (lines.mapM Pattern.parse) := by
  have each : ∀ line ∈ lines, Ends
      (fun fault => ∃ line ∈ lines, Pattern.parse line = .error fault) (fun _ => True)
      (Pattern.parse line) := by
    intro line hline
    cases read : Pattern.parse line with
    | ok _ => exact .ok trivial
    | error fault => exact .error ⟨line, hline, read⟩
  cases all : lines.mapM Pattern.parse with
  | error fault => exact .error ((Ends.mapM each).failure all)
  | ok parsed =>
    refine .ok fun fault line hline refused => ?_
    obtain ⟨p, -, read⟩ := mem_mapM all hline
    rw [refused] at read
    cases read

/-- A list is read unless one of its lines is refused. -/
theorem patternsOf_ends (bytes : List UInt8) :
    Ends (HasRefused bytes) (fun _ => ∀ fault, ¬ HasRefused bytes fault) (patternsOf bytes) := by
  unfold patternsOf
  cases decoded : Text.decode? bytes with
  | none =>
    refine .ok ?_
    rintro fault ⟨cs, text, -⟩
    rw [decoded] at text
    cases text
  | some cs =>
    refine Ends.bind ((mapM_parse_ends _).imp ?_ fun _ => id) fun parsed accepted => .ok ?_
    · exact fun fault refused => ⟨cs, decoded, refused⟩
    · rintro fault ⟨cs', text, line, hline, refused⟩
      rw [decoded] at text
      cases text
      exact accepted fault line hline refused

end Gitignore

namespace Discovery

open Disk

variable {d : Disk} {q : Query} {lists : List Gitignore} {n : String} {e : Disk}

/-! ### Visits -/

/-- A folder that a walk goes into: the names that lead to it from the root, the lists of the
folders above it and how many links may still be followed. -/
structure Visit where
  links : Nat
  place : Place
  names : List String
  lists : List Gitignore
  entries : List (String × Disk)

namespace Visit

variable {v w : Visit}

/-- The walk of a folder: its own list is added, then its entries are looked at. -/
def walk (d : Disk) (q : Query) (v : Visit) : Except Failure (List (List String)) := do
  walkEntries d q v.links v.place (← q.listsBelow d v.links v.place v.names v.lists) v.names
    v.entries

/-- The list of the folder has a line that is refused. -/
def Refuses (d : Disk) (q : Query) (v : Visit) (fault : Pattern.Fault) : Prop :=
  q.respectGitignore = true ∧ ∃ bytes,
    d.fileFrom? v.links v.place [Gitignore.fileName] = some bytes ∧
      Gitignore.HasRefused bytes fault

/-- With these lists the walk goes from the folder, at an entry of it, into another one. -/
inductive Enters (d : Disk) (q : Query) (v : Visit) (lists : List Gitignore) :
    String × Disk → Visit → Prop
  | folder {n : String} {es : List (String × Disk)}
      (kept : q.entersFolder lists (v.names ++ [n]) = true) :
      Enters d q v lists (n, .folder es) ⟨v.links, v.place ++ [n], v.names ++ [n], lists, es⟩
  | link {n t : String} {es : List (String × Disk)} {place : Place} {links left : Nat}
      (spare : v.links = links + 1)
      (leads : target? d links v.place t = some (.folder es, place, left))
      (follows : q.followSymlinks = true)
      (kept : q.entersFolder lists (v.names ++ [n]) = true) :
      Enters d q v lists (n, .link t) ⟨left, place, v.names ++ [n], lists, es⟩

/-- The walk goes from one folder into the next. -/
def Step (d : Disk) (q : Query) (v w : Visit) : Prop :=
  ∃ lists, q.listsBelow d v.links v.place v.names v.lists = .ok lists ∧
    ∃ entry ∈ v.entries, Enters d q v lists entry w

/-- The walk that begins in one folder comes to the other. -/
def Reaches (d : Disk) (q : Query) : Visit → Visit → Prop := Relation.ReflTransGen (Step d q)

/-! ### One step -/

theorem listsBelow_ends (d : Disk) (q : Query) (v : Visit) :
    Ends (fun e => ∃ fault, v.Refuses d q fault ∧ e = .pattern fault)
      (fun _ => ∀ fault, ¬ v.Refuses d q fault)
      (q.listsBelow d v.links v.place v.names v.lists) := by
  unfold Query.listsBelow
  cases respected : q.respectGitignore with
  | false =>
    refine .ok ?_
    rintro fault ⟨yes, -⟩
    rw [respected] at yes
    cases yes
  | true =>
    rw [ofFolder?_eq]
    cases there : d.fileFrom? v.links v.place [Gitignore.fileName] with
    | none =>
      refine .ok ?_
      rintro fault ⟨-, bytes, file, -⟩
      rw [there] at file
      cases file
    | some bytes =>
      have read : Ends (fun e => ∃ fault, v.Refuses d q fault ∧ e = .pattern fault)
          (fun _ => ∀ fault, ¬ Gitignore.HasRefused bytes fault)
          ((Gitignore.patternsOf bytes).mapError Failure.pattern) :=
        (Gitignore.patternsOf_ends bytes).mapError
          fun fault refused => ⟨fault, ⟨respected, bytes, there, refused⟩, rfl⟩
      refine Ends.bind (P := fun _ => ∀ fault, ¬ Gitignore.HasRefused bytes fault)
        (read.bind fun _ accepted => .ok accepted) fun _ accepted => .ok ?_
      rintro fault ⟨-, bytes', file, refused⟩
      rw [there] at file
      cases file
      exact accepted fault refused

/-- At an entry that the walk goes into, the walk is that of the other folder. -/
theorem walkEntry_of_enters (h : Enters d q v lists (n, e) w) :
    walkEntry d q v.links v.place lists (v.names ++ [n]) e = w.walk d q := by
  have last : (v.names ++ [n]).getLastD "" = n := by simp
  cases h with
  | folder kept =>
    rw [walkEntry, kept, last]
    rfl
  | link spare leads follows kept =>
    rw [spare, walkEntry]
    split
    · rename_i file
      rw [leads] at file
      cases file
    · rename_i folder
      rw [leads] at folder
      cases folder
      rw [follows, kept]
      rfl
    · rename_i neither
      exact (neither _ _ _ leads).elim

/-- An entry that the walk does not go into has a result. -/
theorem walkEntry_of_not_enters (h : ∀ w, ¬ Enters d q v lists (n, e) w) :
    ∃ found, walkEntry d q v.links v.place lists (v.names ++ [n]) e = .ok found := by
  cases e with
  | file bytes => exact ⟨_, walkEntry_file bytes⟩
  | folder es =>
    have left : q.entersFolder lists (v.names ++ [n]) = false :=
      Bool.eq_false_iff.mpr fun kept => h _ (.folder kept)
    rw [walkEntry, left]
    exact ⟨_, rfl⟩
  | link t =>
    cases spare : v.links with
    | zero =>
      rw [walkEntry]
      exact ⟨_, rfl⟩
    | succ links =>
      rw [walkEntry]
      split
      · exact ⟨_, rfl⟩
      · rename_i leads
        split
        · exact ⟨_, rfl⟩
        · rename_i both
          rw [Bool.or_eq_true, not_or, Bool.not_eq_true', Bool.not_eq_true',
            Bool.not_eq_false, Bool.not_eq_false] at both
          exact (h _ (.link spare leads both.1 both.2)).elim
      · exact ⟨_, rfl⟩

theorem walkEntries_ends (d : Disk) (q : Query) (links : Nat) (place : Place)
    (lists : List Gitignore) (names : List String) (es : List (String × Disk)) :
    Ends (fun f => ∃ entry ∈ es,
        walkEntry d q links place lists (names ++ [entry.1]) entry.2 = .error f)
      (fun _ => ∀ entry ∈ es, ∃ found,
        walkEntry d q links place lists (names ++ [entry.1]) entry.2 = .ok found)
      (walkEntries d q links place lists names es) := by
  induction es with
  | nil =>
    rw [walkEntries]
    exact .ok (by simp)
  | cons entry es ih =>
    rw [walkEntries]
    cases first : walkEntry d q links place lists (names ++ [entry.1]) entry.2 with
    | error f => exact .error ⟨entry, List.mem_cons_self, first⟩
    | ok found =>
      refine (ih.imp ?_ fun _ => id).bind fun more rest => Ends.ok (a := found ++ more) ?_
      · exact fun f ⟨other, hother, failed⟩ => ⟨other, List.mem_cons_of_mem _ hother, failed⟩
      · exact List.forall_mem_cons.mpr ⟨⟨found, first⟩, rest⟩

/-- The walk of a folder fails by its list or in a folder that it goes into from there. -/
theorem walk_step (d : Disk) (q : Query) (v : Visit) :
    Ends (fun f => (∃ fault, v.Refuses d q fault ∧ f = .pattern fault) ∨
        ∃ w, Step d q v w ∧ w.walk d q = .error f)
      (fun _ => (∀ fault, ¬ v.Refuses d q fault) ∧
        ∀ w, Step d q v w → ∃ found, w.walk d q = .ok found)
      (v.walk d q) := by
  have first := listsBelow_ends d q v
  rw [walk.eq_def d q v]
  cases below : q.listsBelow d v.links v.place v.names v.lists with
  | error f => exact .error (Or.inl (first.failure below))
  | ok lists =>
    refine (walkEntries_ends d q v.links v.place lists v.names v.entries).imp ?_ ?_
    · rintro f ⟨⟨n, e⟩, hentry, failed⟩
      by_cases entered : ∃ w, Enters d q v lists (n, e) w
      · obtain ⟨w, hw⟩ := entered
        exact Or.inr ⟨w, ⟨lists, below, _, hentry, hw⟩, walkEntry_of_enters hw ▸ failed⟩
      · obtain ⟨found, given⟩ := walkEntry_of_not_enters (not_exists.mp entered)
        rw [given] at failed
        cases failed
    · intro found all
      refine ⟨first.result below, ?_⟩
      rintro w ⟨lists', below', ⟨n, e⟩, hentry, hw⟩
      rw [below] at below'
      cases below'
      obtain ⟨inner, given⟩ := all _ hentry
      exact ⟨inner, walkEntry_of_enters hw ▸ given⟩

/-! ### A whole walk -/

/-- A walk goes down, or it follows a link. -/
theorem Step.lt (h : Step d q v w) : Prod.Lex (· < ·) (· < ·)
    (w.links, sizeOf w.entries) (v.links, sizeOf v.entries) := by
  obtain ⟨lists, -, entry, hentry, entered⟩ := h
  cases entered with
  | @folder n es kept =>
    have smaller := List.sizeOf_lt_of_mem hentry
    simp only [Prod.mk.sizeOf_spec, Disk.folder.sizeOf_spec] at smaller
    have : sizeOf es < sizeOf v.entries := by omega
    exact Prod.Lex.right _ this
  | @link n t es place links left spare leads follows kept =>
    have fewer : left < v.links := by
      have := target?_links leads
      omega
    exact Prod.Lex.left _ _ fewer

/-- No walk goes on and on: links run out, and below a link-free way there is less and less. -/
theorem deeper_wellFounded : WellFounded fun w v : Visit => Prod.Lex (· < ·) (· < ·)
    (w.links, sizeOf w.entries) (v.links, sizeOf v.entries) :=
  InvImage.wf (fun v : Visit => (v.links, sizeOf v.entries))
    (WellFounded.prod_lex Nat.lt_wfRel.wf Nat.lt_wfRel.wf)

/-- A walk fails just when a folder that it comes to refuses its list, and then by that. -/
theorem walk_ends (d : Disk) (q : Query) (v : Visit) :
    Ends (fun f => ∃ w, Reaches d q v w ∧ ∃ fault, w.Refuses d q fault ∧ f = .pattern fault)
      (fun _ => ∀ w, Reaches d q v w → ∀ fault, ¬ w.Refuses d q fault)
      (v.walk d q) := by
  induction v using deeper_wellFounded.induction with
  | _ v ih =>
    refine (walk_step d q v).imp ?_ ?_
    · rintro f (refused | ⟨w, step, failed⟩)
      · exact ⟨v, .refl, refused⟩
      · obtain ⟨w', reached, refused⟩ := (ih w step.lt).failure failed
        exact ⟨w', .head step reached, refused⟩
    · rintro - ⟨accepted, others⟩ w reached
      rcases Relation.ReflTransGen.cases_head reached with rfl | ⟨next, step, rest⟩
      · exact accepted
      · obtain ⟨found, given⟩ := others next step
        exact (ih next step.lt).result given w rest

end Visit

/-! ### Discoveries -/

/-- The visit that a discovery begins with: the directory is there, and it is a folder. -/
def StartsAt (d : Disk) (here : Place) (directory : String) (v : Visit) : Prop :=
  ∃ root es, d.settle here directory = some root ∧ d.at? root = some (.folder es) ∧
    v = ⟨linkLimit, root, [], [], es⟩

theorem StartsAt.unique {here : Place} {directory : String} {v w : Visit}
    (h : StartsAt d here directory v) (h' : StartsAt d here directory w) : v = w := by
  obtain ⟨root, es, settled, folder, rfl⟩ := h
  obtain ⟨root', es', settled', folder', rfl⟩ := h'
  rw [settled] at settled'
  cases settled'
  rw [folder] at folder'
  cases folder'
  rfl

/-- The default patterns are patterns. -/
theorem make_default (options : Options)
    (included : options.includePatterns = defaultIncludePatterns)
    (excluded : options.excludePatterns = defaultExcludePatterns) :
    ∃ q, Query.make options [] [] = .ok q := by
  have accepts : (Selection.ofLines (distinctBy id (defaultIncludePatterns ++ []))).isOk = true ∧
      (Pattern.parseAll (distinctBy id (defaultExcludePatterns ++ []))).isOk = true := by
    decide +kernel
  unfold Query.make
  rw [included, excluded]
  cases names : Selection.ofLines (distinctBy id (defaultIncludePatterns ++ [])) with
  | error _ =>
    rw [names] at accepts
    cases accepts.1
  | ok _ =>
    cases others : Pattern.parseAll (distinctBy id (defaultExcludePatterns ++ [])) with
    | error _ =>
      rw [others] at accepts
      cases accepts.2
    | ok _ => exact ⟨_, rfl⟩

theorem respectGitignore_make {options : Options} {furtherInclude furtherExclude : List String}
    (h : Query.make options furtherInclude furtherExclude = .ok q) :
    q.respectGitignore = options.respectGitignore := by
  unfold Query.make at h
  obtain ⟨included, -, h⟩ := bind_eq_ok.mp h
  obtain ⟨excluded, -, h⟩ := bind_eq_ok.mp h
  cases h
  rfl

/-- Past its query, a discovery is the walk that begins at its directory. -/
theorem files_eq_walk {here : Place} {directory : String} {options : Options}
    {furtherInclude furtherExclude : List String} {v : Visit}
    (hq : Query.make options furtherInclude furtherExclude = .ok q)
    (start : StartsAt d here directory v) :
    files d here directory options furtherInclude furtherExclude =
      (v.walk d q).map fun found => Collation.inOrder (found.map fun names =>
        pathOf (v.place ++ names)) := by
  obtain ⟨root, es, settled, folder, rfl⟩ := start
  rw [files, settled]
  simp only [folder, hq, ok_bind, Visit.walk]
  cases q.listsBelow d linkLimit root [] [] with
  | error _ => rfl
  | ok lists =>
    simp only [ok_bind]
    cases walkEntries d q linkLimit root lists [] es <;> rfl

/-- How a discovery fails whose directory is no folder. -/
def DirectoryFault (d : Disk) (here : Place) (directory : String) (f : Failure) : Prop :=
  (d.settle here directory = none ∧ f = .linkCircle directory) ∨
    ∃ root, d.settle here directory = some root ∧ (∀ es, d.at? root ≠ some (.folder es)) ∧
      f = .noDirectory (pathOf root)

theorem files_of_not_starts {here : Place} {directory : String} {options : Options}
    {furtherInclude furtherExclude : List String} (h : ∀ v, ¬ StartsAt d here directory v) :
    ∃ f, files d here directory options furtherInclude furtherExclude = .error f ∧
      DirectoryFault d here directory f := by
  unfold files DirectoryFault
  cases settled : d.settle here directory with
  | none => exact ⟨_, rfl, Or.inl ⟨rfl, rfl⟩⟩
  | some root =>
    have other : ∀ es, d.at? root ≠ some (.folder es) :=
      fun es folder => h _ ⟨root, es, settled, folder, rfl⟩
    refine ⟨.noDirectory (pathOf root), ?_, Or.inr ⟨root, rfl, other, rfl⟩⟩
    dsimp only
    split
    · rename_i folder
      exact (other _ folder).elim
    · rfl

/-- With the default patterns, a discovery gives files just when its directory is a folder and no
list that the walk comes upon has a line that is refused. Otherwise it fails by its directory or by
such a line. -/
theorem files_given_iff (d : Disk) (here : Place) (directory : String) (options : Options)
    (included : options.includePatterns = defaultIncludePatterns)
    (excluded : options.excludePatterns = defaultExcludePatterns) :
    ∃ q, Query.make options [] [] = .ok q ∧
      ((∃ paths, files d here directory options [] [] = .ok paths) ↔
        ∃ v, StartsAt d here directory v ∧
          ∀ w, v.Reaches d q w → ∀ fault, ¬ w.Refuses d q fault) ∧
      ∀ f, files d here directory options [] [] = .error f →
        DirectoryFault d here directory f ∨
        ∃ v w fault, StartsAt d here directory v ∧ v.Reaches d q w ∧ w.Refuses d q fault ∧
          f = .pattern fault := by
  obtain ⟨q, hq⟩ := make_default options included excluded
  refine ⟨q, hq, ?_⟩
  by_cases starts : ∃ v, StartsAt d here directory v
  · obtain ⟨v, start⟩ := starts
    have ends := v.walk_ends d q
    rw [files_eq_walk hq start]
    cases walked : v.walk d q with
    | ok found =>
      refine ⟨⟨fun _ => ⟨v, start, ends.result walked⟩, fun _ => ⟨_, rfl⟩⟩, ?_⟩
      rintro f ⟨⟩
    | error f =>
      obtain ⟨w, reached, fault, refused, rfl⟩ := ends.failure walked
      refine ⟨⟨?_, ?_⟩, ?_⟩
      · rintro ⟨_, ⟨⟩⟩
      · rintro ⟨v', start', accepted⟩
        exact (accepted w (start'.unique start ▸ reached) fault refused).elim
      · rintro f ⟨⟩
        exact Or.inr ⟨v, w, fault, start, reached, refused, rfl⟩
  · obtain ⟨f, failed, absent⟩ : ∃ f, files d here directory options [] [] = .error f ∧
        DirectoryFault d here directory f := files_of_not_starts (not_exists.mp starts)
    rw [failed]
    refine ⟨⟨?_, fun ⟨v, start, _⟩ => (starts ⟨v, start⟩).elim⟩, ?_⟩
    · rintro ⟨_, ⟨⟩⟩
    · rintro f ⟨⟩
      exact Or.inl absent

/-! ### A project with an ignore list -/

/-- What lies in a project with a script and an ignore list of one line. -/
def listedEntries (line : String) : List (String × Disk) :=
  [(Gitignore.fileName, .file (Text.encode (line ++ "\n").toList)), ("app.js", .file [])]

def listed (line : String) : Disk := .folder [("p", .folder (listedEntries line))]

/-- A discovery in the project begins in its folder. -/
def listedVisit (line : String) : Visit := ⟨linkLimit, ["p"], [], [], listedEntries line⟩

theorem listed_folder (line : String) :
    (listed line).at? ["p"] = some (.folder (listedEntries line)) := rfl

theorem listed_starts (line : String) : StartsAt (listed line) [] "/p" (listedVisit line) := by
  refine ⟨["p"], listedEntries line, ?_, listed_folder line, rfl⟩
  have spelled : pathOf ["p"] = "/p" := by decide +kernel
  rw [← spelled]
  exact settle_pathOf [] (listed_folder line) (by decide)

theorem listed_list (line : String) :
    (listed line).fileFrom? linkLimit ["p"] [Gitignore.fileName] =
      some (Text.encode (line ++ "\n").toList) :=
  fileFrom?_name 39 (listed_folder line) (by decide)

/-- A discovery in the project does not leave its folder. -/
theorem listed_stays {line : String} {w : Visit}
    (h : (listedVisit line).Reaches (listed line) q w) : w = listedVisit line := by
  rcases Relation.ReflTransGen.cases_head h with rfl | ⟨next, ⟨lists, -, entry, hentry, entered⟩, -⟩
  · rfl
  · simp only [listedVisit, listedEntries, List.mem_cons, List.not_mem_nil, or_false] at hentry
    rcases hentry with rfl | rfl
    · cases entered
    · cases entered

/-- Where the list says to leave out what is built, there are files. -/
theorem files_given_distList : ({} : Options).includePatterns = defaultIncludePatterns ∧
    ({} : Options).excludePatterns = defaultExcludePatterns ∧
    ∃ paths, files (listed "dist/") [] "/p" {} [] [] = .ok paths := by
  refine ⟨rfl, rfl, ?_⟩
  obtain ⟨q, -, given, -⟩ := files_given_iff (listed "dist/") [] "/p" {} rfl rfl
  refine given.mpr ⟨_, listed_starts "dist/", fun w reached fault refused => ?_⟩
  obtain rfl := listed_stays reached
  obtain ⟨-, bytes, there, refused⟩ := refused
  have read : Gitignore.patternsOf (Text.encode "dist/\n".toList) =
      .ok [⟨false, .above :: "dist".toList.map .char, .below⟩] := by decide +kernel
  obtain rfl := Option.some.inj ((listed_list "dist/").symm.trans there)
  exact (Gitignore.patternsOf_ends _).result read fault refused

/-- Where the list has a line that negates nothing, the discovery fails, although its directory is
a folder. -/
theorem files_not_given_loneNegation : StartsAt (listed "!") [] "/p" (listedVisit "!") ∧
    ∃ fault, files (listed "!") [] "/p" {} [] [] = .error (.pattern fault) := by
  refine ⟨listed_starts "!", ?_⟩
  obtain ⟨q, hq⟩ := make_default {} rfl rfl
  have refused : (listedVisit "!").Refuses (listed "!") q (.invalid "!\n") := by
    refine ⟨respectGitignore_make hq, _, listed_list "!", "!\n".toList, ?_, "!\n", ?_, ?_⟩
    · decide +kernel
    · decide +kernel
    · decide +kernel
  have ends := (listedVisit "!").walk_ends (listed "!") q
  rw [files_eq_walk hq (listed_starts "!")]
  cases walked : (listedVisit "!").walk (listed "!") q with
  | ok found => exact (ends.result walked _ .refl _ refused).elim
  | error f =>
    obtain ⟨w, -, fault, -, rfl⟩ := ends.failure walked
    exact ⟨fault, rfl⟩

end Discovery

end EnvCensus
