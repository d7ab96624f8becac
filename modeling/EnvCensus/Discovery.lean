import EnvCensus.Finding.Merge
import EnvCensus.Gitignore
import EnvCensus.Options
import EnvCensus.Pattern

/-! Discovery of the files to look at.  The tree below a directory is walked from the top down.
What is excluded or ignored is left out, a folder with all that lies below it; of the files, those
are taken that are included and not too large.  Links to folders are followed only on demand. -/
namespace EnvCensus.Discovery

/-- What is looked for. -/
structure Query where
  included : Selection
  excluded : List Pattern
  respectGitignore : Bool
  followSymlinks : Bool
  maxFileSize : Int

/-- The query of options, with patterns beside those of the options. -/
def Query.make (options : Options) (furtherInclude furtherExclude : List String) :
    Except Failure Query := do
  let included ← (Selection.ofLines
    (distinctBy id (options.includePatterns ++ furtherInclude))).mapError Failure.pattern
  let excluded ← (Pattern.parseAll
    (distinctBy id (options.excludePatterns ++ furtherExclude))).mapError Failure.pattern
  return ⟨included, excluded, options.respectGitignore, options.followSymlinks,
    options.maxFileSize⟩

/-- Whether the walk goes into the folder that the names lead to. -/
def Query.entersFolder (q : Query) (lists : List Gitignore) (names : List String) : Bool :=
  !Pattern.selects q.excluded (Gitignore.pathText names true) &&
    !Gitignore.isIgnored lists names true

/-- Whether the walk takes the file of these bytes that the names lead to. -/
def Query.takesFile (q : Query) (lists : List Gitignore) (names : List String)
    (bytes : List UInt8) : Bool :=
  let path := Gitignore.pathText names false
  q.included.selects path && !Pattern.selects q.excluded path &&
    !Gitignore.isIgnored lists names false && decide ((bytes.length : Int) ≤ q.maxFileSize)

/-- The lists that apply below a folder. -/
def Query.listsBelow (q : Query) (d : Disk) (links : Nat) (place : Disk.Place)
    (names : List String) (lists : List Gitignore) : Except Failure (List Gitignore) := do
  if !q.respectGitignore then return lists
  return (← Gitignore.ofFolder? d links place names).toList ++ lists

/-- What a link at a place leads to, with the place of it and the number of links left. -/
def target? (d : Disk) (links : Nat) (place : Disk.Place) (target : String) :
    Option (Disk × Disk.Place × Nat) :=
  match d.routeFrom links (Disk.linkStart place target).1 (Disk.linkStart place target).2 with
  | .ok (final, left) => (d.at? final).map fun e => (e, final, left)
  | .error _ => none

theorem target?_links {d e : Disk} {links left : Nat} {place final : Disk.Place} {t : String}
    (h : target? d links place t = some (e, final, left)) : left ≤ links := by
  unfold target? at h
  split at h
  · rename_i f l hr
    simp only [Option.map_eq_some_iff, Prod.mk.injEq] at h
    obtain ⟨_, _, _, _, rfl⟩ := h
    exact Disk.routeFrom_links hr
  · cases h

mutual

/-- The names of the files that are taken at and below an entry of the folder at a place; `names`
lead to the entry from the root. -/
def walkEntry (d : Disk) (q : Query) (links : Nat) (place : Disk.Place) (lists : List Gitignore)
    (names : List String) (entry : Disk) : Except Failure (List (List String)) :=
  match entry with
  | .file bytes => .ok (if q.takesFile lists names bytes then [names] else [])
  | .folder es => do
    if !q.entersFolder lists names then return []
    let place := place ++ [names.getLastD ""]
    walkEntries d q links place (← q.listsBelow d links place names lists) names es
  | .link t =>
    match links with
    | 0 => .ok []
    | links + 1 =>
      match h : target? d links place t with
      | some (.file bytes, _, _) => .ok (if q.takesFile lists names bytes then [names] else [])
      | some (.folder es, place, left) => do
        have : left ≤ links := target?_links h
        if !q.followSymlinks || !q.entersFolder lists names then return []
        walkEntries d q left place (← q.listsBelow d left place names lists) names es
      | _ => .ok []
termination_by (links, sizeOf entry)

/-- The names of the files that are taken at and below the entries of the folder at a place. -/
def walkEntries (d : Disk) (q : Query) (links : Nat) (place : Disk.Place)
    (lists : List Gitignore) (names : List String) (es : List (String × Disk)) :
    Except Failure (List (List String)) :=
  match es with
  | [] => .ok []
  | (name, entry) :: rest => do
    let first ← walkEntry d q links place lists (names ++ [name]) entry
    return first ++ (← walkEntries d q links place lists names rest)
termination_by (links, sizeOf es)

end

/-- The absolute paths of the files to look at below a directory, in the order of texts. -/
def files (d : Disk) (here : Disk.Place) (directory : String) (options : Options)
    (furtherInclude furtherExclude : List String) : Except Failure (List String) :=
  match d.settle here directory with
  | none => .error (.linkCircle directory)
  | some root =>
    match d.at? root with
    | some (.folder es) => do
      let q ← Query.make options furtherInclude furtherExclude
      let lists ← q.listsBelow d Disk.linkLimit root [] []
      let found ← walkEntries d q Disk.linkLimit root lists [] es
      return (found.map fun names => Disk.pathOf (root ++ names)).mergeSort fun a b =>
        Collation.textLe a.toList b.toList
    | _ => .error (.noDirectory (Disk.pathOf root))

end EnvCensus.Discovery
