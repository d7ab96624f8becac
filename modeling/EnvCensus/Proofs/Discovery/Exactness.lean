import EnvCensus.Proofs.Discovery.Sought
import EnvCensus.Proofs.Disk.Order
import EnvCensus.Proofs.Distinct

/-!
# Which files are discovered

The files that a discovery in a tree without links gives are the ones that are
sought there, in the strict order of their paths. The order in which the folders
list their entries plays no part.
-/

namespace EnvCensus.Discovery

open Disk

variable {d d' : Disk} {q : Query} {root : Place} {names base : List String} {folder : Bool}
  {patterns : List Pattern}

/-! ### Discoveries -/

/-- The query asks for what the options ask for, with patterns beside theirs. -/
structure Query.Asks (q : Query) (options : Options)
    (furtherInclude furtherExclude : List String) : Prop where
  included : Selection.ofLines (options.includePatterns ++ furtherInclude) = .ok q.included
  excluded : Pattern.parseAll (options.excludePatterns ++ furtherExclude) = .ok q.excluded
  respectGitignore : q.respectGitignore = options.respectGitignore
  followSymlinks : q.followSymlinks = options.followSymlinks
  maxFileSize : q.maxFileSize = options.maxFileSize

/-- Of patterns without repetitions the query is made as they stand. -/
theorem Query.Asks.make {options : Options} {furtherInclude furtherExclude : List String}
    (asks : q.Asks options furtherInclude furtherExclude)
    (includeOnce : (options.includePatterns ++ furtherInclude).Nodup)
    (excludeOnce : (options.excludePatterns ++ furtherExclude).Nodup) :
    Query.make options furtherInclude furtherExclude = .ok q := by
  rw [Query.make, distinctBy_of_nodup (by rwa [List.map_id]),
    distinctBy_of_nodup (by rwa [List.map_id]), asks.included, asks.excluded,
    ← asks.respectGitignore, ← asks.followSymlinks, ← asks.maxFileSize]
  rfl

/-- What is sought in a tree is what is to be found at the entries of its root. -/
theorem Query.seeks_iff {es : List (String × Disk)} (there : d.at? root = some (.folder es)) :
    q.Seeks d root names ↔ ∃ e ∈ es, q.Finds d root [e.1] names := by
  constructor
  · rintro ⟨⟨bytes, wanted⟩, reached⟩
    have stands := wanted.there
    rw [at?_append, there, Option.bind_some] at stands
    obtain ⟨e, he, rest, rfl, -⟩ := folder_at?_file stands
    refine ⟨e, he, ⟨rest, rfl⟩, ⟨bytes, wanted⟩, fun above below back ne => ?_⟩
    refine reached above back ?_ ne
    rintro rfl
    cases List.prefix_nil.mp below
  · rintro ⟨e, -, ⟨tail, rfl⟩, wanted, reached⟩
    refine ⟨wanted, fun above back nonempty ne => reached above ?_ back ne⟩
    cases above with
    | nil => exact absurd rfl nonempty
    | cons m rest =>
      obtain ⟨rfl, -⟩ := List.cons_prefix_cons.mp back
      exact ⟨rest, rfl⟩

/-- A discovery in a tree gives the paths of the files that are sought. -/
theorem files_seek (tree : IsTree d root) {here : Place} {directory : String} {options : Options}
    {furtherInclude furtherExclude : List String} (settled : d.settle here directory = some root)
    (made : Query.make options furtherInclude furtherExclude = .ok q)
    (accepted : q.respectGitignore = true → ListsAccepted d root) :
    ∃ paths, files d here directory options furtherInclude furtherExclude = .ok paths ∧
      (paths.Pairwise fun a b => a.toList < b.toList) ∧
      ∀ path, path ∈ paths ↔ ∃ names, q.Seeks d root names ∧ path = pathOf (root ++ names) := by
  obtain ⟨es, folder⟩ := tree.folder
  have there : d.at? (root ++ []) = some (.folder es) := by rwa [List.append_nil]
  obtain ⟨lists, hlists, inForce⟩ := inForce_nil.listsBelow tree accepted there
  obtain ⟨found, hfound, hexact⟩ := walkEntries_exact tree accepted es inForce fun e he => by
    rw [List.nil_append, at?_concat, folder]
    exact (tree.named.at? folder).child? he
  rw [List.append_nil] at hlists hfound
  have given := (files_ok settled folder).mpr ⟨q, lists, found, made, hlists, hfound, rfl⟩
  obtain ⟨once, ordered⟩ := files_ordered tree.named given
  refine ⟨_, given, Collation.ascending_of_inOrder once ordered, fun path => ?_⟩
  simp only [(Collation.inOrder_perm _).mem_iff, List.mem_map, hexact, List.nil_append,
    ← Query.seeks_iff folder, eq_comm]

/-! ### Other orders of entries -/

section

variable (same : Rearranged d d')
include same

theorem HasList.rearranged (h : HasList d root base patterns) : HasList d' root base patterns := by
  obtain ⟨bytes, there, read⟩ := h
  exact ⟨bytes, (same.at?_leaf rfl).mpr there, read⟩

theorem IgnoredFromAbove.rearranged (h : IgnoredFromAbove d root names folder) :
    IgnoredFromAbove d' root names folder := by
  obtain ⟨base, tail, patterns, spelled, below, has, selected⟩ := h
  exact ⟨base, tail, patterns, spelled, below, has.rearranged same, selected⟩

theorem Query.Admits.rearranged (h : q.Admits d root names folder) :
    q.Admits d' root names folder where
  kept := h.kept
  heeded respected ignored := h.heeded respected (ignored.rearranged same.symm)

theorem Query.Wants.rearranged {bytes : List UInt8} (h : q.Wants d root names bytes) :
    q.Wants d' root names bytes where
  there := (same.at?_leaf rfl).mpr h.there
  included := h.included
  small := h.small
  admitted := h.admitted.rearranged same

theorem Query.Seeks.rearranged (h : q.Seeks d root names) : q.Seeks d' root names where
  wanted := by
    obtain ⟨bytes, wanted⟩ := h.wanted
    exact ⟨bytes, wanted.rearranged same⟩
  reached above back nonempty ne := (h.reached above back nonempty ne).rearranged same

theorem IsTree.rearranged (tree : IsTree d root) : IsTree d' root where
  named := same.named tree.named
  folder := by
    obtain ⟨es, there⟩ := tree.folder
    exact same.at?_folder there
  linkless names target := mt (same.at?_leaf rfl).mp (tree.linkless names target)

theorem ListsAccepted.rearranged (accepted : ListsAccepted d root) : ListsAccepted d' root :=
  fun base bytes there => accepted base bytes ((same.at?_leaf rfl).mp there)

end

/-- A discovery in a tree without links gives the paths of the files that are sought, in strict
order, and in whatever order the folders list their entries. -/
theorem files_exact {here : Place} {directory : String} {options : Options}
    {furtherInclude furtherExclude : List String} (tree : IsTree d root)
    (settled : d.settle here directory = some root)
    (asks : q.Asks options furtherInclude furtherExclude)
    (includeOnce : (options.includePatterns ++ furtherInclude).Nodup)
    (excludeOnce : (options.excludePatterns ++ furtherExclude).Nodup)
    (accepted : options.respectGitignore = true → ListsAccepted d root) :
    ∃ paths, files d here directory options furtherInclude furtherExclude = .ok paths ∧
      (paths.Pairwise fun a b => a.toList < b.toList) ∧
      (∀ path, path ∈ paths ↔ ∃ names, q.Seeks d root names ∧ path = pathOf (root ++ names)) ∧
      ∀ d', Rearranged d d' →
        files d' here directory options furtherInclude furtherExclude = .ok paths := by
  have made := asks.make includeOnce excludeOnce
  rw [← asks.respectGitignore] at accepted
  obtain ⟨paths, given, ascending, members⟩ := files_seek tree settled made accepted
  refine ⟨paths, given, ascending, members, fun d' same => ?_⟩
  obtain ⟨paths', given', ascending', members'⟩ := files_seek (tree.rearranged same)
    ((same.settle here directory).trans settled) made
    fun respected => (accepted respected).rearranged same
  rw [given', Collation.eq_of_ascending ascending' ascending]
  intro path
  rw [members, members']
  constructor
  · rintro ⟨names, sought, spelled⟩
    exact ⟨names, sought.rearranged same.symm, spelled⟩
  · rintro ⟨names, sought, spelled⟩
    exact ⟨names, sought.rearranged same, spelled⟩

/-! ### A project in no order -/

/-- The entries of a folder with a script that its own ignore list leaves out. -/
def sourceEntries : List (String × Disk) :=
  [("local.js", .file []), (Gitignore.fileName, .file (Text.encode "local.js\n".toList)),
    ("app.js", .file [])]

/-- The entries of a project with such a folder, and with another one that it leaves out. -/
def workshopEntries : List (String × Disk) :=
  [("src", .folder sourceEntries), ("secret", .folder [("keys.js", .file [])]),
    (Gitignore.fileName, .file (Text.encode "secret/\n".toList))]

def workshop : Disk := .folder [("p", .folder workshopEntries)]

/-- Scripts are looked for, save those that have been built. -/
def workshopOptions : Options := { includePatterns := ["*.js"], excludePatterns := ["dist/"] }

def workshopQuery : Query where
  included := ⟨[⟨false, .above :: .run :: ".js".toList.map .char, .segment⟩], []⟩
  excluded := [⟨false, .above :: "dist".toList.map .char, .below⟩]
  respectGitignore := true
  followSymlinks := false
  maxFileSize := defaultMaxFileSize

theorem workshop_asks : workshopQuery.Asks workshopOptions [] [] where
  included := by decide +kernel
  excluded := by decide +kernel
  respectGitignore := rfl
  followSymlinks := rfl
  maxFileSize := rfl

theorem workshop_isTree : IsTree workshop ["p"] := by
  have project : workshop.at? ["p"] = some (.folder workshopEntries) := rfl
  refine IsTree.of_linkFree ?_ project ?_
  · have source : Named (.folder sourceEntries) :=
      .folder (by decide) (by decide) (by simp [sourceEntries, Named.file])
    have secret : Named (.folder [("keys.js", .file [])]) :=
      .folder (by decide) (by decide) (by simp [Named.file])
    have project : Named (.folder workshopEntries) :=
      .folder (by decide) (by decide) (by simp [workshopEntries, Named.file, source, secret])
    exact .folder (by decide) (by decide) (by simp [project])
  · have source : LinkFree (.folder sourceEntries) :=
      .folder (by simp [sourceEntries, LinkFree.file])
    have secret : LinkFree (.folder [("keys.js", .file [])]) := .folder (by simp [LinkFree.file])
    exact .folder (by simp [workshopEntries, LinkFree.file, source, secret])

theorem workshop_files {names : List String} {bytes : List UInt8}
    (h : workshop.at? ("p" :: names) = some (.file bytes)) :
    (names = ["src", "local.js"] ∧ bytes = []) ∨
    (names = ["src", Gitignore.fileName] ∧ bytes = Text.encode "local.js\n".toList) ∨
    (names = ["src", "app.js"] ∧ bytes = []) ∨
    (names = ["secret", "keys.js"] ∧ bytes = []) ∨
    (names = [Gitignore.fileName] ∧ bytes = Text.encode "secret/\n".toList) := by
  have inside : (Disk.folder workshopEntries).at? names = some (.file bytes) := h
  obtain ⟨e, he, rest, rfl, below⟩ := folder_at?_file inside
  simp only [workshopEntries, List.mem_cons, List.not_mem_nil, or_false] at he
  rcases he with rfl | rfl | rfl
  · obtain ⟨c, hc, rest, rfl, below⟩ := folder_at?_file below
    simp only [sourceEntries, List.mem_cons, List.not_mem_nil, or_false] at hc
    rcases hc with rfl | rfl | rfl
    all_goals
      obtain ⟨rfl, rfl⟩ := file_at? below
      simp
  · obtain ⟨c, hc, rest, rfl, below⟩ := folder_at?_file below
    obtain rfl := List.mem_singleton.mp hc
    obtain ⟨rfl, rfl⟩ := file_at? below
    simp
  · obtain ⟨rfl, rfl⟩ := file_at? below
    simp

/-- What the list in the folder of the scripts says. -/
def sourceList : List Pattern :=
  [⟨false, .above :: "local.js".toList.map .char, .segment⟩]

/-- What the list of the project says. -/
def workshopList : List Pattern :=
  [⟨false, .above :: "secret".toList.map .char, .below⟩]

theorem read_sourceList :
    Gitignore.patternsOf (Text.encode "local.js\n".toList) = .ok sourceList := by
  decide +kernel

theorem read_workshopList :
    Gitignore.patternsOf (Text.encode "secret/\n".toList) = .ok workshopList := by
  decide +kernel

theorem workshop_listFiles {bytes : List UInt8}
    (h : workshop.at? (["p"] ++ (base ++ [Gitignore.fileName])) = some (.file bytes)) :
    (base = ["src"] ∧ bytes = Text.encode "local.js\n".toList) ∨
      (base = [] ∧ bytes = Text.encode "secret/\n".toList) := by
  have last : ∀ (above : List String) {name : String},
      base ++ [Gitignore.fileName] = above ++ [name] →
        base = above ∧ Gitignore.fileName = name := by
    intro above name same
    obtain ⟨rfl, names⟩ := List.append_inj' same rfl
    exact ⟨rfl, List.singleton_inj.mp names⟩
  rcases workshop_files h with ⟨same, rfl⟩ | ⟨same, rfl⟩ | ⟨same, rfl⟩ | ⟨same, rfl⟩ | ⟨same, rfl⟩
  · exact absurd (last ["src"] same).2 (by decide)
  · exact Or.inl ⟨(last ["src"] same).1, rfl⟩
  · exact absurd (last ["src"] same).2 (by decide)
  · exact absurd (last ["secret"] same).2 (by decide)
  · exact Or.inr ⟨(last [] same).1, rfl⟩

theorem workshop_listsAccepted : ListsAccepted workshop ["p"] := by
  intro base bytes there
  rcases workshop_listFiles there with ⟨-, rfl⟩ | ⟨-, rfl⟩
  · exact ⟨_, read_sourceList⟩
  · exact ⟨_, read_workshopList⟩

theorem workshop_hasList (h : HasList workshop ["p"] base patterns) :
    (base = ["src"] ∧ patterns = sourceList) ∨ (base = [] ∧ patterns = workshopList) := by
  obtain ⟨bytes, there, read⟩ := h
  rcases workshop_listFiles there with ⟨rfl, rfl⟩ | ⟨rfl, rfl⟩
  · exact Or.inl ⟨rfl, Except.ok.inj (read.symm.trans read_sourceList)⟩
  · exact Or.inr ⟨rfl, Except.ok.inj (read.symm.trans read_workshopList)⟩

theorem workshop_admits
    (kept : Pattern.selects workshopQuery.excluded (Gitignore.pathText names folder) = false)
    (bySource : ∀ tail, names = ["src"] ++ tail → tail ≠ [] →
      Pattern.selects sourceList (Gitignore.pathText tail folder) = false)
    (byWorkshop : Pattern.selects workshopList (Gitignore.pathText names folder) = false) :
    workshopQuery.Admits workshop ["p"] names folder := by
  refine ⟨kept, fun _ => ?_⟩
  rintro ⟨base, tail, patterns, rfl, below, has, selected⟩
  rcases workshop_hasList has with ⟨rfl, rfl⟩ | ⟨rfl, rfl⟩
  · rw [bySource tail rfl below] at selected
    cases selected
  · rw [List.nil_append] at byWorkshop
    rw [byWorkshop] at selected
    cases selected

/-- Of the scripts only the one is sought that no list leaves out. -/
theorem workshop_seeks : workshopQuery.Seeks workshop ["p"] names ↔ names = ["src", "app.js"] := by
  constructor
  · rintro ⟨⟨bytes, wanted⟩, reached⟩
    rcases workshop_files wanted.there with
      ⟨rfl, -⟩ | ⟨rfl, -⟩ | ⟨rfl, -⟩ | ⟨rfl, -⟩ | ⟨rfl, -⟩
    · exact (wanted.admitted.heeded rfl ⟨["src"], ["local.js"], sourceList, rfl, by simp,
        ⟨_, rfl, read_sourceList⟩, by decide +kernel⟩).elim
    · exact absurd wanted.included (by decide +kernel)
    · rfl
    · have admitted := reached ["secret"] ⟨["keys.js"], rfl⟩ (by simp) (by simp)
      exact (admitted.heeded rfl ⟨[], ["secret"], workshopList, rfl, by simp,
        ⟨_, rfl, read_workshopList⟩, by decide +kernel⟩).elim
    · exact absurd wanted.included (by decide +kernel)
  · rintro rfl
    refine ⟨⟨[], rfl, by decide +kernel, by decide, ?_⟩, ?_⟩
    · refine workshop_admits (by decide +kernel) ?_ (by decide +kernel)
      intro tail same _
      obtain rfl : ["app.js"] = tail := (List.cons.inj same).2
      decide +kernel
    · intro above back nonempty ne
      rcases List.prefix_cons_iff.mp back with rfl | ⟨rest, rfl, below⟩
      · exact absurd rfl nonempty
      rcases List.prefix_cons_iff.mp below with rfl | ⟨rest, rfl, nothing⟩
      · refine workshop_admits (by decide +kernel) ?_ (by decide +kernel)
        exact fun tail same below => absurd (List.self_eq_append_right.mp same) below
      · rw [List.prefix_nil.mp nothing] at ne
        exact absurd rfl ne

/-- In the project one script is discovered, in whatever order the folders list their entries. -/
theorem files_exact_workshop : IsTree workshop ["p"] ∧ workshop.settle [] "/p" = some ["p"] ∧
    workshopQuery.Asks workshopOptions [] [] ∧ ListsAccepted workshop ["p"] ∧
    files workshop [] "/p" workshopOptions [] [] = .ok ["/p/src/app.js"] ∧
    ∀ d', Rearranged workshop d' →
      files d' [] "/p" workshopOptions [] [] = .ok ["/p/src/app.js"] := by
  have settled : workshop.settle [] "/p" = some ["p"] := by
    have spelled : pathOf ["p"] = "/p" := by decide +kernel
    have project : workshop.at? ["p"] = some (.folder workshopEntries) := rfl
    rw [← spelled]
    exact settle_pathOf [] project (by decide)
  obtain ⟨paths, given, ascending, members, rearranged⟩ := files_exact workshop_isTree settled
    workshop_asks (by decide) (by decide) fun _ => workshop_listsAccepted
  have path : pathOf (["p"] ++ ["src", "app.js"]) = "/p/src/app.js" := by decide +kernel
  have one : paths = ["/p/src/app.js"] := by
    refine Collation.eq_of_ascending ascending (by simp) fun z => ?_
    simp only [members, workshop_seeks, exists_eq_left, path, List.mem_singleton]
  rw [one] at given rearranged
  exact ⟨workshop_isTree, settled, workshop_asks, workshop_listsAccepted, given, rearranged⟩

end EnvCensus.Discovery
