import EnvCensus.Proofs.Discovery.Visits

/-!
# Queries that find the same

A query picks files and clears folders by their names alone; what a discovery
finds depends on it in no other way. So two queries with the same settings have
the same discoveries on every disk when they clear the same folders and pick the
same files. Where they differ in a file, a disk with only this file tells them
apart, and where they differ in a folder, a disk with only this folder and a list
in it that is refused.
-/

namespace EnvCensus.Discovery

open Disk

variable {d : Disk} {q q' : Query} {lists : List Gitignore} {names base : List String} {n : String}
  {es : List (String × Disk)} {bytes : List UInt8} {place p : Place}

/-! ### What a query says of names -/

/-- Neither the folder at the names nor a folder above it is excluded. -/
def Query.Clears (q : Query) (names : List String) : Prop :=
  ∀ above, above <+: names → above ≠ [] →
    Pattern.selects q.excluded (Gitignore.pathText above true) = false

/-- In the folder at the names, the file of this name is included, and nothing there or above it is
excluded. -/
def Query.Picks (q : Query) (base : List String) (n : String) : Prop :=
  q.included.selects (Gitignore.pathText (base ++ [n]) false) = true ∧
    Pattern.selects q.excluded (Gitignore.pathText (base ++ [n]) false) = false ∧ q.Clears base

theorem Query.clears_nil : q.Clears [] := fun _ above nonempty =>
  absurd (List.prefix_nil.mp above) nonempty

theorem Query.clears_concat : q.Clears (names ++ [n]) ↔
    Pattern.selects q.excluded (Gitignore.pathText (names ++ [n]) true) = false ∧
      q.Clears names := by
  unfold Clears
  simp only [List.prefix_concat_iff, or_imp, forall_and, forall_eq]
  exact and_congr_left' ⟨fun h => h (by simp), fun h _ => h⟩

theorem Query.Clears.above (h : q.Clears names) (above : base <+: names) : q.Clears base :=
  fun _ further => h _ (further.trans above)

theorem Query.entersFolder_iff (clear : q.Clears names) :
    q.entersFolder lists (names ++ [n]) = true ↔
      q.Clears (names ++ [n]) ∧ Gitignore.isIgnored lists (names ++ [n]) true = false := by
  rw [clears_concat, and_iff_left clear, entersFolder]
  simp

theorem Query.takesFile_iff (clear : q.Clears names) :
    q.takesFile lists (names ++ [n]) bytes = true ↔ q.Picks names n ∧
      Gitignore.isIgnored lists (names ++ [n]) false = false ∧
      (bytes.length : Int) ≤ q.maxFileSize := by
  rw [Picks, and_iff_left clear, takesFile]
  simp [and_assoc]

/-- The queries have the same settings, clear the same folders if lists are read there, and pick the
same files if there are any that are not too large. -/
structure Query.Agrees (q q' : Query) : Prop where
  respectGitignore : q.respectGitignore = q'.respectGitignore
  followSymlinks : q.followSymlinks = q'.followSymlinks
  maxFileSize : q.maxFileSize = q'.maxFileSize
  clears : q.respectGitignore = true → ∀ names, (∀ n ∈ names, Path.Proper n) →
    (q.Clears names ↔ q'.Clears names)
  picks : 0 ≤ q.maxFileSize → ∀ base n, (∀ m ∈ base ++ [n], Path.Proper m) →
    (q.Picks base n ↔ q'.Picks base n)

namespace Query.Agrees

theorem symm (agree : q.Agrees q') : q'.Agrees q where
  respectGitignore := agree.respectGitignore.symm
  followSymlinks := agree.followSymlinks.symm
  maxFileSize := agree.maxFileSize.symm
  clears read names proper :=
    (agree.clears (agree.respectGitignore.trans read) names proper).symm
  picks room base n proper := (agree.picks (agree.maxFileSize ▸ room) base n proper).symm

theorem listsBelow (agree : q.Agrees q') {links : Nat} :
    q.listsBelow d links place names lists = q'.listsBelow d links place names lists := by
  unfold Query.listsBelow
  rw [agree.respectGitignore]

theorem takesFile (agree : q.Agrees q') (clear : q.Clears names) (clear' : q'.Clears names)
    (proper : ∀ m ∈ names ++ [n], Path.Proper m)
    (taken : q.takesFile lists (names ++ [n]) bytes = true) :
    q'.takesFile lists (names ++ [n]) bytes = true := by
  obtain ⟨picked, heeded, small⟩ := (takesFile_iff clear).mp taken
  have room : 0 ≤ q.maxFileSize := (Int.natCast_nonneg _).trans small
  exact (takesFile_iff clear').mpr
    ⟨(agree.picks room names n proper).mp picked, heeded, agree.maxFileSize ▸ small⟩

end Query.Agrees

/-! ### Walks -/

namespace Visit

variable {v w : Visit} {e : Disk} {real : Place}

theorem Enters.kept (h : Enters d q v lists (n, e) w) :
    q.entersFolder lists (v.names ++ [n]) = true ∧ w.names = v.names ++ [n] := by
  cases h with
  | folder kept => exact ⟨kept, rfl⟩
  | link _ _ _ kept => exact ⟨kept, rfl⟩

theorem Enters.agree (agree : q.Agrees q') (h : Enters d q v lists (n, e) w)
    (kept : q'.entersFolder lists (v.names ++ [n]) = true) : Enters d q' v lists (n, e) w := by
  cases h with
  | folder => exact .folder kept
  | link spare leads follows =>
    exact .link spare leads (agree.followSymlinks.symm.trans follows) kept

theorem Takes.agree (agree : q.Agrees q') (clear : q.Clears v.names) (clear' : q'.Clears v.names)
    (proper : ∀ m ∈ v.names ++ [n], Path.Proper m) (h : Takes d q v lists (n, e) real) :
    Takes d q' v lists (n, e) real := by
  cases h with
  | file taken => exact .file (agree.takesFile clear clear' proper taken)
  | link spare leads taken => exact .link spare leads (agree.takesFile clear clear' proper taken)

theorem Step.clears (h : Step d q v w) (clear : q.Clears v.names) : q.Clears w.names := by
  obtain ⟨lists, -, ⟨n, e⟩, -, entered⟩ := h
  obtain ⟨kept, spelled⟩ := entered.kept
  rw [spelled]
  exact ((Query.entersFolder_iff clear).mp kept).1

theorem Reaches.clears (h : v.Reaches d q w) (clear : q.Clears v.names) : q.Clears w.names := by
  induction h with
  | refl => exact clear
  | tail _ step ih => exact step.clears ih

theorem Finds.picks (h : v.Finds d q n real) (clear : q.Clears v.names) :
    q.Picks v.names n ∧ 0 ≤ q.maxFileSize := by
  have taken : ∃ lists bytes, q.takesFile lists (v.names ++ [n]) bytes = true := by
    obtain ⟨lists, -, e, -, taken⟩ := h
    cases taken with
    | file taken => exact ⟨_, _, taken⟩
    | link _ _ taken => exact ⟨_, _, taken⟩
  obtain ⟨lists, bytes, taken⟩ := taken
  obtain ⟨picked, -, small⟩ := (Query.takesFile_iff clear).mp taken
  exact ⟨picked, (Int.natCast_nonneg _).trans small⟩

/-- The names of what a walk finds lead on from the folder that it begins in. -/
theorem Reaches.proper (named : Named d) (there : d.at? v.place = some (.folder v.entries))
    (proper : ∀ m ∈ v.names, Path.Proper m) (reached : v.Reaches d q w)
    (finds : w.Finds d q n real) :
    v.names <+: w.names ∧ ∀ m ∈ w.names ++ [n], Path.Proper m := by
  obtain ⟨folder, tail, spelled, properTail, -⟩ := reached.route named there
  have last := (finds.route named folder).1
  rw [spelled]
  exact ⟨List.prefix_append _ _, List.forall_mem_append.mpr
    ⟨List.forall_mem_append.mpr ⟨proper, properTail⟩, List.forall_mem_singleton.mpr last⟩⟩

/-- Where no lists are read and nothing is picked, a walk finds nothing. -/
theorem walk_idle (named : Named d) (there : d.at? v.place = some (.folder v.entries))
    (proper : ∀ m ∈ v.names, Path.Proper m) (clear : q.Clears v.names)
    (unread : q.respectGitignore = false)
    (nothing : 0 ≤ q.maxFileSize → ∀ base n, (∀ m ∈ base ++ [n], Path.Proper m) →
      v.names <+: base → ¬ q.Picks base n) : v.walk d q = .ok [] := by
  cases walked : v.walk d q with
  | error f =>
    obtain ⟨w, -, fault, ⟨read, -⟩, -⟩ := (v.walk_ends d q).failure walked
    rw [unread] at read
    cases read
  | ok found =>
    congr 1
    refine List.eq_nil_iff_forall_not_mem.mpr fun x hx => ?_
    obtain ⟨w, reached, n, rfl, real, finds⟩ := (mem_walk v walked).mp hx
    obtain ⟨picked, room⟩ := finds.picks (reached.clears clear)
    obtain ⟨onward, properAll⟩ := reached.proper named there proper finds
    exact nothing room w.names n properAll onward picked

theorem walkEntries_congr {links : Nat} {names : List String}
    (same : ∀ entry ∈ es, walkEntry d q links place lists (names ++ [entry.1]) entry.2 =
      walkEntry d q' links place lists (names ++ [entry.1]) entry.2) :
    walkEntries d q links place lists names es = walkEntries d q' links place lists names es := by
  induction es with
  | nil => rw [walkEntries, walkEntries]
  | cons entry es ih =>
    obtain ⟨first, others⟩ := List.forall_mem_cons.mp same
    rw [walkEntries, walkEntries, first, ih others]

/-- A folder that only one of the queries goes into gives nothing to either. -/
theorem walkEntry_of_enters_one (named : Named d) (agree : q.Agrees q')
    (there : d.at? v.place = some (.folder v.entries)) (proper : ∀ m ∈ v.names, Path.Proper m)
    (clear : q.Clears v.names) (clear' : q'.Clears v.names) (step : Step d q v w)
    (entered : Enters d q v lists (n, e) w)
    (stays : ∀ w, ¬ Enters d q' v lists (n, e) w) :
    walkEntry d q v.links v.place lists (v.names ++ [n]) e = .ok [] ∧
      walkEntry d q' v.links v.place lists (v.names ++ [n]) e = .ok [] := by
  obtain ⟨kept, spelled⟩ := entered.kept
  obtain ⟨clearHere, heeded⟩ := (Query.entersFolder_iff clear).mp kept
  obtain ⟨folder, m, spelled', properName, -⟩ := step.route named there
  obtain rfl : n = m := by simpa using spelled.symm.trans spelled'
  have properHere : ∀ m ∈ v.names ++ [n], Path.Proper m :=
    List.forall_mem_append.mpr ⟨proper, List.forall_mem_singleton.mpr properName⟩
  have barred : ¬ q'.Clears (v.names ++ [n]) := fun clearThere =>
    stays w (entered.agree agree ((Query.entersFolder_iff clear').mpr ⟨clearThere, heeded⟩))
  constructor
  · rw [walkEntry_of_enters entered]
    refine walk_idle named folder (spelled ▸ properHere) (spelled ▸ clearHere) ?_ ?_
    · refine Bool.eq_false_iff.mpr fun read => barred ?_
      exact (agree.clears read _ properHere).mp clearHere
    · intro room base m properBase back picked
      rw [spelled] at back
      exact barred (((agree.picks room base m properBase).mp picked).2.2.above back)
  · exact walkEntry_of_passed (fun real taken => taken.not_enters entered) stays

/-- Queries that agree walk alike. -/
theorem walk_agree (named : Named d) (agree : q.Agrees q') (v : Visit)
    (there : d.at? v.place = some (.folder v.entries)) (proper : ∀ m ∈ v.names, Path.Proper m)
    (clear : q.Clears v.names) (clear' : q'.Clears v.names) : v.walk d q = v.walk d q' := by
  -- A step goes down or uses up a link, which makes the induction one on the visits below. Each
  -- entry is taken by both queries or by none, and where only one of them enters it finds nothing.
  induction v using deeper_wellFounded.induction with
  | _ v ih =>
    unfold walk
    rw [← agree.listsBelow]
    cases below : q.listsBelow d v.links v.place v.names v.lists with
    | error f => rfl
    | ok lists =>
      refine walkEntries_congr fun ⟨n, e⟩ hentry => ?_
      have below' := agree.listsBelow.symm.trans below
      have properHere : ∀ m ∈ v.names ++ [n], Path.Proper m := List.forall_mem_append.mpr
        ⟨proper, List.forall_mem_singleton.mpr ((named.at? there).proper _ hentry)⟩
      by_cases taken : ∃ real, Takes d q v lists (n, e) real
      · obtain ⟨real, takes⟩ := taken
        rw [walkEntry_of_takes takes,
          walkEntry_of_takes (takes.agree agree clear clear' properHere)]
      by_cases entered : ∃ w, Enters d q v lists (n, e) w
      · obtain ⟨w, enters⟩ := entered
        have step : Step d q v w := ⟨lists, below, _, hentry, enters⟩
        by_cases entered' : ∃ w', Enters d q' v lists (n, e) w'
        · obtain ⟨w', enters'⟩ := entered'
          obtain rfl := enters.unique (enters'.agree agree.symm enters.kept.1)
          have step' : Step d q' v w := ⟨lists, below', _, hentry, enters'⟩
          rw [walkEntry_of_enters enters, walkEntry_of_enters enters']
          exact ih w step.lt (step.route named there).1 (enters.kept.2 ▸ properHere)
            (step.clears clear) (step'.clears clear')
        · obtain ⟨mine, other⟩ := walkEntry_of_enters_one named agree there proper clear clear'
            step enters (not_exists.mp entered')
          rw [mine, other]
      · by_cases entered' : ∃ w', Enters d q' v lists (n, e) w'
        · obtain ⟨w', enters'⟩ := entered'
          obtain ⟨other, mine⟩ := walkEntry_of_enters_one named agree.symm there proper clear'
            clear ⟨lists, below', _, hentry, enters'⟩ enters' (not_exists.mp entered)
          rw [mine, other]
        · have untaken : ∀ real, ¬ Takes d q' v lists (n, e) real := fun real takes =>
            taken ⟨real, takes.agree agree.symm clear' clear properHere⟩
          rw [walkEntry_of_passed (not_exists.mp taken) (not_exists.mp entered),
            walkEntry_of_passed untaken (not_exists.mp entered')]

end Visit

/-! ### Discoveries for a query -/

variable {here : Place} {directory : String}

/-- The visit that a discovery begins with, if its directory is a folder. -/
def firstVisit (d : Disk) (here : Place) (directory : String) : Except Failure Visit :=
  match d.settle here directory with
  | none => .error (.linkCircle directory)
  | some root =>
    match d.at? root with
    | some (.folder es) => .ok ⟨linkLimit, root, [], [], es⟩
    | _ => .error (.noDirectory (pathOf root))

/-- The files of a directory for what is asked for, if it can be asked for. -/
def filesBy (d : Disk) (here : Place) (directory : String) (asked : Except Failure Query) :
    Except Failure (List String) := do
  let v ← firstVisit d here directory
  let q ← asked
  let found ← v.walk d q
  return Collation.inOrder (found.map fun names => pathOf (v.place ++ names))

theorem files_eq_filesBy (d : Disk) (here : Place) (directory : String) (options : Options)
    (furtherInclude furtherExclude : List String) :
    files d here directory options furtherInclude furtherExclude =
      filesBy d here directory (Query.make options furtherInclude furtherExclude) := by
  unfold files filesBy firstVisit
  cases d.settle here directory with
  | none => rfl
  | some root =>
    dsimp only
    cases d.at? root with
    | none => rfl
    | some e =>
      cases e with
      | folder es =>
        simp only [ok_bind, Visit.walk, bind_assoc]
        rfl
      | _ => rfl

theorem filesBy_of_starts {v : Visit} (start : StartsAt d here directory v) :
    filesBy d here directory (.ok q) = do
      let found ← v.walk d q
      return Collation.inOrder (found.map fun names => pathOf (v.place ++ names)) := by
  obtain ⟨root, es, settled, folder, rfl⟩ := start
  simp only [filesBy, firstVisit, settled, folder, ok_bind]

theorem startsAt_of_firstVisit {v : Visit} (h : firstVisit d here directory = .ok v) :
    StartsAt d here directory v := by
  unfold firstVisit at h
  cases settled : d.settle here directory with
  | none =>
    rw [settled] at h
    cases h
  | some root =>
    simp only [settled] at h
    split at h
    · cases h
      exact ⟨root, _, settled, ‹_›, rfl⟩
    · cases h

/-- Queries that agree have the same discoveries. -/
theorem filesBy_agree (named : Named d) (agree : q.Agrees q') :
    filesBy d here directory (.ok q) = filesBy d here directory (.ok q') := by
  unfold filesBy
  cases begun : firstVisit d here directory with
  | error f => rfl
  | ok v =>
    obtain ⟨root, es, -, folder, rfl⟩ := startsAt_of_firstVisit begun
    simp only [ok_bind]
    rw [Visit.walk_agree named agree ⟨linkLimit, root, [], [], es⟩ folder (by simp)
      Query.clears_nil Query.clears_nil]

/-! ### Disks that tell queries apart -/

/-- The disk with one way down, to a folder with these entries. -/
def oneWay : List String → List (String × Disk) → Disk
  | [], es => .folder es
  | n :: names, es => .folder [(n, oneWay names es)]

theorem child?_single (n : String) (e : Disk) : (Disk.folder [(n, e)]).child? n = some e :=
  child?_of_mem (by simp) (List.mem_singleton_self _)

theorem oneWay_folder (names : List String) (es : List (String × Disk)) :
    oneWay names es = .folder (oneWay names es).entries := by
  cases names <;> rfl

theorem oneWay_at? (names : List String) (es : List (String × Disk)) :
    (oneWay names es).at? names = some (.folder es) := by
  induction names with
  | nil => rfl
  | cons n names ih =>
    rw [oneWay, at?, child?_single]
    exact ih

theorem oneWay_named (proper : ∀ n ∈ names, Path.Proper n) (named : Named (.folder es)) :
    Named (oneWay names es) := by
  induction names with
  | nil => exact named
  | cons n names ih =>
    obtain ⟨first, others⟩ := List.forall_mem_cons.mp proper
    exact .folder (List.nodup_singleton n) (List.forall_mem_singleton.mpr first)
      (List.forall_mem_singleton.mpr (ih others))

theorem oneWay_linkFree (names : List String) (free : LinkFree (.folder es)) :
    LinkFree (oneWay names es) := by
  induction names with
  | nil => exact free
  | cons n names ih => exact .folder (List.forall_mem_singleton.mpr ih)

theorem oneWay_file (h : (oneWay names es).at? p = some (.file bytes)) :
    ∃ tail, p = names ++ tail ∧ (Disk.folder es).at? tail = some (.file bytes) := by
  induction names generalizing p with
  | nil => exact ⟨p, rfl, h⟩
  | cons n names ih =>
    rw [oneWay] at h
    obtain ⟨e, he, rest, rfl, inside⟩ := folder_at?_file h
    obtain rfl := List.mem_singleton.mp he
    obtain ⟨tail, rfl, file⟩ := ih inside
    exact ⟨tail, rfl, file⟩

namespace Visit

/-- The visit of the folder at a place that is reached along no link. -/
def straight (names : List String) (es : List (String × Disk)) : Visit :=
  ⟨linkLimit, names, names, [], es⟩

theorem straight_starts (names : List String) (es : List (String × Disk)) :
    StartsAt (oneWay names es) [] "/" (straight [] (oneWay names es).entries) := by
  have top : (oneWay names es).at? [] = some (.folder (oneWay names es).entries) :=
    congrArg some (oneWay_folder names es)
  have spelled : pathOf [] = "/" := by decide +kernel
  refine ⟨[], _, ?_, top, rfl⟩
  rw [← spelled]
  exact settle_pathOf [] top (by simp)

/-- A folder that is on the way down, with another folder or the end below it, has no list. -/
theorem straight_unlisted {above : List String} {es' : List (String × Disk)}
    (there : d.at? above = some (oneWay (n :: names) es')) :
    q.listsBelow d linkLimit above above [] = .ok [] := by
  refine listsBelow_of_none (Option.eq_none_iff_forall_ne_some.mpr fun bytes file => ?_)
  have entry (name : String) : d.at? (above ++ [name]) = some (oneWay names es') ∨
      d.at? (above ++ [name]) = none := by
    rw [at?_concat, there, Option.bind_some, oneWay]
    cases child : (Disk.folder [(n, oneWay names es')]).child? name with
    | none => exact Or.inr rfl
    | some c =>
      have mem := mem_of_child? child
      obtain ⟨-, rfl⟩ := Prod.mk.inj (List.mem_singleton.mp mem)
      exact Or.inl rfl
  rw [oneWay] at there
  have listed := (fileFrom?_solid 39 there (by decide) ?_).mp file
  · rcases entry Gitignore.fileName with onward | missing
    · rw [onward, oneWay_folder] at listed
      cases listed
    · rw [missing] at listed
      cases listed
  · intro t link
    rcases entry Gitignore.fileName with onward | missing
    · rw [onward, oneWay_folder] at link
      cases link
    · rw [missing] at link
      cases link

/-- A walk comes to the folder at the end when it is cleared. -/
theorem straight_reaches {above : List String} (there : d.at? above = some (oneWay names es))
    (clear : q.Clears (above ++ names)) :
    (straight above (oneWay names es).entries).Reaches d q (straight (above ++ names) es) := by
  induction names generalizing above with
  | nil =>
    rw [List.append_nil]
    exact .refl
  | cons n names ih =>
    have onward : above ++ n :: names = above ++ [n] ++ names := by simp
    have next : d.at? (above ++ [n]) = some (oneWay names es) := by
      rw [at?_concat, there, Option.bind_some, oneWay]
      exact child?_single n _
    rw [onward] at clear ⊢
    have kept : q.entersFolder [] (above ++ [n]) = true :=
      (Query.entersFolder_iff (clear.above ((List.prefix_append _ _).trans
        (List.prefix_append _ _)))).mpr ⟨clear.above (List.prefix_append _ _), rfl⟩
    refine .head (b := straight (above ++ [n]) (oneWay names es).entries) ?_ (ih next clear)
    refine ⟨[], straight_unlisted there, (n, oneWay names es), List.mem_singleton_self _, ?_⟩
    have entered : Enters d q (straight above (oneWay (n :: names) es).entries) []
        (n, .folder (oneWay names es).entries)
        (straight (above ++ [n]) (oneWay names es).entries) := .folder kept
    rwa [← oneWay_folder] at entered

/-- Where there are no links, a walk is where its names say. -/
theorem Reaches.straight (named : Named d) (free : LinkFree d) {v w : Visit}
    (there : d.at? v.place = some (.folder v.entries)) (h : v.Reaches d q w)
    (begun : v.place = v.names ∧ v.links = linkLimit) :
    w.place = w.names ∧ w.links = linkLimit := by
  induction h with
  | refl => exact begun
  | tail reached step ih =>
    have folder := (Reaches.route named there reached).1
    obtain ⟨lists, -, ⟨n, e⟩, hentry, entered⟩ := step
    cases entered with
    | folder => exact ⟨congrArg (· ++ [n]) ih.1, ih.2⟩
    | link => cases (free.at? folder).within _ hentry

end Visit

/-- A disk with a single file. -/
def single (names : List String) (n : String) (content : List UInt8) : Disk :=
  oneWay names [(n, .file content)]

namespace Visit

variable {content : List UInt8} {w : Visit}

theorem single_named (proper : ∀ m ∈ names ++ [n], Path.Proper m) (content : List UInt8) :
    Named (single names n content) := by
  obtain ⟨above, last⟩ := List.forall_mem_append.mp proper
  exact oneWay_named above (.folder (by simp) (List.forall_mem_singleton.mpr
    (List.forall_mem_singleton.mp last)) (by simp [Named.file]))

/-- What a walk on the disk of a single file reads as a list is the file. -/
theorem single_list (proper : ∀ m ∈ names ++ [n], Path.Proper m)
    (reached : (straight [] (single names n content).entries).Reaches (single names n content) q w)
    (list : (single names n content).fileFrom? w.links w.place [Gitignore.fileName] =
      some bytes) : w.names = names ∧ bytes = content := by
  have named := single_named proper content
  have top : (single names n content).at? [] = some (.folder (single names n content).entries) :=
    congrArg some (oneWay_folder names _)
  have free : LinkFree (single names n content) :=
    oneWay_linkFree names (.folder (by simp [LinkFree.file]))
  obtain ⟨place, links⟩ := reached.straight named free top ⟨rfl, rfl⟩
  have folder := (reached.route named top).1
  rw [links, place] at list
  rw [place] at folder
  have file := (fileFrom?_solid 39 folder (by decide) (free.no_link _)).mp list
  obtain ⟨tail, spelled, inside⟩ := oneWay_file file
  obtain ⟨e, he, rest, rfl, below⟩ := folder_at?_file inside
  obtain rfl := List.mem_singleton.mp he
  obtain ⟨rfl, rfl⟩ := file_at? below
  exact ⟨(List.append_inj' spelled rfl).1, rfl⟩

/-- A list without content refuses nothing. -/
theorem single_walk (proper : ∀ m ∈ names ++ [n], Path.Proper m) :
    ∃ found, (straight [] (single names n []).entries).walk (single names n []) q = .ok found := by
  have ends := (straight [] (single names n []).entries).walk_ends (single names n []) q
  cases walked : (straight [] (single names n []).entries).walk (single names n []) q with
  | ok found => exact ⟨found, rfl⟩
  | error f =>
    obtain ⟨w, reached, fault, ⟨-, bytes, list, cs, text, line, hline, -⟩, -⟩ :=
      ends.failure walked
    obtain ⟨-, rfl⟩ := single_list proper reached list
    have none : Text.decode? [] = some [] := by decide +kernel
    rw [none] at text
    cases text
    have lineless : Gitignore.endedLines (Text.unifyBreaks []) = [] := by decide +kernel
    rw [lineless] at hline
    cases hline

/-- A file without content is found when it is picked. -/
theorem single_finds (proper : ∀ m ∈ names ++ [n], Path.Proper m) (room : 0 ≤ q.maxFileSize)
    (picked : q.Picks names n) :
    (straight names [(n, .file [])]).Finds (single names n []) q n (names ++ [n]) := by
  have reached : (straight [] (single names n []).entries).Reaches (single names n []) q
      (straight names [(n, .file [])]) := straight_reaches rfl picked.2.2
  have heeded : ∃ lists, q.listsBelow (single names n []) linkLimit names names [] = .ok lists ∧
      Gitignore.isIgnored lists (names ++ [n]) false = false := by
    unfold Query.listsBelow
    cases q.respectGitignore with
    | false => exact ⟨[], rfl, rfl⟩
    | true =>
      rw [ofFolder?_eq]
      cases list : (single names n []).fileFrom? linkLimit names [Gitignore.fileName] with
      | none => exact ⟨[], rfl, rfl⟩
      | some bytes =>
        obtain ⟨-, rfl⟩ := single_list proper reached list
        have read : Gitignore.patternsOf [] = .ok [] := by decide +kernel
        refine ⟨[⟨names, []⟩], by simp only [read]; rfl, ?_⟩
        simp [Gitignore.isIgnored, Gitignore.ignores, Pattern.selects]
  obtain ⟨lists, below, heeded⟩ := heeded
  exact ⟨lists, below, _, List.mem_singleton_self _,
    .file ((Query.takesFile_iff picked.2.2).mpr ⟨picked, heeded, room⟩)⟩

end Visit

/-- A list whose only line is refused. -/
def refusedList : List UInt8 := Text.encode "!\n".toList

theorem refusedList_refused : Gitignore.HasRefused refusedList (.invalid "!\n") :=
  ⟨"!\n".toList, by decide +kernel, "!\n", by decide +kernel, by decide +kernel⟩

/-- On the disk of a single file without content, the file is found when it is picked. -/
theorem filesBy_single (proper : ∀ m ∈ base ++ [n], Path.Proper m) :
    ∃ paths, filesBy (single base n []) [] "/" (.ok q) = .ok paths ∧
      (pathOf (base ++ [n]) ∈ paths ↔ q.Picks base n ∧ 0 ≤ q.maxFileSize) := by
  let d := single base n []
  let v := Visit.straight [] d.entries
  have start : StartsAt d [] "/" v := Visit.straight_starts base _
  have top : d.at? v.place = some (.folder v.entries) := congrArg some (oneWay_folder base _)
  obtain ⟨found, walked⟩ : ∃ found, v.walk d q = .ok found := Visit.single_walk proper
  refine ⟨Collation.inOrder (found.map pathOf), ?_, ?_⟩
  · rw [filesBy_of_starts start, walked]
    rfl
  rw [(Collation.inOrder_perm _).mem_iff, List.mem_map]
  constructor
  · rintro ⟨x, hx, spelled⟩
    obtain ⟨w, reached, m, rfl, real, finds⟩ := (Visit.mem_walk v walked).mp hx
    have properThere := (reached.proper (Visit.single_named proper []) top (List.forall_mem_nil _)
      finds).2
    obtain ⟨rfl, last⟩ := List.append_inj' (Path.pathOf_injective properThere proper spelled) rfl
    obtain rfl := List.singleton_inj.mp last
    exact finds.picks (reached.clears Query.clears_nil)
  · rintro ⟨picked, room⟩
    have reached : v.Reaches d q (Visit.straight base [(n, .file [])]) :=
      Visit.straight_reaches rfl picked.2.2
    exact ⟨_, (Visit.mem_walk v walked).mpr
      ⟨_, reached, n, rfl, _, Visit.single_finds proper room picked⟩, rfl⟩

section

variable (alike : ∀ d, Named d → filesBy d [] "/" (.ok q) = filesBy d [] "/" (.ok q'))
include alike

/-- A list that is refused shows that the folder it is in is cleared. -/
theorem clears_of_alike (read : q.respectGitignore = true) (proper : ∀ m ∈ names, Path.Proper m)
    (clear : q.Clears names) : q'.Clears names := by
  have properList : ∀ m ∈ names ++ [Gitignore.fileName], Path.Proper m :=
    List.forall_mem_append.mpr ⟨proper, by decide⟩
  -- on this disk a walk fails just when it comes to the one list, at the end of the names
  let d := single names Gitignore.fileName refusedList
  let v := Visit.straight [] d.entries
  have start : StartsAt d [] "/" v := Visit.straight_starts names _
  have reached : v.Reaches d q
      (Visit.straight names [(Gitignore.fileName, .file refusedList)]) :=
    Visit.straight_reaches rfl clear
  have there : d.at? names = some (.folder [(Gitignore.fileName, .file refusedList)]) :=
    oneWay_at? names _
  have file : d.fileFrom? linkLimit names [Gitignore.fileName] = some refusedList := by
    rw [linkLimit, fileFrom?_name 39 there (by decide), at?_concat, there, Option.bind_some,
      child?_single]
  have same := alike d (Visit.single_named properList _)
  rw [filesBy_of_starts start, filesBy_of_starts start] at same
  cases walked : v.walk d q with
  | ok found =>
    have readable := (v.walk_ends d q).result walked
    exact (readable _ reached _ ⟨read, _, file, refusedList_refused⟩).elim
  | error f =>
    rw [walked] at same
    cases walked' : v.walk d q' with
    | ok found =>
      rw [walked'] at same
      cases same
    | error f' =>
      obtain ⟨w, reached', -, ⟨-, bytes, list, -⟩, -⟩ := (v.walk_ends d q').failure walked'
      rw [← (Visit.single_list properList reached' list).1]
      exact reached'.clears Query.clears_nil

/-- A file without content shows that it is picked. -/
theorem picks_of_alike (room : 0 ≤ q.maxFileSize) (proper : ∀ m ∈ base ++ [n], Path.Proper m)
    (picked : q.Picks base n) : q'.Picks base n := by
  obtain ⟨paths, given, mine⟩ := filesBy_single (q := q) proper
  obtain ⟨paths', given', other⟩ := filesBy_single (q := q') proper
  rw [alike _ (Visit.single_named proper []), given'] at given
  cases given
  exact (other.mp (mine.mpr ⟨picked, room⟩)).1

end

/-- Queries with the same settings have the same discoveries on every disk just when they clear the
same folders, as far as lists are read, and pick the same files, if any are small enough. -/
theorem filesBy_alike_iff (respectGitignore : q.respectGitignore = q'.respectGitignore)
    (followSymlinks : q.followSymlinks = q'.followSymlinks)
    (maxFileSize : q.maxFileSize = q'.maxFileSize) :
    (∀ d, Named d → ∀ here directory,
      filesBy d here directory (.ok q) = filesBy d here directory (.ok q')) ↔ q.Agrees q' := by
  refine ⟨fun alike => ?_, fun agree d named here directory => filesBy_agree named agree⟩
  have onward : ∀ d, Named d → filesBy d [] "/" (.ok q) = filesBy d [] "/" (.ok q') :=
    fun d named => alike d named [] "/"
  have back : ∀ d, Named d → filesBy d [] "/" (.ok q') = filesBy d [] "/" (.ok q) :=
    fun d named => (onward d named).symm
  exact {
    respectGitignore, followSymlinks, maxFileSize
    clears read names proper := ⟨clears_of_alike onward read proper,
      clears_of_alike back (respectGitignore.symm.trans read) proper⟩
    picks room base n proper := ⟨picks_of_alike onward room proper,
      picks_of_alike back (maxFileSize ▸ room) proper⟩ }

end EnvCensus.Discovery
