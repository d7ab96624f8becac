import EnvCensus.Proofs.Discovery.Exactness
import EnvCensus.Proofs.Discovery.Visits

/-!
# Discoveries that follow links

A discovery that follows links to folders keeps no record of the folders that it
has been in. It gives one path for each way to a folder and each file that it
takes there, so a folder with two ways to it, such as one that a link below
leads back to, gives its files twice. A file is given once when no folder is
entered in two ways with the file taken both times.
-/

namespace EnvCensus.Discovery

open Disk

variable {d : Disk} {q : Query} {here root : Place} {directory : String} {options : Options}
  {furtherInclude furtherExclude : List String} {v w w' : Visit} {n : String} {real : Place}

/-! ### Names of files -/

/-- Proper names lead from the root to the place, over links as well. -/
def Within (d : Disk) (root place : Place) : Prop :=
  ∃ names left, (∀ n ∈ names, Path.Proper n) ∧
    d.routeFrom linkLimit root names = .ok (place, left)

/-- In the folder at a place, the name is that of a file or of a link to it. -/
def NamesFile (d : Disk) (place : Place) (n : String) (real : Place) : Prop :=
  Path.Proper n ∧ ∃ bytes left, d.at? real = some (.file bytes) ∧
    d.routeFrom linkLimit place [n] = .ok (real, left)

/-- Every file has one name in one folder, in however many ways the folder can be reached. -/
def OneName (d : Disk) (root : Place) : Prop :=
  ∀ p p' n n' real, Within d root p → Within d root p' →
    NamesFile d p n real → NamesFile d p' n' real → p = p' ∧ n = n'

/-! ### Ways of a discovery -/

/-- The folder of a visit lies within the root, and the files that are taken in it have names
there. -/
theorem StartsAt.names (named : Named d) (start : StartsAt d here directory v)
    (reached : v.Reaches d q w) (finds : w.Finds d q n real) :
    Within d v.place w.place ∧ NamesFile d w.place n real := by
  obtain ⟨root, es, -, folder, rfl⟩ := start
  obtain ⟨there, tail, -, proper, route⟩ := reached.route named folder
  obtain ⟨properName, bytes, left, file, last⟩ := finds.route named there
  refine ⟨⟨tail, _, proper, route⟩, properName, bytes, left + (linkLimit - w.links), file, ?_⟩
  have few : w.links ≤ linkLimit := routeFrom_links route
  have more := routeFrom_more (linkLimit - w.links) last
  rwa [Nat.add_sub_cancel' few] at more

/-- A path that is found leads to the file. -/
theorem StartsAt.route (named : Named d) (start : StartsAt d here directory v)
    (reached : v.Reaches d q w) (finds : w.Finds d q n real) :
    (∀ m ∈ v.place ++ (w.names ++ [n]), Path.Proper m) ∧
      d.route [] (pathOf (v.place ++ (w.names ++ [n]))) = .ok real := by
  obtain ⟨root, es, -, folder, rfl⟩ := start
  obtain ⟨there, tail, spelled, proper, route⟩ := reached.route named folder
  obtain ⟨properName, bytes, left, -, last⟩ := finds.route named there
  rw [List.nil_append] at spelled
  have rootProper := named.proper_of_at? folder
  have allProper : ∀ m ∈ root ++ (w.names ++ [n]), Path.Proper m := by
    rw [spelled]
    exact List.forall_mem_append.mpr ⟨rootProper,
      List.forall_mem_append.mpr ⟨proper, List.forall_mem_singleton.mpr properName⟩⟩
  refine ⟨allProper, ?_⟩
  rw [Disk.route, Path.namesFrom_pathOf allProper,
    routeFrom_along linkLimit [] root _ folder rfl fun m hm => (rootProper m hm).not_climbing,
    List.nil_append, spelled, routeFrom_append [n] route there, last]
  rfl

/-- Past its query, a discovery that meets no line that is refused gives the ways to what it takes,
each of them once. -/
theorem StartsAt.files (named : Named d) (start : StartsAt d here directory v)
    (made : Query.make options furtherInclude furtherExclude = .ok q)
    (readable : ∀ w, v.Reaches d q w → ∀ fault, ¬ w.Refuses d q fault) :
    ∃ paths, Discovery.files d here directory options furtherInclude furtherExclude = .ok paths ∧
      paths.Nodup ∧
      ∀ path, path ∈ paths ↔ ∃ w n real, v.Reaches d q w ∧ w.Finds d q n real ∧
        path = pathOf (v.place ++ (w.names ++ [n])) := by
  cases walked : v.walk d q with
  | error f =>
    obtain ⟨w, reached, fault, refused, -⟩ := (v.walk_ends d q).failure walked
    exact (readable w reached fault refused).elim
  | ok found =>
    have given := files_eq_walk made start
    rw [walked] at given
    refine ⟨_, given, (files_ordered named given).1, fun path => ?_⟩
    simp only [(Collation.inOrder_perm _).mem_iff, List.mem_map, Visit.mem_walk v walked]
    constructor
    · rintro ⟨-, ⟨w, reached, n, rfl, real, finds⟩, rfl⟩
      exact ⟨w, n, real, reached, finds, rfl⟩
    · rintro ⟨w, n, real, reached, finds, rfl⟩
      exact ⟨_, ⟨w, reached, n, rfl, real, finds⟩, rfl⟩

/-- A discovery in a tree where every file has one name gives one path for each way to a folder and
each file that is taken there. It gives each file once if and only if it enters no folder in two
ways and takes a file in it both times. -/
theorem files_once_iff (named : Named d) (start : StartsAt d here directory v)
    (made : Query.make options furtherInclude furtherExclude = .ok q)
    (readable : ∀ w, v.Reaches d q w → ∀ fault, ¬ w.Refuses d q fault)
    (single : OneName d v.place) :
    ∃ paths, Discovery.files d here directory options furtherInclude furtherExclude = .ok paths ∧
      paths.Nodup ∧
      (∀ path, path ∈ paths ↔ ∃ w n real, v.Reaches d q w ∧ w.Finds d q n real ∧
        path = pathOf (v.place ++ (w.names ++ [n])) ∧ d.route [] path = .ok real) ∧
      ((∀ a ∈ paths, ∀ b ∈ paths, d.route [] a = d.route [] b → a = b) ↔
        ¬ ∃ w w' n real, v.Reaches d q w ∧ v.Reaches d q w' ∧ w.place = w'.place ∧
          w.names ≠ w'.names ∧ w.Finds d q n real ∧ w'.Finds d q n real) := by
  obtain ⟨paths, given, once, members⟩ := start.files named made readable
  refine ⟨paths, given, once, fun path => ?_, ?_, ?_⟩
  · rw [members]
    constructor
    · rintro ⟨w, n, real, reached, finds, rfl⟩
      exact ⟨w, n, real, reached, finds, rfl, (start.route named reached finds).2⟩
    · rintro ⟨w, n, real, reached, finds, spelled, -⟩
      exact ⟨w, n, real, reached, finds, spelled⟩
  · rintro apart ⟨w, w', n, real, reached, reached', -, ways, finds, finds'⟩
    obtain ⟨proper, route⟩ := start.route named reached finds
    obtain ⟨proper', route'⟩ := start.route named reached' finds'
    have same := apart _ ((members _).mpr ⟨w, n, real, reached, finds, rfl⟩) _
      ((members _).mpr ⟨w', n, real, reached', finds', rfl⟩) (route.trans route'.symm)
    have names := List.append_cancel_left (Path.pathOf_injective proper proper' same)
    exact ways (List.append_cancel_right names)
  · intro apart a ha b hb same
    obtain ⟨w, n, real, reached, finds, rfl⟩ := (members a).mp ha
    obtain ⟨w', n', real', reached', finds', rfl⟩ := (members b).mp hb
    rw [(start.route named reached finds).2, (start.route named reached' finds').2] at same
    cases same
    obtain ⟨within, name⟩ := start.names named reached finds
    obtain ⟨within', name'⟩ := start.names named reached' finds'
    obtain ⟨place, rfl⟩ := single _ _ _ _ _ within within' name name'
    by_cases ways : w.names = w'.names
    · rw [ways]
    · exact absurd ⟨w, w', n, real, reached, reached', place, ways, finds, finds'⟩ apart

/-! ### Disks whose links lead to folders -/

/-- Each name in one of these folders is that of a file, of one of the folders, or of a link to one
of them. -/
def Closed (d : Disk) (folders : List Place) : Prop :=
  ∀ p ∈ folders, ∃ es, d.at? p = some (.folder es) ∧
    ∀ n e, (Disk.folder es).child? n = some e →
      match e with
      | .file _ => True
      | .folder _ => p ++ [n] ∈ folders
      | .link t => ∃ p' ∈ folders, ∀ links rest,
          d.routeFrom links (linkStart p t).1 ((linkStart p t).2 ++ rest) =
            d.routeFrom links p' rest

/-- A name in one of the folders leads to one of them again, or it can only be the last one and
leads to no folder. -/
theorem Closed.step {folders : List Place} (closed : Closed d folders) {links left : Nat}
    {rest : List String} {p place : Place} (among : p ∈ folders) (climbs : n ≠ "..")
    (route : d.routeFrom links p (n :: rest) = .ok (place, left)) :
    (∃ links', ∃ p' ∈ folders, d.routeFrom links' p' rest = .ok (place, left)) ∨
      place = p ++ [n] ∧ ∀ es, d.at? place ≠ some (.folder es) := by
  obtain ⟨es, there, inside⟩ := closed p among
  have below : d.at? (p ++ [n]) = (Disk.folder es).child? n := by
    rw [at?_concat, there, Option.bind_some]
  cases child : (Disk.folder es).child? n with
  | none =>
    rw [routeFrom_absent links rest there climbs child] at route
    split at route
    · cases route
      exact .inr ⟨rfl, by simp [below, child]⟩
    · cases route
  | some e =>
    have leads := inside n e child
    cases e with
    | file bytes =>
      rw [routeFrom_step links rest there climbs child rfl] at route
      cases rest with
      | nil =>
        rw [routeFrom] at route
        cases route
        exact .inr ⟨rfl, by simp [below, child]⟩
      | cons =>
        obtain ⟨es', folder⟩ := folder_of_routeFrom route
        rw [below, child] at folder
        cases folder
    | folder =>
      rw [routeFrom_step links rest there climbs child rfl] at route
      exact .inl ⟨links, _, leads, route⟩
    | link t =>
      obtain ⟨p', among', same⟩ := leads
      cases links with
      | zero =>
        rw [routeFrom, there] at route
        have down : (n == "..") = false := by simpa using climbs
        simp only [down, child] at route
        cases route
      | succ links =>
        rw [routeFrom_link links rest there climbs child, same] at route
        exact .inl ⟨links, p', among', route⟩

/-- Names lead from the folders to no others. -/
theorem Closed.route {folders : List Place} (closed : Closed d folders) {links left : Nat}
    {names : List String} {p place : Place} {es : List (String × Disk)} (among : p ∈ folders)
    (proper : ∀ n ∈ names, Path.Proper n)
    (route : d.routeFrom links p names = .ok (place, left))
    (folder : d.at? place = some (.folder es)) : place ∈ folders := by
  induction names generalizing links p with
  | nil =>
    rw [routeFrom] at route
    cases route
    exact among
  | cons n rest ih =>
    rcases closed.step among (proper n List.mem_cons_self).not_climbing route with
      ⟨links', p', among', onward⟩ | ⟨-, solid⟩
    · exact ih among' (fun m hm => proper m (List.mem_cons_of_mem _ hm)) onward
    · exact absurd folder (solid es)

/-- Where all links lead to folders, a file has the name of its own entry only. -/
theorem Closed.oneName {folders : List Place} (closed : Closed d folders) {root : Place}
    (among : root ∈ folders) : OneName d root := by
  have own : ∀ {p : Place} {n : String} {real : Place}, Within d root p →
      NamesFile d p n real → real = p ++ [n] := by
    rintro p n real ⟨names, left, proper, route⟩ ⟨properName, bytes, left', file, last⟩
    obtain ⟨es, folder⟩ := folder_of_routeFrom last
    have inside : p ∈ folders := closed.route among proper route folder
    rcases closed.step inside properName.not_climbing last with
      ⟨links', p', among', arrived⟩ | ⟨at_entry, -⟩
    · rw [routeFrom] at arrived
      cases arrived
      obtain ⟨es', folder', -⟩ := closed real among'
      rw [file] at folder'
      cases folder'
    · exact at_entry
  intro p p' n n' real within within' name name'
  exact List.append_singleton_inj.mp ((own within name).symm.trans (own within' name'))

/-! ### A link to the folder that it is in -/

def loopEntries : List (String × Disk) := [("a.js", .file []), ("loop", .link ".")]

/-- A project with a script and a link that leads back to the project. -/
def loopProject : Disk := .folder [("p", .folder loopEntries)]

/-- A discovery in the project begins in its folder. -/
def loopVisit : Visit := ⟨linkLimit, ["p"], [], [], loopEntries⟩

/-- Scripts are looked for, behind links to folders or not. -/
def loopOptions (follow : Bool) : Options :=
  { includePatterns := ["*.js"], excludePatterns := [], followSymlinks := follow }

/-- What the names of scripts end with. -/
def scriptNames : Selection := ⟨[⟨false, .above :: .run :: ".js".toList.map .char, .segment⟩], []⟩

def loopQuery (follow : Bool) : Query where
  included := scriptNames
  excluded := []
  respectGitignore := true
  followSymlinks := follow
  maxFileSize := defaultMaxFileSize

theorem loop_made (follow : Bool) :
    Query.make (loopOptions follow) [] [] = .ok (loopQuery follow) := by
  have scripts : Selection.ofLines ["*.js"] = .ok scriptNames := by decide +kernel
  have asks : (loopQuery follow).Asks (loopOptions follow) [] [] := ⟨scripts, rfl, rfl, rfl, rfl⟩
  exact asks.make (List.nodup_singleton _) List.nodup_nil

theorem loop_named : Named loopProject := by
  have inside : Named (.folder loopEntries) :=
    .folder (by decide) (by decide) (by simp [loopEntries, Named.file, Named.link])
  exact .folder (by decide) (by decide) (by simp [inside])

theorem loop_folder : loopProject.at? ["p"] = some (.folder loopEntries) := rfl

theorem loop_starts : StartsAt loopProject [] "/p" loopVisit := by
  refine ⟨["p"], loopEntries, ?_, loop_folder, rfl⟩
  have spelled : pathOf ["p"] = "/p" := by decide
  rw [← spelled]
  exact settle_pathOf [] loop_folder (by decide)

theorem loop_child {c : Disk} (h : (Disk.folder loopEntries).child? n = some c) :
    (n = "a.js" ∧ c = .file []) ∨ (n = "loop" ∧ c = .link ".") := by
  simpa [entries, loopEntries] using mem_of_child? h

theorem loop_linkStart : linkStart ["p"] "." = (["p"], []) := by decide

theorem loop_closed : Closed loopProject [["p"]] := by
  intro p hp
  obtain rfl := List.mem_singleton.mp hp
  refine ⟨loopEntries, loop_folder, fun n e child => ?_⟩
  rcases loop_child child with ⟨rfl, rfl⟩ | ⟨rfl, rfl⟩
  · trivial
  · exact ⟨["p"], List.mem_singleton_self _, fun links rest => by rw [loop_linkStart]; rfl⟩

/-- However the project is reached, its script has one name in it. -/
theorem loop_oneName : OneName loopProject loopVisit.place :=
  loop_closed.oneName (List.mem_singleton_self _)

theorem loop_target (links : Nat) :
    target? loopProject links ["p"] "." = some (.folder loopEntries, ["p"], links) := by
  rw [target?, loop_linkStart, routeFrom]
  rfl

theorem loop_noList (links : Nat) :
    loopProject.fileFrom? links ["p"] [Gitignore.fileName] = none :=
  fileFrom?_absent links loop_folder (by decide) (by decide)

/-- A discovery in the project stays in its folder. -/
theorem loop_stays (h : loopVisit.Reaches loopProject q w) :
    w.place = ["p"] ∧ w.entries = loopEntries := by
  induction h with
  | refl => exact ⟨rfl, rfl⟩
  | @tail v w _ step ih =>
    obtain ⟨links, place, names, lists, es⟩ := v
    obtain ⟨rfl, rfl⟩ : place = ["p"] ∧ es = loopEntries := ih
    obtain ⟨lists', -, entry, hentry, entered⟩ := step
    simp only [loopEntries, List.mem_cons, List.not_mem_nil, or_false] at hentry
    rcases hentry with rfl | rfl
    · cases entered
    · cases entered with
      | link spare leads =>
        rw [loop_target] at leads
        cases leads
        exact ⟨rfl, rfl⟩

theorem loop_readable (w : Visit) (h : loopVisit.Reaches loopProject q w)
    (fault : Pattern.Fault) : ¬ w.Refuses loopProject q fault := by
  rintro ⟨-, bytes, list, -⟩
  rw [(loop_stays h).1, loop_noList] at list
  cases list

/-- The visit that the link leads to. -/
def loopAgain : Visit := ⟨39, ["p"], ["loop"], [], loopEntries⟩

theorem loop_again : loopVisit.Reaches loopProject (loopQuery true) loopAgain := by
  refine .single ⟨[], listsBelow_of_none (loop_noList _), ("loop", .link "."), ?_, ?_⟩
  · simp [loopVisit, loopEntries]
  · exact .link rfl (loop_target 39) rfl (by decide)

theorem loop_finds {v : Visit} (here : v.place = ["p"]) (lists : v.lists = [])
    (entries : v.entries = loopEntries)
    (taken : q.takesFile [] (v.names ++ ["a.js"]) [] = true) :
    v.Finds loopProject q "a.js" ["p", "a.js"] := by
  refine ⟨[], ?_, .file [], by simp [entries, loopEntries], ?_⟩
  · rw [here, lists]
    exact listsBelow_of_none (loop_noList _)
  · have file := Visit.Takes.file (d := loopProject) (v := v) taken
    rwa [here] at file

/-- The script is given in the project and behind the link, although it has one name there. -/
theorem loop_twice : OneName loopProject ["p"] ∧ (loopOptions true).followSymlinks = true ∧
    ∃ paths, files loopProject [] "/p" (loopOptions true) [] [] = .ok paths ∧
      ∃ a ∈ paths, ∃ b ∈ paths, a ≠ b ∧ loopProject.route [] a = .ok ["p", "a.js"] ∧
        loopProject.route [] b = .ok ["p", "a.js"] := by
  obtain ⟨paths, given, -, members⟩ := loop_starts.files loop_named (loop_made true) loop_readable
  have finds : loopVisit.Finds loopProject (loopQuery true) "a.js" ["p", "a.js"] :=
    loop_finds rfl rfl rfl (by decide)
  have findsAgain : loopAgain.Finds loopProject (loopQuery true) "a.js" ["p", "a.js"] :=
    loop_finds rfl rfl rfl (by decide)
  refine ⟨loop_oneName, rfl, paths, given, _, (members _).mpr ⟨_, _, _, .refl, finds, rfl⟩,
    _, (members _).mpr ⟨_, _, _, loop_again, findsAgain, rfl⟩, ?_,
    (loop_starts.route loop_named .refl finds).2,
    (loop_starts.route loop_named loop_again findsAgain).2⟩
  decide

/-! ### A link to a folder outside of the project -/

def sharedEntries : List (String × Disk) := [("a.js", .file [])]

/-- A project without files of its own, with a link to a folder with a script. -/
def sharedProject : Disk :=
  .folder [("p", .folder [("lib", .link "/shared")]), ("shared", .folder sharedEntries)]

/-- A discovery in the project begins in its folder. -/
def sharedVisit : Visit := ⟨linkLimit, ["p"], [], [], [("lib", .link "/shared")]⟩

/-- The visit that the link leads to. -/
def sharedBehind : Visit := ⟨39, ["shared"], ["lib"], [], sharedEntries⟩

theorem shared_folder : sharedProject.at? ["shared"] = some (.folder sharedEntries) := rfl

theorem shared_linkStart : linkStart ["p"] "/shared" = ([], ["shared"]) := by decide

theorem shared_routeFrom (links : Nat) (rest : List String) :
    sharedProject.routeFrom links [] ("shared" :: rest) =
      sharedProject.routeFrom links ["shared"] rest :=
  routeFrom_along links [] ["shared"] rest shared_folder rfl (by decide)

theorem shared_named : Named sharedProject := by
  have inside : Named (.folder [("lib", .link "/shared")]) :=
    .folder (by decide) (by decide) (by simp [Named.link])
  have outside : Named (.folder sharedEntries) :=
    .folder (by decide) (by decide) (by simp [sharedEntries, Named.file])
  exact .folder (by decide) (by decide) (by simp [inside, outside])

theorem shared_starts : StartsAt sharedProject [] "/p" sharedVisit := by
  refine ⟨["p"], [("lib", .link "/shared")], ?_, rfl, rfl⟩
  have spelled : pathOf ["p"] = "/p" := by decide
  rw [← spelled]
  have stands : sharedProject.at? ["p"] = some (.folder [("lib", .link "/shared")]) := rfl
  exact settle_pathOf [] stands (by decide)

theorem shared_closed : Closed sharedProject [["p"], ["shared"]] := by
  intro p hp
  simp only [List.mem_cons, List.not_mem_nil, or_false] at hp
  rcases hp with rfl | rfl
  · refine ⟨[("lib", .link "/shared")], rfl, fun n e child => ?_⟩
    obtain ⟨rfl, rfl⟩ : n = "lib" ∧ e = .link "/shared" := by
      simpa [entries] using mem_of_child? child
    exact ⟨["shared"], by simp, fun links rest => by
      rw [shared_linkStart, List.singleton_append, shared_routeFrom]⟩
  · refine ⟨sharedEntries, shared_folder, fun n e child => ?_⟩
    obtain ⟨rfl, rfl⟩ : n = "a.js" ∧ e = .file [] := by
      simpa [entries, sharedEntries] using mem_of_child? child
    trivial

theorem shared_target (links : Nat) : target? sharedProject links ["p"] "/shared" =
    some (.folder sharedEntries, ["shared"], links) := by
  rw [target?, shared_linkStart, shared_routeFrom, routeFrom]
  rfl

theorem shared_noList (links : Nat) : ∀ place ∈ [["p"], ["shared"]],
    sharedProject.fileFrom? links place [Gitignore.fileName] = none := by
  intro place hplace
  simp only [List.mem_cons, List.not_mem_nil, or_false] at hplace
  rcases hplace with rfl | rfl
  · have stands : sharedProject.at? ["p"] = some (.folder [("lib", .link "/shared")]) := rfl
    exact fileFrom?_absent links stands (by decide) (by decide)
  · exact fileFrom?_absent links shared_folder (by decide) (by decide)

/-- The discovery is in the project, and once in the folder behind the link. -/
theorem shared_visits {w : Visit} (h : sharedVisit.Reaches sharedProject (loopQuery true) w) :
    w = sharedVisit ∨ w = sharedBehind := by
  induction h with
  | refl => exact .inl rfl
  | @tail v w _ step ih =>
    obtain ⟨lists, applied, entry, hentry, entered⟩ := step
    rcases ih with rfl | rfl
    · obtain rfl := List.mem_singleton.mp hentry
      cases entered with
      | link spare leads =>
        cases spare
        rw [sharedVisit, shared_target] at leads
        cases leads
        rw [sharedVisit, listsBelow_of_none (shared_noList _ _ (by simp))] at applied
        cases applied
        exact .inr rfl
    · obtain rfl := List.mem_singleton.mp hentry
      cases entered

theorem shared_readable (w : Visit) (h : sharedVisit.Reaches sharedProject (loopQuery true) w)
    (fault : Pattern.Fault) : ¬ w.Refuses sharedProject (loopQuery true) fault := by
  rintro ⟨-, bytes, list, -⟩
  rcases shared_visits h with rfl | rfl
  · rw [sharedVisit, shared_noList _ _ (by simp)] at list
    cases list
  · rw [sharedBehind, shared_noList _ _ (by simp)] at list
    cases list

theorem shared_behind : sharedVisit.Reaches sharedProject (loopQuery true) sharedBehind := by
  refine .single ⟨[], listsBelow_of_none (shared_noList _ _ (by simp [sharedVisit])),
    ("lib", .link "/shared"), List.mem_singleton_self _, ?_⟩
  exact .link rfl (shared_target 39) rfl (by decide)

theorem shared_finds :
    sharedBehind.Finds sharedProject (loopQuery true) "a.js" ["shared", "a.js"] :=
  ⟨[], listsBelow_of_none (shared_noList _ _ (by simp [sharedBehind])), .file [],
    List.mem_singleton_self _, .file (by decide)⟩

/-- With links followed, the script behind a link that is entered once is given once. -/
theorem shared_once : Named sharedProject ∧ StartsAt sharedProject [] "/p" sharedVisit ∧
    (loopOptions true).followSymlinks = true ∧
    Query.make (loopOptions true) [] [] = .ok (loopQuery true) ∧
    (∀ w, sharedVisit.Reaches sharedProject (loopQuery true) w →
      ∀ fault, ¬ w.Refuses sharedProject (loopQuery true) fault) ∧
    OneName sharedProject sharedVisit.place ∧
    ∃ paths, files sharedProject [] "/p" (loopOptions true) [] [] = .ok paths ∧
      pathOf ["p", "lib", "a.js"] ∈ paths ∧
      sharedProject.route [] (pathOf ["p", "lib", "a.js"]) = .ok ["shared", "a.js"] ∧
      ∀ a ∈ paths, ∀ b ∈ paths, sharedProject.route [] a = sharedProject.route [] b → a = b := by
  have single : OneName sharedProject sharedVisit.place :=
    shared_closed.oneName List.mem_cons_self
  refine ⟨shared_named, shared_starts, rfl, loop_made true, shared_readable, single, ?_⟩
  obtain ⟨paths, given, -, members, once⟩ :=
    files_once_iff shared_named shared_starts (loop_made true) shared_readable single
  have route := (shared_starts.route shared_named shared_behind shared_finds).2
  refine ⟨paths, given, ?_, route, once.mpr ?_⟩
  · exact (members _).mpr ⟨sharedBehind, "a.js", _, shared_behind, shared_finds, rfl, route⟩
  · rintro ⟨w, w', -, -, reached, reached', place, ways, -⟩
    rcases shared_visits reached with rfl | rfl <;> rcases shared_visits reached' with rfl | rfl
    · exact ways rfl
    · exact absurd place (by decide)
    · exact absurd place (by decide)
    · exact ways rfl

end EnvCensus.Discovery
