import EnvCensus.Framework
import EnvCensus.Proofs.Disk.Route
import EnvCensus.Proofs.Text.Utf8
import Mathlib.Data.List.Find

/-!
# What a framework is recognised by

The framework of a project is decided by its package file and by the names in
its folder, and of these only by the names that begin with a marker.
-/

namespace EnvCensus.Framework

open Disk

theorem namesIn_pathOf {d : Disk} {es : List (String × Disk)} {root : Place} (here : Place)
    (folder : d.at? root = some (.folder es)) (proper : ∀ n ∈ root, Path.Proper n) :
    namesIn d here (pathOf root) = es.map (·.1) := by
  have route := routeFrom_to linkLimit folder rfl fun n hn => (proper n hn).not_climbing
  rw [namesIn, find?, Disk.route, Path.namesFrom_pathOf proper, route]
  simp only [Except.map, folder]
  rfl

/-- A name that begins with no marker decides nothing. -/
theorem ofFileNames?_congr {names names' : List String}
    (same : ∀ m ∈ fileMarkers, (∃ n ∈ names', m.1.toList.isPrefixOf n.toList = true) ↔
      ∃ n ∈ names, m.1.toList.isPrefixOf n.toList = true) :
    ofFileNames? names' = ofFileNames? names := by
  refine congrArg (Option.map _) (List.find?_congr fun m hm => ?_)
  rw [Bool.eq_iff_iff, List.any_eq_true, List.any_eq_true]
  exact same m hm

theorem packagePath (directory : String) :
    directory ++ "/package.json" = directory ++ "/" ++ "package.json" := by
  rw [String.append_assoc]
  rfl

/-- Without a package file the names in the folder of the project decide. -/
theorem detect?_of_names {d : Disk} {es : List (String × Disk)} {root : Place} (here : Place)
    (folder : d.at? root = some (.folder es)) (proper : ∀ n ∈ root, Path.Proper n)
    (missing : (Disk.folder es).child? "package.json" = none) :
    detect? d here (pathOf root) = ofFileNames? (es.map (·.1)) := by
  have spelled : namesFrom here (pathOf root ++ "/" ++ "package.json") = root ++ ["package.json"] :=
    Path.namesFrom_below proper (by decide) here
  rw [detect?, packagePath, bytes?_missing spelled folder proper (by decide) missing,
    namesIn_pathOf here folder proper]

theorem detect?_congr {d d' : Disk} {here : Place} {directory : String}
    (package : d'.bytes? here (directory ++ "/package.json") =
      d.bytes? here (directory ++ "/package.json"))
    (names : ofFileNames? (namesIn d' here directory) = ofFileNames? (namesIn d here directory)) :
    detect? d' here directory = detect? d here directory := by
  rw [detect?, detect?, package, names]

end EnvCensus.Framework

/-!
## Which marker decides

A package file that is no object leaves the framework of a project unknown. Else
the first dependency marker that the object lists decides, and when it lists
none, the first marker that begins a name in the folder. Neither the section of
a dependency nor any order in the file or in the folder matters. Every package
of Remix is meant to be a marker; the table has two of them.
-/

namespace EnvCensus

/-! ### Objects in another order -/

/-- The same values under the same keys, each key once, in whatever order, and so inside the
values. -/
inductive Json.Reordered : Json → Json → Prop
  | same (v : Json) : Reordered v v
  | object {fields fields' : List (String × Json)} (once : (fields.map (·.1)).Nodup)
      (keys : (fields.map (·.1)).Perm (fields'.map (·.1)))
      (within : ∀ {k v v'}, (k, v) ∈ fields → (k, v') ∈ fields' → Reordered v v') :
      Reordered (.object fields) (.object fields')

theorem Json.Reordered.symm {v v' : Json} (h : Reordered v v') : Reordered v' v := by
  induction h with
  | same v => exact .same v
  | object once keys within ih =>
    exact .object (keys.nodup_iff.mp once) keys.symm fun hv hv' => ih hv' hv

theorem Json.mem_of_field? {fields : List (String × Json)} {key : String} {v : Json}
    (h : (Json.object fields).field? key = some v) : (key, v) ∈ fields := by
  obtain ⟨front, back, rfl, -⟩ := List.lookup_eq_some_iff.mp h
  simp

theorem Json.exists_field? {fields : List (String × Json)} {key : String}
    (h : key ∈ fields.map (·.1)) : ∃ v, (Json.object fields).field? key = some v := by
  obtain ⟨⟨k, v⟩, mem, rfl⟩ := List.mem_map.mp h
  exact Option.isSome_iff_exists.mp (List.lookup_isSome_iff.mpr ⟨_, mem, by simp⟩)

/-- An object in another order has the same fields, each with its value in another order. -/
theorem Json.Reordered.field? {fields fields' : List (String × Json)} {key : String} {v : Json}
    (h : Reordered (.object fields) (.object fields'))
    (there : (Json.object fields).field? key = some v) :
    ∃ v', (Json.object fields').field? key = some v' ∧ Reordered v v' := by
  cases h with
  | same => exact ⟨v, there, .same v⟩
  | object once keys within =>
    have mem := mem_of_field? there
    obtain ⟨v', there'⟩ := exists_field? (keys.mem_iff.mp (List.mem_map_of_mem mem))
    exact ⟨v', there', within mem (mem_of_field? there')⟩

namespace Framework

/-! ### Tables of markers -/

section

variable {α β : Type} {table : List (α × Framework)} {P Q : α → Prop} {r r' : Option Framework}

/-- What a table tells: the framework of the first entry that holds, or nothing when none does. -/
inductive Tells (table : List (α × Framework)) (P : α → Prop) : Option Framework → Prop
  | first {before after : List (α × Framework)} {a : α} {f : Framework}
      (split : table = before ++ (a, f) :: after) (holds : P a)
      (earlier : ∀ m ∈ before, ¬ P m.1) : Tells table P (some f)
  | nothing (silent : ∀ m ∈ table, ¬ P m.1) : Tells table P none

/-- A search through the table finds what it tells. -/
theorem tells_iff {p : α × Framework → Bool} (holds : ∀ m, p m = true ↔ P m.1) :
    Tells table P r ↔ (table.find? p).map (·.2) = r := by
  have fails : ∀ m, p m = false ↔ ¬ P m.1 := fun m => by rw [← holds, Bool.not_eq_true]
  constructor
  · rintro (⟨split, here, earlier⟩ | silent)
    · rename_i before after a f
      have found : table.find? p = some (a, f) :=
        List.find?_eq_some_iff_append.mpr
          ⟨(holds _).mpr here, before, after, split, fun m hm => by
            simpa using (fails m).mpr (earlier m hm)⟩
      rw [found]
      rfl
    · have found : table.find? p = none :=
        List.find?_eq_none.mpr fun m hm e => silent m hm ((holds m).mp e)
      rw [found]
      rfl
  · rintro rfl
    cases found : table.find? p with
    | none =>
      exact .nothing fun m hm here => List.find?_eq_none.mp found m hm ((holds m).mpr here)
    | some m =>
      obtain ⟨a, f⟩ := m
      obtain ⟨here, before, after, split, earlier⟩ := List.find?_eq_some_iff_append.mp found
      refine .first split ((holds _).mp here) fun m hm => (fails m).mp ?_
      simpa using earlier m hm

open Classical in
/-- A table tells something of every property, also of one that no program decides. -/
theorem tells_iff_decide : Tells table P r ↔ (table.find? fun m => decide (P m.1)).map (·.2) = r :=
  tells_iff fun _ => decide_eq_true_iff

theorem Tells.unique (h : Tells table P r) (h' : Tells table P r') : r = r' :=
  (tells_iff_decide.mp h).symm.trans (tells_iff_decide.mp h')

theorem Tells.congr (h : Tells table P r) (same : ∀ a, Q a ↔ P a) : Tells table Q r := by
  rwa [funext fun a => propext (same a)]

/-- A table in two parts tells what its first part tells, or else what the second does. -/
theorem tells_append {more : List (α × Framework)} :
    Tells (table ++ more) P r ↔
      (∃ f, Tells table P (some f) ∧ r = some f) ∨ (Tells table P none ∧ Tells more P r) := by
  classical
  simp only [tells_iff_decide, List.find?_append]
  cases table.find? (fun m => decide (P m.1)) with
  | none => simp
  | some m => simp [eq_comm]

theorem tells_map {g : β → α} {table : List (β × Framework)} :
    Tells (table.map fun m => (g m.1, m.2)) P r ↔ Tells table (fun b => P (g b)) r := by
  rw [tells_iff_decide, tells_iff_decide, List.find?_map, Option.map_map]
  rfl

end

/-! ### Package files -/

variable {bytes bytes' : List UInt8} {fields fields' : List (String × Json)}
  {names names' : List String} {package package' : Option (List UInt8)}
  {r r' : Option Framework}

/-- The bytes are the written form of an object with these fields. -/
def IsPackage (bytes : List UInt8) (fields : List (String × Json)) : Prop :=
  ∃ text, bytes = Text.encode text ∧ Json.parse? (String.ofList text) = some (.object fields)

theorem IsPackage.unique (h : IsPackage bytes fields) (h' : IsPackage bytes fields') :
    fields = fields' := by
  obtain ⟨text, e, parsed⟩ := h
  obtain ⟨text', e', parsed'⟩ := h'
  have same : text = text' :=
    Option.some.inj ((Text.decode?_eq_some_iff.mpr e).symm.trans (Text.decode?_eq_some_iff.mpr e'))
  subst same
  cases parsed.symm.trans parsed'
  rfl

/-- The object lists a name among its dependencies or among those for its development. -/
def Lists (fields : List (String × Json)) (name : String) : Prop :=
  ∃ key ∈ ["dependencies", "devDependencies"], ∃ entries,
    (Json.object fields).field? key = some (.object entries) ∧ name ∈ entries.map (·.1)

theorem Lists.reordered {name : String} (h : Lists fields name)
    (order : Json.Reordered (.object fields) (.object fields')) : Lists fields' name := by
  obtain ⟨key, known, entries, there, mem⟩ := h
  obtain ⟨v', there', inside⟩ := order.field? there
  cases inside with
  | same => exact ⟨key, known, entries, there', mem⟩
  | object once keys within => exact ⟨key, known, _, there', keys.mem_iff.mp mem⟩

/-- The order of the fields does not change which names are listed. -/
theorem lists_reordered_iff (order : Json.Reordered (.object fields) (.object fields'))
    (name : String) : Lists fields' name ↔ Lists fields name :=
  ⟨fun h => h.reordered order.symm, fun h => h.reordered order⟩

/-- The names that are read off a package file are those that it lists. -/
theorem exists_dependenciesOf? (h : IsPackage bytes fields) :
    ∃ dependencies, dependenciesOf? bytes = some dependencies ∧
      ∀ name, name ∈ dependencies ↔ Lists fields name := by
  obtain ⟨text, e, parsed⟩ := h
  refine ⟨?dependencies, ?read, ?mem⟩
  case read =>
    rw [dependenciesOf?, Text.decode?_eq_some_iff.mpr e, Option.bind_eq_bind, Option.bind_some,
      parsed]
    rfl
  case mem =>
    intro name
    rw [List.mem_flatMap]
    refine exists_congr fun key => and_congr_right fun _ => ?_
    split
    · rename_i entries there
      simp [there]
    · rename_i other
      refine iff_of_false List.not_mem_nil ?_
      rintro ⟨entries, there, -⟩
      exact other entries there

theorem dependenciesOf?_eq_none (h : ∀ fields, ¬ IsPackage bytes fields) :
    dependenciesOf? bytes = none := by
  cases decoded : Text.decode? bytes with
  | none => simp [dependenciesOf?, decoded]
  | some text =>
    cases parsed : Json.parse? (String.ofList text) with
    | none => simp [dependenciesOf?, decoded, parsed]
    | some v =>
      cases v with
      | object fields => exact absurd ⟨text, Text.decode?_eq_some_iff.mp decoded, parsed⟩ (h fields)
      | _ => simp [dependenciesOf?, decoded, parsed]

/-- Names are read off objects only. -/
theorem lists_of_dependenciesOf? {dependencies : List String}
    (read : dependenciesOf? bytes = some dependencies) :
    ∃ fields, IsPackage bytes fields ∧ ∀ name, name ∈ dependencies ↔ Lists fields name := by
  by_cases object : ∃ fields, IsPackage bytes fields
  · obtain ⟨fields, object⟩ := object
    obtain ⟨dependencies', read', listed⟩ := exists_dependenciesOf? object
    cases read.symm.trans read'
    exact ⟨fields, object, listed⟩
  · rw [dependenciesOf?_eq_none (not_exists.mp object)] at read
    cases read

/-! ### What is detected -/

/-- A name in the folder begins with this. -/
def Begins (names : List String) (front : String) : Prop :=
  ∃ name ∈ names, front.toList <+: name.toList

/-- The framework that a package file and the names in a folder tell, when rules judge the names of
dependencies. -/
inductive Detects (rules : List ((String → Prop) × Framework)) (package : Option (List UInt8))
    (names : List String) : Option Framework → Prop
  | unreadable {bytes : List UInt8} (there : package = some bytes)
      (other : ∀ fields, ¬ IsPackage bytes fields) : Detects rules package names none
  | dependency {bytes : List UInt8} {fields : List (String × Json)} {f : Framework}
      (there : package = some bytes) (object : IsPackage bytes fields)
      (tells : Tells rules (fun rule => ∃ name, Lists fields name ∧ rule name) (some f)) :
      Detects rules package names (some f)
  | file {bytes : List UInt8} {fields : List (String × Json)} {r : Option Framework}
      (there : package = some bytes) (object : IsPackage bytes fields)
      (silent : Tells rules (fun rule => ∃ name, Lists fields name ∧ rule name) none)
      (tells : Tells fileMarkers (Begins names) r) : Detects rules package names r
  | missing {r : Option Framework} (missing : package = none)
      (tells : Tells fileMarkers (Begins names) r) : Detects rules package names r

variable {rules : List ((String → Prop) × Framework)}

/-- With an object for a package file, the dependencies decide before the names in the folder. -/
theorem detects_object_iff (there : package = some bytes) (object : IsPackage bytes fields) :
    Detects rules package names r ↔
      (∃ f, Tells rules (fun rule => ∃ name, Lists fields name ∧ rule name) (some f) ∧ r = some f) ∨
      (Tells rules (fun rule => ∃ name, Lists fields name ∧ rule name) none ∧
        Tells fileMarkers (Begins names) r) := by
  constructor
  · intro h
    cases h with
    | unreadable there' other =>
      cases there.symm.trans there'
      exact absurd object (other fields)
    | dependency there' object' tells =>
      cases there.symm.trans there'
      cases object.unique object'
      exact Or.inl ⟨_, tells, rfl⟩
    | file there' object' silent tells =>
      cases there.symm.trans there'
      cases object.unique object'
      exact Or.inr ⟨silent, tells⟩
    | missing missing tells => cases there.symm.trans missing
  · rintro (⟨f, tells, rfl⟩ | ⟨silent, tells⟩)
    · exact .dependency there object tells
    · exact .file there object silent tells

theorem detects_unreadable_iff (there : package = some bytes)
    (other : ∀ fields, ¬ IsPackage bytes fields) : Detects rules package names r ↔ r = none := by
  constructor
  · intro h
    cases h with
    | unreadable => rfl
    | dependency there' object tells =>
      cases there.symm.trans there'
      exact absurd object (other _)
    | file there' object silent tells =>
      cases there.symm.trans there'
      exact absurd object (other _)
    | missing missing tells => cases there.symm.trans missing
  · rintro rfl
    exact .unreadable there other

theorem detects_missing_iff (missing : package = none) :
    Detects rules package names r ↔ Tells fileMarkers (Begins names) r := by
  constructor
  · intro h
    cases h with
    | unreadable there => cases missing.symm.trans there
    | dependency there => cases missing.symm.trans there
    | file there => cases missing.symm.trans there
    | missing _ tells => exact tells
  · exact .missing missing

/-- A package file is missing, or no object, or an object. -/
theorem package_cases (package : Option (List UInt8)) :
    package = none ∨ (∃ bytes, package = some bytes ∧ ∀ fields, ¬ IsPackage bytes fields) ∨
      ∃ bytes fields, package = some bytes ∧ IsPackage bytes fields := by
  cases package with
  | none => exact Or.inl rfl
  | some bytes =>
    by_cases object : ∃ fields, IsPackage bytes fields
    · obtain ⟨fields, object⟩ := object
      exact Or.inr (Or.inr ⟨bytes, fields, rfl, object⟩)
    · exact Or.inr (Or.inl ⟨bytes, rfl, not_exists.mp object⟩)

/-- The markers of the table, each a rule that one name obeys. -/
def listedRules : List ((String → Prop) × Framework) :=
  dependencyMarkers.map fun m => ((· = m.1), m.2)

theorem tells_listedRules_iff {L : String → Prop} :
    Tells listedRules (fun rule => ∃ name, L name ∧ rule name) r ↔ Tells dependencyMarkers L r := by
  rw [listedRules, tells_map (g := fun marker name => name = marker)]
  have same : (fun marker => ∃ name, L name ∧ name = marker) = L :=
    funext fun marker => propext ⟨fun ⟨_, h, e⟩ => e ▸ h, fun h => ⟨marker, h, rfl⟩⟩
  rw [same]

theorem tells_fileMarkers_iff :
    Tells fileMarkers (Begins names) r ↔ ofFileNames? names = r := by
  refine tells_iff fun m => ?_
  simp [Begins]

theorem tells_dependencyMarkers_iff {dependencies : List String} {L : String → Prop}
    (same : ∀ name, name ∈ dependencies ↔ L name) :
    Tells dependencyMarkers L r ↔ ofDependencies? dependencies = r := by
  refine tells_iff fun m => ?_
  rw [List.contains_iff_mem, same]

variable {d d' : Disk} {here here' : Disk.Place} {directory directory' : String}

/-- What is detected is what the table of markers tells, and nothing else. -/
theorem detects_iff :
    Detects listedRules (d.bytes? here (directory ++ "/package.json"))
      (namesIn d here directory) r ↔ detect? d here directory = r := by
  rw [detect?]
  rcases package_cases (d.bytes? here (directory ++ "/package.json")) with
    missing | ⟨bytes, there, other⟩ | ⟨bytes, fields, there, object⟩
  · rw [detects_missing_iff missing, tells_fileMarkers_iff, missing]
  · rw [detects_unreadable_iff there other, there]
    simp only [dependenciesOf?_eq_none other]
    exact eq_comm
  · obtain ⟨dependencies, read, listed⟩ := exists_dependenciesOf? object
    rw [detects_object_iff there object, there]
    simp only [read, tells_listedRules_iff, tells_dependencyMarkers_iff listed,
      tells_fileMarkers_iff]
    cases ofDependencies? dependencies with
    | none => simp
    | some f => simp [eq_comm]

/-! ### Package files that list the same -/

/-- Both files are missing, or neither is an object, or they are objects that list the same names
for dependencies, in whatever section and order. -/
inductive SameLists : Option (List UInt8) → Option (List UInt8) → Prop
  | missing : SameLists none none
  | unreadable {bytes bytes' : List UInt8} (other : ∀ fields, ¬ IsPackage bytes fields)
      (other' : ∀ fields, ¬ IsPackage bytes' fields) : SameLists (some bytes) (some bytes')
  | object {bytes bytes' : List UInt8} {fields fields' : List (String × Json)}
      (object : IsPackage bytes fields) (object' : IsPackage bytes' fields')
      (same : ∀ name, Lists fields' name ↔ Lists fields name) :
      SameLists (some bytes) (some bytes')

/-- What is detected depends on the names that are listed and on those in the folder. -/
theorem Detects.congr (h : Detects rules package names r) (listed : SameLists package package')
    (entries : ∀ name, name ∈ names' ↔ name ∈ names) : Detects rules package' names' r := by
  have files : ∀ {r}, Tells fileMarkers (Begins names) r → Tells fileMarkers (Begins names') r :=
    fun tells => tells.congr fun front =>
      exists_congr fun name => and_congr_left fun _ => entries name
  cases listed with
  | missing =>
    rw [detects_missing_iff rfl] at h ⊢
    exact files h
  | unreadable other other' =>
    rw [detects_unreadable_iff rfl other] at h
    exact (detects_unreadable_iff rfl other').mpr h
  | object object object' same =>
    have judged : ∀ {r}, Tells rules (fun rule => ∃ name, Lists _ name ∧ rule name) r →
        Tells rules (fun rule => ∃ name, Lists _ name ∧ rule name) r :=
      fun tells => tells.congr fun rule =>
        exists_congr fun name => and_congr_left fun _ => same name
    rw [detects_object_iff rfl object] at h
    refine (detects_object_iff rfl object').mpr ?_
    rcases h with ⟨f, tells, e⟩ | ⟨silent, tells⟩
    · exact Or.inl ⟨f, judged tells, e⟩
    · exact Or.inr ⟨judged silent, files tells⟩

/-! ### The documented markers -/

/-- The names that speak for each framework as documented: of Remix, every package does. -/
def documentedRules : List ((String → Prop) × Framework) :=
  [((· = "next"), nextjs), ((· = "vite"), vite), ((· = "astro"), astro),
   ((· = "@sveltejs/kit"), sveltekit), ((· = "nuxt"), nuxt),
   ((fun name => "@remix-run/".toList <+: name.toList), remix)]

/-- A package of Remix is listed, but no marker of the table is. -/
def ListsOtherRemix (fields : List (String × Json)) : Prop :=
  (∀ m ∈ dependencyMarkers, ¬ Lists fields m.1) ∧
    ∃ name, Lists fields name ∧ "@remix-run/".toList <+: name.toList

section

variable {L : String → Prop} {f : Framework}

/-- The rules for the packages of Remix come last in both tables, and the others are the same. -/
theorem documentedRules_eq : documentedRules = listedRules.take 5 ++
    [((fun name => "@remix-run/".toList <+: name.toList), remix)] := rfl

theorem tells_remixRule (h : ∃ name, L name ∧ "@remix-run/".toList <+: name.toList) :
    Tells [((fun name => "@remix-run/".toList <+: name.toList), remix)]
      (fun rule => ∃ name, L name ∧ rule name) (some remix) :=
  .first (show _ = [] ++ (_, remix) :: [] from rfl) h (by simp)

/-- The last markers of the table are packages of Remix. -/
theorem remix_of_mem_drop {rule : String → Prop} (h : (rule, f) ∈ listedRules.drop 5) :
    f = remix ∧ ∀ name, rule name → "@remix-run/".toList <+: name.toList := by
  have last : listedRules.drop 5 =
      [((· = "@remix-run/node"), remix), ((· = "@remix-run/react"), remix)] := rfl
  rw [last, List.mem_cons, List.mem_singleton, Prod.mk.injEq, Prod.mk.injEq] at h
  rcases h with ⟨rfl, rfl⟩ | ⟨rfl, rfl⟩
  · exact ⟨rfl, fun name e => e ▸ by decide⟩
  · exact ⟨rfl, fun name e => e ▸ by decide⟩

/-- Where the table has a marker, the documented one is of the same framework. -/
theorem documented_of_listed
    (h : Tells listedRules (fun rule => ∃ name, L name ∧ rule name) (some f)) :
    Tells documentedRules (fun rule => ∃ name, L name ∧ rule name) (some f) := by
  rw [← List.take_append_drop 5 listedRules] at h
  rw [documentedRules_eq]
  rcases tells_append.mp h with ⟨f', front, same⟩ | ⟨silent, behind⟩
  · exact tells_append.mpr (Or.inl ⟨f', front, same⟩)
  · refine tells_append.mpr (Or.inr ⟨silent, ?_⟩)
    cases behind with
    | first split holds earlier =>
      obtain ⟨rfl, begins⟩ := remix_of_mem_drop (split ▸ List.mem_append_right _ List.mem_cons_self)
      obtain ⟨name, listed, rule⟩ := holds
      exact tells_remixRule ⟨name, listed, begins name rule⟩

/-- Where the table has none, only the packages of Remix can speak for a framework. -/
theorem documented_of_silent
    (h : Tells listedRules (fun rule => ∃ name, L name ∧ rule name) none) :
    Tells documentedRules (fun rule => ∃ name, L name ∧ rule name) r ↔
      Tells [((fun name => "@remix-run/".toList <+: name.toList), remix)]
        (fun rule => ∃ name, L name ∧ rule name) r := by
  rw [← List.take_append_drop 5 listedRules, tells_append] at h
  obtain ⟨silent, -⟩ : Tells (listedRules.take 5) (fun rule => ∃ name, L name ∧ rule name) none ∧
      Tells (listedRules.drop 5) (fun rule => ∃ name, L name ∧ rule name) none := by
    simpa using h
  rw [documentedRules_eq, tells_append]
  constructor
  · rintro (⟨f, front, -⟩ | ⟨-, behind⟩)
    · cases silent.unique front
    · exact behind
  · exact fun behind => Or.inr ⟨silent, behind⟩

end

/-- The documented markers tell the same unless a package of Remix is listed that is no marker of
the table; then they tell Remix. -/
theorem documented_iff (h : Detects listedRules package names r) :
    Detects documentedRules package names r ↔ ∀ bytes fields, package = some bytes →
      IsPackage bytes fields → ListsOtherRemix fields → r = some remix := by
  rcases package_cases package with missing | ⟨bytes, there, other⟩ | ⟨bytes, fields, there, object⟩
  · rw [detects_missing_iff missing] at h ⊢
    refine iff_of_true h fun bytes fields there => ?_
    cases missing.symm.trans there
  · rw [detects_unreadable_iff there other] at h ⊢
    refine iff_of_true h fun bytes' fields there' object => ?_
    cases there.symm.trans there'
    exact absurd object (other fields)
  · have only : (∀ bytes fields, package = some bytes → IsPackage bytes fields →
        ListsOtherRemix fields → r = some remix) ↔ (ListsOtherRemix fields → r = some remix) := by
      refine ⟨fun all => all bytes fields there object, fun one bytes' fields' there' object' => ?_⟩
      cases there.symm.trans there'
      cases object.unique object'
      exact one
    rw [only]
    rw [detects_object_iff there object] at h ⊢
    rcases h with ⟨f, tells, rfl⟩ | ⟨silent, files⟩
    · refine iff_of_true (Or.inl ⟨f, documented_of_listed tells, rfl⟩) fun other => ?_
      cases (tells_listedRules_iff.mp tells).unique (.nothing other.1)
    · have unlisted := tells_listedRules_iff.mp silent
      simp only [documented_of_silent silent]
      -- only another package of Remix is listed by one table and not by the other
      by_cases other : ListsOtherRemix fields
      · have remixes := tells_remixRule other.2
        constructor
        · rintro (⟨f, tells, rfl⟩ | ⟨nothing, -⟩)
          · exact fun _ => tells.unique remixes
          · cases nothing.unique remixes
        · intro isRemix
          exact Or.inl ⟨remix, remixes, isRemix other⟩
      · refine iff_of_true (Or.inr ⟨.nothing fun m hm => ?_, files⟩) fun h => absurd h other
        rw [List.mem_singleton.mp hm]
        intro listed
        refine other ⟨?_, listed⟩
        cases unlisted with
        | nothing unlisted => exact unlisted

/-! ### Detection -/

/-- The framework of a project is what the table of markers tells of the package file and of the
names in the folder. The documented markers tell the same, unless the package file lists another
package of Remix and no marker, and the names do not show Remix either. Projects whose package
files list the same names, whatever their sections and orders, and whose folders hold the same
names, have the same framework, and it is one of the known ones. -/
theorem detect?_documented_iff (d : Disk) (here : Disk.Place) (directory : String) :
    (∀ r, Detects listedRules (d.bytes? here (directory ++ "/package.json"))
        (namesIn d here directory) r ↔ detect? d here directory = r) ∧
    (Detects documentedRules (d.bytes? here (directory ++ "/package.json"))
        (namesIn d here directory) (detect? d here directory) ↔
      ∀ bytes fields, d.bytes? here (directory ++ "/package.json") = some bytes →
        IsPackage bytes fields → ListsOtherRemix fields →
        detect? d here directory = some remix) ∧
    (∀ (d' : Disk) (here' : Disk.Place) (directory' : String),
      SameLists (d.bytes? here (directory ++ "/package.json"))
        (d'.bytes? here' (directory' ++ "/package.json")) →
      (∀ name, name ∈ namesIn d' here' directory' ↔ name ∈ namesIn d here directory) →
      detect? d' here' directory' = detect? d here directory) ∧
    (∀ bytes bytes' fields fields', IsPackage bytes fields → IsPackage bytes' fields' →
      Json.Reordered (.object fields) (.object fields') → SameLists (some bytes) (some bytes')) ∧
    ∀ f, detect? d here directory = some f → ofTag? f.tag = some f := by
  have detected := (detects_iff (r := detect? d here directory)).mpr rfl
  refine ⟨fun r => detects_iff, documented_iff detected, ?_, ?_, ?_⟩
  · intro d' here' directory' listed entries
    exact detects_iff.mp (detected.congr listed entries)
  · intro bytes bytes' fields fields' object object' order
    exact .object object object' (lists_reordered_iff order)
  · intro f _
    cases f <;> rfl

/-- A project of nothing but a package file. -/
def packageDisk (bytes : List UInt8) : Disk :=
  .folder [("p", .folder [("package.json", .file bytes)])]

theorem packageDisk_bytes (bytes : List UInt8) :
    (packageDisk bytes).bytes? ["p"] ("/p" ++ "/package.json") = some bytes := by
  have stands : (packageDisk bytes).at? ["p", "package.json"] = some (.file bytes) := rfl
  exact Disk.bytes?_pathOf stands (by decide) ["p"]

theorem packageDisk_names (bytes : List UInt8) :
    namesIn (packageDisk bytes) ["p"] "/p" = ["package.json"] := by
  have folder : (packageDisk bytes).at? ["p"] = some (.folder [("package.json", .file bytes)]) :=
    rfl
  have text : Disk.pathOf ["p"] = "/p" := rfl
  rw [← text, namesIn_pathOf ["p"] folder (by decide)]
  rfl

/-- A package file with one dependency, the server of Remix. -/
def servePackage : String := "\x7b\"dependencies\": \x7b\"@remix-run/serve\": \"*\"\x7d\x7d"

theorem servePackage_read :
    dependenciesOf? (Text.encode servePackage.toList) = some ["@remix-run/serve"] := by
  have decoded := Text.decode?_eq_some_iff.mpr (Eq.refl (Text.encode servePackage.toList))
  rw [dependenciesOf?, decoded, Option.bind_eq_bind, Option.bind_some]
  decide +kernel

/-- A package of Remix that is no marker is overlooked. -/
theorem servePackage_overlooked :
    let d := packageDisk (Text.encode servePackage.toList)
    detect? d ["p"] "/p" = none ∧
      Detects documentedRules (d.bytes? ["p"] ("/p" ++ "/package.json")) (namesIn d ["p"] "/p")
        (some remix) ∧
      ¬ Detects documentedRules (d.bytes? ["p"] ("/p" ++ "/package.json")) (namesIn d ["p"] "/p")
        none := by
  have read := servePackage_read
  generalize Text.encode servePackage.toList = bytes at read
  obtain ⟨fields, object, listed⟩ := lists_of_dependenciesOf? read
  have unlisted : ∀ m ∈ dependencyMarkers, ¬ Lists fields m.1 := by
    simp only [← listed]
    decide
  have other : ∃ name, Lists fields name ∧ "@remix-run/".toList <+: name.toList :=
    ⟨_, (listed _).mp (List.mem_singleton_self _), by decide⟩
  have silent := tells_listedRules_iff.mpr (.nothing unlisted)
  have unnamed : Tells fileMarkers (Begins ["package.json"]) none :=
    tells_fileMarkers_iff.mpr (by decide)
  have told : Detects listedRules (some bytes) ["package.json"] none :=
    .file rfl object silent unnamed
  intro d
  rw [packageDisk_bytes, packageDisk_names]
  refine ⟨?_, ?_, fun overlooked => ?_⟩
  · rw [← detects_iff, packageDisk_bytes, packageDisk_names]
    exact told
  · exact .dependency rfl object ((documented_of_silent silent).mpr (tells_remixRule other))
  · cases (documented_iff told).mp overlooked _ _ rfl object ⟨unlisted, other⟩

end Framework

end EnvCensus
