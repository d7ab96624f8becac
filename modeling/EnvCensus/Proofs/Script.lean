import EnvCensus.Proofs.Distinct
import EnvCensus.Proofs.Except
import EnvCensus.Proofs.Finding
import EnvCensus.Script.Findings

/-!
# Scripts

What a walk through a script observes has valid names and stands in lines and
columns from one on, so all of it is found. Once a script is parsed one thing
alone stops the walk: an escape with a code beyond the last code point, in a
literal that the walk has to read.
-/

namespace EnvCensus.Script

/-! ### Literals -/

/-- The code that names no character. -/
def EscapeFault.code : EscapeFault → Nat
  | beyondCodePoints n => n
  | beyondWord n => n

/-- The code lies beyond the last code point. -/
def EscapeFault.Beyond (e : EscapeFault) : Prop := 0x10FFFF < e.code

/-- Whatever the computation gives, it fails by codes beyond the last code point only. -/
abbrev Reads {α : Type} (P : α → Prop) (x : Except EscapeFault α) : Prop :=
  Ends EscapeFault.Beyond P x

theorem charOfCode_reads (n : Nat) : Reads (fun _ => n ≤ 0x10FFFF) (charOfCode n) := by
  unfold charOfCode
  split
  · rename_i word
    exact .error (show 0x10FFFF < n by omega)
  · split
    · rename_i beyond
      exact .error beyond
    · exact .ok (by omega)

theorem escapeValue_reads (cs : List Char) : Reads (fun _ => True) (escapeValue cs) := by
  unfold escapeValue
  split
  · exact .ok trivial
  · exact (charOfCode_reads _).map fun _ _ => trivial

theorem decodeFrom_reads (skip : Nat) (cs : List Char) :
    Reads (fun _ => True) (decodeFrom skip cs) := by
  fun_induction decodeFrom skip cs with
  | case1 => exact .ok trivial
  | case2 c rest k ih => exact ih
  | case3 c rest _ ih =>
    exact (escapeValue_reads rest).bind fun value _ => (ih value.2).bind fun _ _ => .ok trivial
  | case4 c rest _ ih => exact ih.bind fun _ _ => .ok trivial

theorem literalValue_reads (t : Tree) : Reads (fun _ => True) (literalValue t) := by
  unfold literalValue
  split
  · exact (decodeFrom_reads 0 _).map fun _ _ => trivial
  · exact .ok trivial

theorem literalValue?_reads (t : Option Tree) : Reads (fun _ => True) (literalValue? t) := by
  cases t with
  | none => exact .ok trivial
  | some t => exact literalValue_reads t

theorem guardOf_reads (t : Tree) (above : List Tree) : Reads (fun _ => True) (guardOf t above) := by
  unfold guardOf
  split
  · exact (literalValue?_reads _).map fun _ _ => trivial
  · exact .ok trivial

/-! ### Observations -/

/-- The observations are of valid names. -/
def Named (found : List Observation) : Prop := ∀ o ∈ found, Name.isValid o.name = true

theorem named_nil : Named [] := by simp [Named]

theorem noted_named (name : String) (source : Source) (t : Tree) (g : Guard)
    (context : Option String) : Named (noted name source t g context) := by
  unfold noted
  split
  · rename_i valid
    intro o ho
    rw [List.mem_singleton.mp ho]
    exact valid
  · exact named_nil

theorem observeMember_reads (t : Tree) (above : List Tree) (context : Option String) :
    Reads Named (observeMember t above context) := by
  unfold observeMember
  split
  · split
    · exact (guardOf_reads t above).bind fun g _ => .ok (noted_named _ _ _ g _)
    · exact .ok named_nil
  · exact .ok named_nil

theorem observeSubscript_reads (t : Tree) (above : List Tree) (context : Option String) :
    Reads Named (observeSubscript t above context) := by
  unfold observeSubscript
  split
  · refine (literalValue?_reads _).bind fun index _ => ?_
    cases index with
    | none => exact .ok named_nil
    | some name => exact (guardOf_reads t above).bind fun g _ => .ok (noted_named _ _ _ g _)
  · exact .ok named_nil

theorem keyName_reads (key : Option Tree) : Reads (fun _ => True) (keyName key) := by
  unfold keyName
  split
  · split
    · exact (literalValue_reads _).map fun _ _ => trivial
    · exact .ok trivial
  · exact .ok trivial

theorem observeProperty_reads (source : Source) (context : Option String) (e : Tree) :
    Reads Named (observeProperty source context e) := by
  unfold observeProperty
  split
  · exact .ok (noted_named _ _ _ _ _)
  · exact (literalValue?_reads _).bind fun d _ => .ok (noted_named _ _ _ _ _)
  · refine (keyName_reads _).bind fun name _ => ?_
    split
    · split
      · exact (literalValue?_reads _).bind fun d _ => .ok (noted_named _ _ _ _ _)
      · exact .ok (noted_named _ _ _ _ _)
    · exact .ok (noted_named _ _ _ _ _)
  · exact .ok named_nil

theorem observeDeclarator_reads (t : Tree) (context : Option String) :
    Reads Named (observeDeclarator t context) := by
  unfold observeDeclarator
  split
  · split
    · refine (Ends.mapM fun e _ => observeProperty_reads _ context e).map fun parts named => ?_
      intro o ho
      obtain ⟨part, hpart, ho⟩ := List.mem_flatten.mp ho
      exact named part hpart o ho
    · exact .ok named_nil
  · exact .ok named_nil

theorem shows_reads (v : Visit) : Reads Named v.shows := by
  unfold Visit.shows observe
  split
  · exact observeMember_reads _ _ _
  · exact observeSubscript_reads _ _ _
  · exact observeDeclarator_reads _ _
  · exact .ok named_nil

/-- A visit adds observations of valid names to those of the visits before it. -/
theorem named_visit {here found : List Observation} (new : Named here) (old : Named found) :
    Named (here.reverse ++ found) := by
  intro o ho
  rcases List.mem_append.mp ho with ho | ho
  · exact new o (List.mem_reverse.mp ho)
  · exact old o ho

theorem walkStack_reads (stack : List Visit) {found : List Observation} (old : Named found) :
    Reads Named (walkStack stack found) := by
  fun_induction walkStack stack found with
  | case1 found => exact .ok fun o ho => old o (List.mem_reverse.mp ho)
  | case2 found v rest here shown ih => exact ih (named_visit ((shows_reads v).result shown) old)
  | case3 found v rest e shown => exact .error ((shows_reads v).failure shown)

theorem walk_reads (root : Tree) : Reads Named (walk root) := walkStack_reads _ named_nil

/-! ### Findings -/

/-- A sighting of a valid name at a place that is counted from one. -/
structure Sighting.Placed (s : Sighting) : Prop where
  name : Name.isValid s.observation.name = true
  line : 1 ≤ s.line
  column : 1 ≤ s.column

theorem sightings_reads (source : List Char) (root : Tree) :
    Reads (fun seen => ∀ s ∈ seen, s.Placed) (sightings source root) := by
  refine (walk_reads root).map fun found named => ?_
  intro s hs
  obtain ⟨o, ho, rfl⟩ := List.mem_map.mp hs
  exact ⟨named o ho, Nat.le_add_left 1 _, Nat.le_add_left 1 _⟩

/-- The reference to the place of a sighting, with its context. -/
def Sighting.ref (here path : String) (s : Sighting) : FileRef :=
  ⟨Path.absolute here path, s.line, s.column, s.observation.context, none⟩

theorem mapM_make (here path : String) {group : List Sighting} (placed : ∀ s ∈ group, s.Placed) :
    (group.mapM fun s => Failure.ofRange
      (FileRef.make here path s.line s.column s.observation.context none)) =
        .ok (group.map (Sighting.ref here path)) := by
  refine mapM_eq_map fun s hs => ?_
  rw [FileRef.make_counted here path _ _ (placed s hs).line (placed s hs).column]
  rfl

/-- The finding for the sightings of one source and one name. -/
def gathered (here path : String) (options : Options) (key : Source × String)
    (group : List Sighting) : Finding where
  name := key.2
  source := key.1
  files := group.map (Sighting.ref here path)
  required := !group.any fun s => s.observation.guarded
  defaultValue := group.findSome? fun s => s.observation.default.filter (· ≠ "")
  isPublic := Name.isPublic key.2 options.publicPrefixes

theorem findingOf_eq (here path : String) (options : Options) {key : Source × String}
    {group : List Sighting} (name : Name.isValid key.2 = true) (some : group ≠ [])
    (placed : ∀ s ∈ group, s.Placed) :
    findingOf here path options key group = .ok (gathered here path options key group) := by
  have refs : group.map (Sighting.ref here path) ≠ [] := mt List.map_eq_nil_iff.mp some
  rw [findingOf, mapM_make here path placed, ok_bind]
  exact congrArg Failure.ofBreach (Finding.make_eq_ok refs name)

theorem findingOf_ends (here path : String) (options : Options) {key : Source × String}
    {group : List Sighting} (name : Name.isValid key.2 = true) (some : group ≠ [])
    (placed : ∀ s ∈ group, s.Placed) :
    Ends (fun _ => False) Finding.Valid (findingOf here path options key group) := by
  rw [findingOf_eq here path options name some placed]
  exact .ok ⟨mt List.map_eq_nil_iff.mp some, name⟩

/-- Sightings of valid names are findings. -/
theorem findingsOf_ends (here path : String) (options : Options) {seen : List Sighting}
    (placed : ∀ s ∈ seen, s.Placed) :
    Ends (fun _ => False) (fun found => ∀ f ∈ found, f.Valid)
      (findingsOf here path options seen) := by
  refine Ends.mapM fun key hkey => ?_
  obtain ⟨s, hs, same⟩ := List.mem_map.mp ((distinctBy_sublist _).subset hkey)
  have inGroup : s ∈ seen.filter fun s => s.key == key := by simp [hs, same]
  refine findingOf_ends here path options ?_ (List.ne_nil_of_mem inGroup) fun s hs =>
    placed s (List.mem_of_mem_filter hs)
  rw [← same]
  exact (placed s hs).name

/-! ### How reading a script ends -/

variable [Parsers]

/-- The parsed script of a file; a component file may have none. -/
def tree? (content path : String) : Option Tree :=
  let suffix := Text.lowerAscii (Path.parse path).suffix
  if componentSuffixes.contains suffix then
    let (source, d) := extract content.toList suffix
    if Text.trim source = [] then none else Parsers.tree d source
  else Parsers.tree (dialectOf suffix) content.toList

/-- The file can be parsed, but a walk through it meets an escape that names no character. -/
def Faulty (content path : String) : Prop :=
  ∃ root fault, tree? content path = some root ∧ walk root = .error fault

theorem scanSource_ends (here path : String) (options : Options) {d : Dialect}
    {source : List Char} {content : String} (same : tree? content path = Parsers.tree d source) :
    Ends (fun e => (Faulty content path → ∃ fault, fault.Beyond ∧ e = .escape fault) ∧
        (¬ Faulty content path → e.isParseFailure = true))
      (fun found => ¬ Faulty content path ∧ ∀ f ∈ found, f.Valid)
      (scanSource here path options d source) := by
  unfold scanSource
  cases parsed : Parsers.tree d source with
  | none =>
    have calm : ¬ Faulty content path := by
      rintro ⟨root, fault, hroot, -⟩
      simp [same, parsed] at hroot
    exact .error ⟨fun faulty => (calm faulty).elim, fun _ => rfl⟩
  | some root =>
    have seen := sightings_reads source root
    cases walked : walk root with
    | error fault =>
      have failed : sightings source root = .error fault := by rw [sightings, walked]; rfl
      have faulty : Faulty content path := ⟨root, fault, same.trans parsed, walked⟩
      simp only [failed]
      exact .error ⟨fun _ => ⟨fault, seen.failure failed, rfl⟩, fun calm => (calm faulty).elim⟩
    | ok found =>
      obtain ⟨placed, hplaced⟩ : ∃ placed, sightings source root = .ok placed := by
        rw [sightings, walked]
        exact ⟨_, rfl⟩
      have calm : ¬ Faulty content path := by
        rintro ⟨root', fault, hroot, failed⟩
        cases (same.trans parsed).symm.trans hroot
        cases walked.symm.trans failed
      simp only [hplaced]
      exact (findingsOf_ends here path options (seen.result hplaced)).imp (fun _ => False.elim)
        fun _ valid => ⟨calm, valid⟩

/-- A faulty script fails by a code beyond the last code point; every other one gives findings or
cannot be parsed. -/
theorem scan_ends (here content path : String) (options : Options) :
    Ends (fun e => (Faulty content path → ∃ fault, fault.Beyond ∧ e = .escape fault) ∧
        (¬ Faulty content path → e.isParseFailure = true))
      (fun found => ¬ Faulty content path ∧ ∀ f ∈ found, f.Valid)
      (scan here content path options) := by
  by_cases component : componentSuffixes.contains (Text.lowerAscii (Path.parse path).suffix) = true
  · cases extracted : extract content.toList (Text.lowerAscii (Path.parse path).suffix) with
    | mk source d =>
      by_cases blank : Text.trim source = []
      · have calm : ¬ Faulty content path := by
          rintro ⟨root, fault, hroot, -⟩
          simp only [tree?, if_pos component, extracted, if_pos blank] at hroot
          cases hroot
        simp only [scan, if_pos component, extracted, if_pos blank]
        exact .ok ⟨calm, by simp⟩
      · simp only [scan, if_pos component, extracted, if_neg blank]
        exact scanSource_ends here path options
          (by simp only [tree?, if_pos component, extracted, if_neg blank])
  · simp only [scan, if_neg component]
    exact scanSource_ends here path options (by simp only [tree?, if_neg component])

end EnvCensus.Script

/-!
## Findings of one file

The sightings in a file that share source and name make one finding. None of
them is lost, none is taken twice and none changes its place in the order of the
file. A finding is required when no access is guarded: one guarded access makes
the variable optional for the whole file.
-/

namespace EnvCensus

/-- What the sightings of a finding share. -/
def Finding.key (f : Finding) : Source × String := (f.source, f.name)

namespace Script

variable {here path : String} {options : Options} {seen group : List Sighting}

/-- What a finding takes from the sightings that it stands for. -/
structure Gathers (here path : String) (options : Options) (group : List Sighting)
    (f : Finding) : Prop where
  files : f.files = group.map (Sighting.ref here path)
  required : f.required = true ↔ ∀ s ∈ group, s.observation.guarded = false
  defaultValue : f.defaultValue = (group.filterMap (·.observation.default)).find? (· ≠ "")
  isPublic : f.isPublic = Name.isPublic f.name options.publicPrefixes
  notes : f.notes = []

theorem gathered_gathers (here path : String) (options : Options) (key : Source × String)
    (group : List Sighting) :
    Gathers here path options group (gathered here path options key group) where
  files := rfl
  required := by simp [gathered]
  defaultValue := findSome?_filter _ _ group
  isPublic := rfl
  notes := rfl

/-- The sightings that a finding stands for. -/
def sightingsOf (key : Source × String) (seen : List Sighting) : List Sighting :=
  seen.filter fun s => s.key == key

theorem sightingsOf_ne_nil {key : Source × String} :
    sightingsOf key seen ≠ [] ↔ key ∈ seen.map Sighting.key := by
  rw [ne_eq, List.eq_nil_iff_forall_not_mem, not_forall, List.mem_map]
  simp [sightingsOf]

theorem findingsOf_eq (here path : String) (options : Options) (placed : ∀ s ∈ seen, s.Placed) :
    findingsOf here path options seen =
      .ok ((distinctBy id (seen.map Sighting.key)).map fun key =>
        gathered here path options key (sightingsOf key seen)) := by
  refine mapM_eq_map fun key hkey => ?_
  have known : key ∈ seen.map Sighting.key := mem_distinctBy_id.mp hkey
  obtain ⟨s, hs, rfl⟩ := List.mem_map.mp known
  exact findingOf_eq here path options (placed s hs).name (sightingsOf_ne_nil.mpr known) fun t ht =>
    placed t (List.mem_of_mem_filter ht)

/-- The findings of a file: one for each source and name among the sightings, in the order of first
occurrences, each with all sightings of its own, in their order, and with no others. -/
structure Groups (here path : String) (options : Options) (seen : List Sighting)
    (found : List Finding) : Prop where
  one : ∀ s ∈ seen, ∃! f, f ∈ found ∧ f.key = s.key
  known : ∀ f ∈ found, f.key ∈ seen.map Sighting.key
  order : found.Pairwise fun f g =>
    (seen.map Sighting.key).idxOf f.key < (seen.map Sighting.key).idxOf g.key
  each : ∀ f ∈ found, Gathers here path options (sightingsOf f.key seen) f
  all : (found.flatMap (·.files)).Perm (seen.map (Sighting.ref here path))

/-- Sightings of valid names make the findings of their file. -/
theorem findingsOf_groups (here path : String) (options : Options)
    (placed : ∀ s ∈ seen, s.Placed) :
    ∃ found, findingsOf here path options seen = .ok found ∧
      Groups here path options seen found := by
  let keys := distinctBy id (seen.map Sighting.key)
  let make := fun key => gathered here path options key (sightingsOf key seen)
  have mem_keys : ∀ key, key ∈ keys ↔ key ∈ seen.map Sighting.key := fun _ => mem_distinctBy_id
  refine ⟨keys.map make, findingsOf_eq here path options placed, ?_, ?_, ?_, ?_, ?_⟩
  · intro s hs
    have there : s.key ∈ keys := (mem_keys _).mpr (List.mem_map_of_mem hs)
    refine ⟨make s.key, ⟨List.mem_map_of_mem there, rfl⟩, ?_⟩
    rintro f ⟨hf, same⟩
    obtain ⟨key, -, rfl⟩ := List.mem_map.mp hf
    exact congrArg make same
  · intro f hf
    obtain ⟨key, hkey, rfl⟩ := List.mem_map.mp hf
    exact (mem_keys key).mp hkey
  · exact List.pairwise_map.mpr (pairwise_idxOf_distinctBy_id _)
  · intro f hf
    obtain ⟨key, -, rfl⟩ := List.mem_map.mp hf
    exact gathered_gathers here path options key _
  · have parts : (keys.map make).flatMap (·.files) =
        (keys.flatMap fun key => sightingsOf key seen).map (Sighting.ref here path) := by
      rw [List.flatMap_map, List.map_flatMap]
      rfl
    rw [parts]
    refine (flatMap_filter_perm (nodup_distinctBy_id _) fun s hs => ?_).map _
    exact (mem_keys _).mpr (List.mem_map_of_mem hs)

/-- Three accesses to two variables: the second access to `REDIS_URL` has a fallback. -/
def redisSightings : List Sighting :=
  [⟨⟨"REDIS_URL", .process, ⟨0, 8⟩, ⟨0, 29⟩, false, none, some "Function: connect"⟩, 1, 9⟩,
   ⟨⟨"PORT", .process, ⟨1, 4⟩, ⟨1, 20⟩, false, none, none⟩, 2, 5⟩,
   ⟨⟨"REDIS_URL", .process, ⟨2, 10⟩, ⟨2, 31⟩, true, some "redis://localhost", none⟩, 3, 11⟩]

/-- They are two findings. -/
theorem findingsOf_redisSightings : (∀ s ∈ redisSightings, s.Placed) ∧
    ∃ found, findingsOf "/project" "app.js" {} redisSightings = .ok found ∧
      Groups "/project" "app.js" {} redisSightings found := by
  have placed : ∀ s ∈ redisSightings, s.Placed := by
    simp only [redisSightings, List.forall_mem_cons, List.not_mem_nil, false_imp_iff, implies_true]
    exact ⟨⟨by decide, by decide, by decide⟩, ⟨by decide, by decide, by decide⟩,
      ⟨by decide, by decide, by decide⟩, trivial⟩
  exact ⟨placed, findingsOf_groups "/project" "app.js" {} placed⟩

end Script

end EnvCensus
