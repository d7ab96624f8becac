import EnvCensus.Proofs.Manifest
import EnvCensus.Proofs.Merge.Stages

/-!
# Services that declare one variable

In a file of services, the line of a reference is the place of the declaration
in its own service, and every service counts from one. Merging keeps the first
reference of each place. So a service is named among the references of a
variable just when, at the place of one of its declarations, no service before
it declares the variable too.
-/

namespace EnvCensus.Manifest

variable {here path n : String} {options : Options} {s t : Value × Value}
  {services : List (Value × Value)} {found merged : List Finding}

/-- The declarations of a service. -/
def declared (s : Value × Value) : List Declaration := declarations (s.2.field "environment")

/-- The service declares the name, behind `k` other declarations. -/
def Declares (s : Value × Value) (n : String) (k : Nat) : Prop :=
  ∃ d, (declared s)[k]? = some d ∧ d.name = n

/-- What is said of the place of a declaration in a service. -/
def serviceContext (s : Value × Value) : String := "Service: " ++ s.1.display

/-- A declaration of the name, in a service of this name, behind `k` other declarations, is the
first one there. -/
def FirstAt (services : List (Value × Value)) (service n : String) (k : Nat) : Prop :=
  ∃ before s after, services = before ++ s :: after ∧ s.1.display = service ∧ Declares s n k ∧
    ∀ t ∈ before, ¬ Declares t n k

/-! ### References of a service -/

/-- The reference to the declaration of a service at a place, counted from one. -/
def refAt (here path : String) (s : Value × Value) (place : Nat) : FileRef :=
  ⟨Path.absolute here path, place, 1, some (serviceContext s), none⟩

/-- The places of the declarations of a name in a service. -/
def placesOf (n : String) (s : Value × Value) : List Nat :=
  ((placed (declared s)).filter fun e => e.1.name == n).map (·.2)

theorem mem_placesOf (valid : Name.isValid n = true) {p : Nat} :
    p ∈ placesOf n s ↔ ∃ k, p = k + 1 ∧ Declares s n k := by
  simp only [placesOf, placed, List.mem_map, List.mem_filter, List.mem_mapIdx, beq_iff_eq]
  constructor
  · rintro ⟨⟨d, p⟩, ⟨⟨⟨k, hk, e⟩, -⟩, named⟩, rfl⟩
    cases e
    exact ⟨k, rfl, _, List.getElem?_eq_getElem hk, named⟩
  · rintro ⟨k, rfl, d, there, rfl⟩
    obtain ⟨hk, rfl⟩ := List.getElem?_eq_some_iff.mp there
    exact ⟨(_, k + 1), ⟨⟨⟨k, hk, rfl⟩, valid⟩, rfl⟩, rfl⟩

theorem nodup_placesOf (n : String) (s : Value × Value) : (placesOf n s).Nodup := by
  have all : ((declared s).mapIdx fun i d => (d, i + 1)).map (·.2) =
      (List.range (declared s).length).map (· + 1) := by
    refine List.ext_getElem (by simp) fun i _ _ => by simp
  refine List.Nodup.sublist ((List.filter_sublist.trans List.filter_sublist).map _) ?_
  rw [all]
  exact List.nodup_range.map fun _ _ => Nat.succ.inj

/-- The finding is for the declaration and has one reference, to its place. -/
def IsAbout (here path : String) (s : Value × Value) (e : Declaration × Nat) (f : Finding) :
    Prop :=
  f.name = e.1.name ∧ f.files = [refAt here path s e.2]

theorem findingOf_isAbout {e : Declaration × Nat} {f : Finding} (line : 1 ≤ e.2)
    (h : findingOf here path options .docker true (serviceContext s) none e = .ok f) :
    IsAbout here path s e f := by
  rw [findingOf, FileRef.make_eq_ok here path _ _ line] at h
  obtain ⟨source, rfl⟩ := Finding.make_cases (mapError_eq_ok.mp h)
  exact ⟨rfl, rfl⟩

theorem forall₂_annotate {α : Type} {R : α → Finding → Prop} {notes : List String} {es : List α}
    (blind : ∀ e f notes, R e f → R e { f with notes }) (h : List.Forall₂ R es found) :
    List.Forall₂ R es (annotate notes found) := by
  cases h with
  | nil => exact .nil
  | cons first rest => exact .cons (blind _ _ _ first) rest

/-- The findings of a service are for its declarations, one for each that has a valid name. -/
theorem serviceFindings_isAbout (isMap : s.2.isMap = true)
    (h : serviceFindings here path options s = .ok found) :
    List.Forall₂ (IsAbout here path s) (placed (declared s)) found := by
  unfold serviceFindings at h
  rw [isMap] at h
  obtain ⟨-, -, h⟩ := bind_eq_ok.mp h
  obtain ⟨plain, hplain, h⟩ := bind_eq_ok.mp h
  cases h
  refine forall₂_annotate (fun e f notes about => about) ?_
  exact forall₂_mapM hplain fun e he f hf => findingOf_isAbout (placed_valid _ e he).2 hf

/-! ### References of a variable -/

/-- The references to a name in a service, in the order of its declarations. -/
def refsTo (here path n : String) (s : Value × Value) : List FileRef :=
  (placesOf n s).map (refAt here path s)

theorem named_files_of_isAbout {es : List (Declaration × Nat)}
    (h : List.Forall₂ (IsAbout here path s) es found) (n : String) :
    (Finding.named n found).flatMap (·.files) =
      ((es.filter fun e => e.1.name == n).map (·.2)).map (refAt here path s) := by
  induction h with
  | nil => rfl
  | cons first _ ih =>
    obtain ⟨name, files⟩ := first
    rw [Finding.named, List.filter_cons, name, List.filter_cons]
    split
    · rw [List.flatMap_cons, files, ← Finding.named, ih]
      rfl
    · exact ih

theorem declared_of_not_isMap (h : s.2.isMap = false) : declared s = [] := by
  unfold declared Value.field
  split
  · rename_i shape
    simp [shape, Value.isMap] at h
  · rfl

/-- The references of a service to a name are those of its findings of the name. -/
theorem serviceFindings_named (h : serviceFindings here path options s = .ok found) (n : String) :
    (Finding.named n found).flatMap (·.files) = refsTo here path n s := by
  cases isMap : s.2.isMap with
  | false =>
    rw [serviceFindings, isMap] at h
    cases h
    simp [refsTo, placesOf, declared_of_not_isMap isMap, placed, Finding.named]
  | true => exact named_files_of_isAbout (serviceFindings_isAbout isMap h) n

/-- The references of a file to a name are those of its services, one after the other. -/
theorem findings_named (h : findings here path options (.compose services) = .ok found)
    (n : String) :
    (Finding.named n found).flatMap (·.files) = services.flatMap (refsTo here path n) := by
  obtain ⟨parts, hparts, h⟩ := bind_eq_ok.mp h
  cases h
  have pairs := forall₂_of_mapM hparts
  clear h hparts
  induction pairs with
  | nil => rfl
  | cons first _ ih =>
    rw [List.flatten_cons, Finding.named_append, List.flatMap_append, ih,
      serviceFindings_named first, List.flatMap_cons]

/-- Every finding of a service has one reference. -/
theorem findings_single (h : findings here path options (.compose services) = .ok found) :
    ∀ f ∈ found, ∃ r, f.files = [r] := by
  obtain ⟨parts, hparts, h⟩ := bind_eq_ok.mp h
  cases h
  intro f hf
  obtain ⟨part, hpart, hf⟩ := List.mem_flatten.mp hf
  obtain ⟨s, -, hs⟩ := mem_of_mapM hparts hpart
  cases isMap : s.2.isMap with
  | false =>
    rw [serviceFindings, isMap] at hs
    cases hs
    cases hf
  | true =>
    obtain ⟨e, -, about⟩ := mem_of_forall₂ (serviceFindings_isAbout isMap hs) hf
    exact ⟨_, about.2⟩

theorem nodup_keys_refsTo (here path n : String) (s : Value × Value) :
    ((refsTo here path n s).map (·.key)).Nodup := by
  rw [refsTo, List.map_map]
  exact (nodup_placesOf n s).map fun p q same => (Prod.mk.inj (Prod.mk.inj same).2).1

theorem mem_keys_refsTo {p : Nat} :
    (refAt here path s p).key ∈ (refsTo here path n t).map (·.key) ↔ p ∈ placesOf n t := by
  simp [refsTo, refAt, FileRef.key]

/-- The references that stay when each place keeps its first one. -/
theorem exists_mem_dedupe_iff (valid : Name.isValid n = true) {service : String} :
    (∃ r ∈ FileRef.dedupe (services.flatMap (refsTo here path n)),
        r.context = some ("Service: " ++ service)) ↔ ∃ k, FirstAt services service n k := by
  have stays : ∀ r, r ∈ FileRef.dedupe (services.flatMap (refsTo here path n)) ↔
      ∃ before s after, services = before ++ s :: after ∧ r ∈ refsTo here path n s ∧
        ∀ t ∈ before, r.key ∉ (refsTo here path n t).map (·.key) := fun r =>
    mem_distinctBy_flatMap fun s _ => nodup_keys_refsTo here path n s
  simp only [stays]
  constructor
  · rintro ⟨r, ⟨before, s, after, split, there, unseen⟩, context⟩
    obtain ⟨p, hp, rfl⟩ := List.mem_map.mp there
    obtain ⟨k, rfl, declares⟩ := (mem_placesOf valid).mp hp
    refine ⟨k, before, s, after, split, ?_, declares, fun t ht declares' => ?_⟩
    · exact (String.append_right_inj _).mp (Option.some.inj context)
    · exact unseen t ht (mem_keys_refsTo.mpr ((mem_placesOf valid).mpr ⟨k, rfl, declares'⟩))
  · rintro ⟨k, before, s, after, split, rfl, declares, first⟩
    have here' : k + 1 ∈ placesOf n s := (mem_placesOf valid).mpr ⟨k, rfl, declares⟩
    refine ⟨refAt here path s (k + 1),
      ⟨before, s, after, split, List.mem_map_of_mem here', fun t ht seen => ?_⟩, rfl⟩
    obtain ⟨k', same, declares'⟩ := (mem_placesOf valid).mp (mem_keys_refsTo.mp seen)
    cases same
    exact first t ht declares'

/-! ### Merged findings -/

/-- What stands for findings with one reference each has the first of them for each place. -/
theorem files_of_standsFor {group : List Finding} {m : Finding} (h : Finding.StandsFor group m)
    (single : ∀ f ∈ group, ∃ r, f.files = [r]) :
    m.files = FileRef.dedupe (group.flatMap (·.files)) := by
  rcases h with rfl | ⟨-, united⟩
  · obtain ⟨r, one⟩ := single m List.mem_cons_self
    rw [List.flatMap_singleton, one]
    rfl
  · rw [united.files, ← distinctBy_eq_eraseDupsBy]
    rfl

/-- The merged finding of a name that a service declares has the first reference of each place. -/
theorem named_merged (h : findings here path options (.compose services) = .ok found)
    (summary : Finding.Summary found merged) (valid : Name.isValid n = true) (hs : s ∈ services)
    (declares : ∃ k, Declares s n k) : ∃ m, Finding.named n merged = [m] ∧
      m.files = FileRef.dedupe (services.flatMap (refsTo here path n)) := by
  have references := findings_named h n
  rcases summary.named_cases n with ⟨none, -⟩ | ⟨m, one, stands⟩
  · -- the reference of the declaration is one of a finding of the name
    obtain ⟨k, declares⟩ := declares
    have reference : refAt here path s (k + 1) ∈ services.flatMap (refsTo here path n) :=
      List.mem_flatMap.mpr
        ⟨s, hs, List.mem_map_of_mem ((mem_placesOf valid).mpr ⟨k, rfl, declares⟩)⟩
    rw [← references, none] at reference
    cases reference
  · refine ⟨m, one, ?_⟩
    rw [← references]
    exact files_of_standsFor stands fun f hf => findings_single h f (Finding.mem_named.mp hf).1

/-- Of every variable that a service declares there is one merged finding. It names a service just
when the service has a declaration of the variable at whose place no service before it declares
the variable as well. -/
theorem compose_keeps_service_iff (here path : String) (options : Options)
    (services : List (Value × Value)) :
    Ends (Blocked (written (.compose services)))
      (fun found => ∃ merged, Finding.mergeAll found = .ok merged ∧
        ∀ n, Name.isValid n = true → ∀ s ∈ services, (∃ k, Declares s n k) →
          ∃ m, Finding.named n merged = [m] ∧
            ∀ service, (∃ r ∈ m.files, r.context = some ("Service: " ++ service)) ↔
              ∃ k, FirstAt services service n k)
      (findings here path options (.compose services)) := by
  have ends := findings_writes here path options (.compose services)
  cases read : findings here path options (.compose services) with
  | error e => exact .error (Ends.failure ends read)
  | ok found =>
    obtain ⟨merged, hmerged, summary, -⟩ := Finding.mergeAll_summary (Ends.result ends read).2
    refine .ok ⟨merged, hmerged, fun n valid s hs declares => ?_⟩
    obtain ⟨m, one, files⟩ := named_merged read summary valid hs declares
    exact ⟨m, one, fun service => files ▸ exists_mem_dedupe_iff valid⟩

/-- A service whose environment is a list with one name. -/
def tokenService (service : String) : Value × Value :=
  (.text service, .map [(.text "environment", .list [.text "TOKEN"])])

/-- Two services that declare the same variable at the same place. -/
def webAndDb : List (Value × Value) := [tokenService "web", tokenService "db"]

/-- The second service is not among the references of the variable that it declares. -/
theorem second_service_dropped : Declares (tokenService "db") "TOKEN" 0 ∧ ∃ found merged,
    findings "/" "/compose.yaml" {} (.compose webAndDb) = .ok found ∧
      Finding.mergeAll found = .ok merged ∧
      ∀ m ∈ Finding.named "TOKEN" merged, ∀ r ∈ m.files, r.context ≠ some "Service: db" := by
  have declares : Declares (tokenService "db") "TOKEN" 0 := ⟨_, rfl, rfl⟩
  have dropped : ∀ r ∈ FileRef.dedupe (webAndDb.flatMap (refsTo "/" "/compose.yaml" "TOKEN")),
      r.context ≠ some "Service: db" := by decide +kernel
  obtain ⟨found, read⟩ : ∃ found,
      findings "/" "/compose.yaml" {} (.compose webAndDb) = .ok found := ⟨_, rfl⟩
  have valid := (Ends.result (findings_writes "/" "/compose.yaml" {} (.compose webAndDb)) read).2
  obtain ⟨merged, hmerged, summary, -⟩ := Finding.mergeAll_summary valid
  refine ⟨declares, found, merged, read, hmerged, fun m hm r hr => ?_⟩
  obtain ⟨m', one, files⟩ := named_merged read summary (by decide +kernel)
    (List.mem_cons_of_mem _ List.mem_cons_self) ⟨0, declares⟩
  rw [one, List.mem_singleton] at hm
  rw [hm, files] at hr
  exact dropped r hr

end EnvCensus.Manifest
