import EnvCensus.Proofs.Dotenv.Declaration
import EnvCensus.Proofs.Manifest.Services

/-!
# Environments of services

The environment of a service is a list of items or a mapping. An item says a name,
and perhaps a value behind an equals sign; it is found just when the value has no
line feed. Where no value has one, both forms of an environment are found alike.
-/

namespace EnvCensus.Manifest

open Text

variable {here path : String} {options : Options} {s t : Value × Value}
  {item : String} {items : List String} {d : Declaration}

/-! ### Findings of a service -/

/-- The finding of a declaration of a service at a place, counted from one. -/
def serviceFinding (here path : String) (options : Options) (s : Value × Value)
    (e : Declaration × Nat) : Finding where
  name := e.1.name
  source := .docker
  files := [refAt here path s e.2]
  required := (nonEmpty e.1.value).isNone
  defaultValue := nonEmpty e.1.value
  isPublic := Name.isPublic e.1.name options.publicPrefixes

/-- What is noted of the environment files of a service. -/
def fileNotes (s : Value × Value) : List String :=
  (envFiles s.2).map fun v => "env_file: " ++ v.display

theorem findingOf_service {e : Declaration × Nat} (valid : Name.isValid e.1.name = true)
    (line : 1 ≤ e.2) :
    findingOf here path options .docker true (serviceContext s) none e =
      .ok (serviceFinding here path options s e) := by
  rw [findingOf_eq_ok valid line, Bool.true_and]
  rfl

/-- A service is found as it declares, once what has to be written out of it has been. -/
theorem serviceFindings_eq (isMap : s.2.isMap = true) :
    serviceFindings here path options s = (do
      writeOut (writtenService s)
      return annotate (fileNotes s)
        ((placed (declared s)).map (serviceFinding here path options s))) := by
  have each : (placed (declared s)).mapM
      (findingOf here path options .docker true (serviceContext s) none) =
        .ok ((placed (declared s)).map (serviceFinding here path options s)) :=
    mapM_eq_map fun e he => findingOf_service (placed_valid _ e he).1 (placed_valid _ e he).2
  rw [serviceFindings, isMap]
  simp only [declared, serviceContext] at each
  simp only [each]
  rfl

theorem declarations_list (items : List Value) :
    declarations (.list items) = items.filterMap itemDeclaration? := rfl

theorem declarations_map {environment : Value} {entries : List (Value × Value)}
    (h : environment.unrolled = .map entries) :
    declarations environment = entries.map entryDeclaration := by
  rw [declarations, h]

/-- Only a mapping has a field. -/
theorem isMap_of_field {v : Value} {name : String} (h : v.field name ≠ .null) : v.isMap = true := by
  rw [Value.field] at h
  rw [Value.isMap]
  cases shape : v.unrolled with
  | map entries => rfl
  | _ => exact absurd (by rw [shape]) h

/-- What can be written out has no say in whether the rest can. -/
theorem writeOut_append_writable {us vs ws : List Value} (h : ∀ v ∈ vs, v.isWritable = true) :
    writeOut (us ++ (vs ++ ws)) = writeOut (us ++ ws) := by
  induction us with
  | nil =>
    induction vs with
    | nil => rfl
    | cons v vs ih =>
      obtain ⟨first, others⟩ := List.forall_mem_cons.mp h
      rw [List.nil_append, List.cons_append, writeOut, if_pos first]
      exact ih others
  | cons u us ih => rw [List.cons_append, List.cons_append, writeOut, writeOut, ih]

/-- Where the environment can be written out, the name and the environment files decide whether the
service can. -/
theorem writeOut_writtenService
    (h : ∀ v ∈ writtenEnvironment (s.2.field "environment"), v.isWritable = true) :
    writeOut (writtenService s) = writeOut (s.1 :: envFiles s.2) :=
  @writeOut_append_writable [s.1] _ (envFiles s.2) h

/-! ### Items -/

/-- What stands before the first equals sign, and what follows it if there is one. -/
def atSign (cs : List Char) : List Char × Option (List Char) :=
  (cs.takeWhile (· ≠ '='), (cs.dropWhile (· ≠ '=')).tail?)

theorem atSign_sign {cs : List Char} (absent : '=' ∉ cs) (rest : List Char) :
    atSign (cs ++ '=' :: rest) = (cs, some rest) := by
  obtain ⟨front, behind⟩ := takeWhile_ne_append absent rest
  rw [atSign, front, behind]
  rfl

theorem atSign_bare {cs : List Char} (absent : '=' ∉ cs) : atSign cs = (cs, none) := by
  have other : ∀ c ∈ cs, decide (c ≠ '=') = true := by
    intro c hc
    rw [decide_eq_true_eq]
    rintro rfl
    exact absent hc
  obtain ⟨front, behind⟩ := @takeWhile_run cs [] _ other (by simp)
  rw [List.append_nil] at front behind
  rw [atSign, front, behind]
  rfl

/-- What an item says: a name before its first equals sign, or as its whole text, and what follows
the sign. -/
def said? (item : String) : Option Declaration :=
  if Name.Exact (String.ofList (atSign (trim item.toList)).1) then
    some ⟨String.ofList (atSign (trim item.toList)).1,
      (atSign (trim item.toList)).2.map String.ofList⟩
  else none

/-- The value, if there is one, has no line feed. -/
def Declaration.OneLine (d : Declaration) : Prop := ∀ v ∈ d.value, '\n' ∉ v.toList

instance (d : Declaration) : Decidable d.OneLine :=
  inferInstanceAs (Decidable (∀ v ∈ d.value, '\n' ∉ v.toList))

theorem not_mem_of_exact {name : String} (exact : Name.Exact name) : '=' ∉ name.toList :=
  fun sign => absurd (exact.isTail sign) (by decide)

theorem said?_eq_some : said? item = some d ↔ Name.Exact d.name ∧
    (trim item.toList = d.name.toList ∧ d.value = none ∨
      ∃ v, trim item.toList = d.name.toList ++ '=' :: v ∧ d.value = some (String.ofList v)) := by
  unfold said?
  constructor
  · intro h
    split at h
    · rename_i exact
      cases h
      refine ⟨exact, ?_⟩
      rw [String.toList_ofList]
      by_cases sign : '=' ∈ trim item.toList
      · obtain ⟨word, rest, whole, absent⟩ := List.eq_append_cons_of_mem sign
        rw [whole, atSign_sign absent]
        exact Or.inr ⟨rest, rfl, rfl⟩
      · rw [atSign_bare sign]
        exact Or.inl ⟨rfl, rfl⟩
    · cases h
  · rintro ⟨exact, said⟩
    have absent := not_mem_of_exact exact
    rcases said with ⟨whole, value⟩ | ⟨v, whole, value⟩
    · rw [whole, atSign_bare absent, String.ofList_toList, if_pos exact, Option.map_none, ← value]
    · rw [whole, atSign_sign absent, String.ofList_toList, if_pos exact, Option.map_some, ← value]

theorem itemDeclaration?_eq_some : itemDeclaration? (.text item) = some d ↔ Name.Exact d.name ∧
    (trim item.toList = d.name.toList ∧ d.value = none ∨
      ∃ v, trim item.toList = d.name.toList ++ '=' :: v ∧ d.value = some (String.ofList v) ∧
        '\n' ∉ v) := by
  unfold itemDeclaration?
  simp only [Value.display]
  constructor
  · intro h
    split at h
    · rename_i word split
      cases h
      obtain ⟨whole, exact, -⟩ := Name.split_eq_some.mp split
      exact ⟨exact, Or.inl ⟨by simpa using whole, rfl⟩⟩
    · rename_i word rest split
      split at h
      · cases h
      · rename_i feedless
        cases h
        obtain ⟨whole, exact, -⟩ := Name.split_eq_some.mp split
        exact ⟨exact, Or.inr ⟨rest, by simpa using whole, rfl, by simpa using feedless⟩⟩
    · cases h
  · rintro ⟨exact, said⟩
    rw [← String.ofList_toList (s := d.name)] at exact
    rcases said with ⟨whole, value⟩ | ⟨v, whole, value, feedless⟩
    · have split : Name.split (trim item.toList) = some (d.name.toList, []) :=
        Name.split_eq_some.mpr ⟨by simpa using whole, exact, by simp⟩
      rw [split]
      simp only [String.ofList_toList, ← value]
    · have split : Name.split (trim item.toList) = some (d.name.toList, '=' :: v) :=
        Name.split_eq_some.mpr ⟨whole, exact, by simp; decide⟩
      have kept : v.contains '\n' = false := by simpa using feedless
      rw [split]
      simp only [kept, String.ofList_toList, ← value]
      rfl

/-- An item is a declaration just when what it says has no line feed in its value. -/
theorem itemDeclaration?_text (item : String) :
    itemDeclaration? (.text item) = (said? item).filter fun d => d.OneLine := by
  ext d
  rw [itemDeclaration?_eq_some, Option.filter_eq_some_iff, said?_eq_some, decide_eq_true_eq,
    and_assoc]
  refine and_congr_right fun _ => ?_
  constructor
  · rintro (⟨whole, value⟩ | ⟨v, whole, value, feedless⟩)
    · exact ⟨Or.inl ⟨whole, value⟩, by simp [Declaration.OneLine, value]⟩
    · exact ⟨Or.inr ⟨v, whole, value⟩, by simpa [Declaration.OneLine, value] using feedless⟩
  · rintro ⟨⟨whole, value⟩ | ⟨v, whole, value⟩, line⟩
    · exact Or.inl ⟨whole, value⟩
    · exact Or.inr ⟨v, whole, value, by simpa [Declaration.OneLine, value] using line⟩

/-- A list of texts declares what its items say, less the values that have a line feed. -/
theorem declarations_texts (items : List String) :
    declarations (.list (items.map .text)) =
      (items.filterMap said?).filter fun d => d.OneLine := by
  rw [declarations_list, List.filterMap_map, List.filter_filterMap]
  exact List.filterMap_congr fun item _ => itemDeclaration?_text item

/-! ### Lists of texts -/

/-- What a finding says of its variable: the name, whether it is required, and the default. -/
def outline (f : Finding) : String × Bool × Option String := (f.name, f.required, f.defaultValue)

/-- What is to be found for a declaration: without a value it is required, otherwise the value is
the default. -/
def Declaration.outline (d : Declaration) : String × Bool × Option String :=
  (d.name, (nonEmpty d.value).isNone, nonEmpty d.value)

theorem map_outline_annotate (notes : List String) (found : List Finding) :
    (annotate notes found).map outline = found.map outline := by
  cases found with
  | nil => rfl
  | cons f found => rfl

/-- Where all names are valid every declaration has its place. -/
theorem placed_of_valid {ds : List Declaration} (valid : ∀ d ∈ ds, Name.isValid d.name = true) :
    placed ds = ds.mapIdx fun i d => (d, i + 1) := by
  rw [placed, List.filter_eq_self]
  intro e he
  obtain ⟨i, hi, rfl⟩ := List.mem_mapIdx.mp he
  exact valid _ (List.getElem_mem hi)

/-- A service whose declarations have valid names is found as it declares, with one finding for
each, once its name and environment files can be written out. -/
theorem serviceFindings_of_valid {ds : List Declaration} (isMap : s.2.isMap = true)
    (declares : declared s = ds) (valid : ∀ d ∈ ds, Name.isValid d.name = true)
    (written : ∀ v ∈ writtenEnvironment (s.2.field "environment"), v.isWritable = true) :
    serviceFindings here path options s = (do
      writeOut (s.1 :: envFiles s.2)
      return annotate (fileNotes s)
        ((ds.mapIdx fun i d => (d, i + 1)).map (serviceFinding here path options s))) := by
  rw [serviceFindings_eq isMap, writeOut_writtenService written, declares, placed_of_valid valid]

/-- The findings of a service say what it declares, wherever that stands. -/
theorem map_outline_service (notes : List String) (ds : List Declaration) :
    (annotate notes
      ((ds.mapIdx fun i d => (d, i + 1)).map (serviceFinding here path options s))).map outline =
        ds.map Declaration.outline := by
  rw [map_outline_annotate, List.map_map]
  refine List.ext_getElem (by simp) fun i _ _ => ?_
  rw [List.getElem_map, List.getElem_map, List.getElem_mapIdx]
  rfl

/-- In a list of texts, the items that say a name are found one after the other, each as what it
says, except for those with a line feed in the value. So none is lost just when no value has one. -/
theorem items_found_iff (here path : String) (options : Options)
    (environment : s.2.field "environment" = .list (items.map .text)) :
    Ends (Blocked (s.1 :: envFiles s.2))
      (fun found =>
        found.map outline =
          ((items.filterMap said?).filter fun d => d.OneLine).map Declaration.outline ∧
        (found.map outline = (items.filterMap said?).map Declaration.outline ↔
          ∀ item ∈ items, ∀ d ∈ said? item, d.OneLine))
      (serviceFindings here path options s) := by
  have isMap : s.2.isMap = true := isMap_of_field (by rw [environment]; exact Value.noConfusion)
  have declares : declared s = (items.filterMap said?).filter fun d => d.OneLine := by
    rw [declared, environment, declarations_texts]
  have valid : ∀ d ∈ (items.filterMap said?).filter fun d => d.OneLine,
      Name.isValid d.name = true := by
    intro d hd
    obtain ⟨item, -, said⟩ := List.mem_filterMap.mp (List.mem_of_mem_filter hd)
    exact (said?_eq_some.mp said).1.isValid
  have written : ∀ v ∈ writtenEnvironment (s.2.field "environment"), v.isWritable = true := by
    rw [environment]
    exact List.forall_mem_map.mpr fun item _ => rfl
  rw [serviceFindings_of_valid isMap declares valid written]
  refine (writeOut_ends _).bind fun _ _ => .ok ?_
  rw [map_outline_service]
  refine ⟨rfl, ?_⟩
  constructor
  · intro same
    have all := congrArg List.length same
    rw [List.length_map, List.length_map, List.length_filter_eq_length_iff] at all
    intro item hitem d said
    simpa using all d (List.mem_filterMap.mpr ⟨item, hitem, said⟩)
  · intro all
    have kept : ((items.filterMap said?).filter fun d => d.OneLine) = items.filterMap said? := by
      rw [List.filter_eq_self]
      intro d hd
      obtain ⟨item, hitem, said⟩ := List.mem_filterMap.mp hd
      exact decide_eq_true (all item hitem d said)
    rw [kept]

/-- A service whose environment is a list of texts. -/
def listingService (items : List String) : Value × Value :=
  (.text "web", .map [(.text "environment", .list (items.map .text))])

/-- Four items that say a name, one of them with an equals sign in its value, and one that says
none. -/
def webItems : List String := ["NODE_ENV=production", " API_KEY ", "EMPTY=", "9LIVES=1", "URL=?a=b"]

/-- Every item that says a name is found. -/
theorem webItems_found :
    (listingService webItems).2.field "environment" = .list (webItems.map .text) ∧
    ∃ found, serviceFindings "/" "/compose.yaml" {} (listingService webItems) = .ok found ∧
      found.map outline = [("NODE_ENV", false, some "production"), ("API_KEY", true, none),
        ("EMPTY", true, none), ("URL", false, some "?a=b")] := by
  have environment : (listingService webItems).2.field "environment" =
      .list (webItems.map .text) := rfl
  have calm : ∀ item ∈ webItems, ∀ d ∈ said? item, d.OneLine := by decide +kernel
  have said : (webItems.filterMap said?).map Declaration.outline =
      [("NODE_ENV", false, some "production"), ("API_KEY", true, none), ("EMPTY", true, none),
        ("URL", false, some "?a=b")] := by decide +kernel
  have ends := items_found_iff "/" "/compose.yaml" {} environment
  obtain ⟨found, read⟩ : ∃ found,
      serviceFindings "/" "/compose.yaml" {} (listingService webItems) = .ok found := ⟨_, rfl⟩
  exact ⟨environment, found, read, ((Ends.result ends read).2.mpr calm).trans said⟩

/-- A certificate of two lines is lost with its variable. -/
theorem certificate_dropped :
    said? "CERT=a\nb" = some ⟨"CERT", some "a\nb"⟩ ∧
    ∃ found, serviceFindings "/" "/compose.yaml" {} (listingService ["CERT=a\nb", "TOKEN"]) =
        .ok found ∧
      found.map outline = [("TOKEN", true, none)] := by
  refine ⟨by decide +kernel, _, rfl, ?_⟩
  decide +kernel

/-! ### Lists and mappings -/

/-- The item of a list for a declaration. -/
def itemOf (d : Declaration) : Value :=
  match d.value with
  | none => .text d.name
  | some value => .text (d.name ++ "=" ++ value)

/-- The entry of a mapping for a declaration. -/
def entryOf (d : Declaration) : Value × Value :=
  match d.value with
  | none => (.text d.name, .null)
  | some value => (.text d.name, .text value)

/-- The name is exact, and a value has no line feed and ends in no blank. -/
structure Declaration.Listable (d : Declaration) : Prop where
  exact : Name.Exact d.name
  oneLine : d.OneLine
  ends : ∀ v ∈ d.value, trimRight v.toList = v.toList

instance (d : Declaration) : Decidable d.Listable :=
  decidable_of_iff
    (Name.Exact d.name ∧ d.OneLine ∧ ∀ v ∈ d.value, trimRight v.toList = v.toList)
    ⟨fun ⟨exact, oneLine, ends⟩ => ⟨exact, oneLine, ends⟩,
      fun h => ⟨h.exact, h.oneLine, h.ends⟩⟩

theorem itemDeclaration?_itemOf (h : d.Listable) : itemDeclaration? (itemOf d) = some d := by
  obtain ⟨name, value⟩ := d
  cases value with
  | none =>
    have whole : trim name.toList = name.toList :=
      trim_of_no_blank fun c hc => Name.isBlank_of_isTail (h.exact.isTail hc)
    exact itemDeclaration?_eq_some.mpr ⟨h.exact, Or.inl ⟨whole, rfl⟩⟩
  | some value =>
    have whole : trim (name ++ "=" ++ value).toList = name.toList ++ '=' :: value.toList := by
      have trimmed := Dotenv.trim_binding h.exact value.toList
      rw [h.ends value rfl] at trimmed
      simpa using trimmed
    refine itemDeclaration?_eq_some.mpr
      ⟨h.exact, Or.inr ⟨value.toList, whole, ?_, h.oneLine value rfl⟩⟩
    rw [String.ofList_toList]

theorem entryDeclaration_entryOf (d : Declaration) : entryDeclaration (entryOf d) = d := by
  obtain ⟨name, value⟩ := d
  cases value with
  | none => rfl
  | some value => rfl

theorem declarations_items {ds : List Declaration} (h : ∀ d ∈ ds, d.Listable) :
    declarations (.list (ds.map itemOf)) = ds := by
  rw [declarations_list, List.filterMap_map]
  refine (List.filterMap_congr fun d hd => ?_).trans List.filterMap_some
  exact itemDeclaration?_itemOf (h d hd)

theorem declarations_entries (ds : List Declaration) :
    declarations (.map (ds.map entryOf)) = ds := by
  rw [declarations_map rfl, List.map_map]
  refine (List.map_congr_left fun d _ => ?_).trans (List.map_id ds)
  exact entryDeclaration_entryOf d

theorem itemOf_writable (d : Declaration) : (itemOf d).isWritable = true := by
  unfold itemOf
  split
  · rfl
  · rfl

theorem entryOf_writable (d : Declaration) :
    ∀ v ∈ (entryOf d).1 :: writtenValue (entryOf d).2, v.isWritable = true := by
  unfold entryOf
  split
  · exact List.forall_mem_singleton.mpr rfl
  · exact List.forall_mem_singleton.mpr rfl

/-- Two services of one name with the same environment files, one with its declarations in a list
and the other with them in a mapping, are found alike: each declaration at its place, with the name
of the service. -/
theorem list_found_as_mapping (here path : String) (options : Options) {ds : List Declaration}
    (listable : ∀ d ∈ ds, d.Listable) (name : s.1 = t.1)
    (files : s.2.field "env_file" = t.2.field "env_file")
    (listed : s.2.field "environment" = .list (ds.map itemOf))
    (mapped : t.2.field "environment" = .map (ds.map entryOf)) :
    serviceFindings here path options s = serviceFindings here path options t ∧
      serviceFindings here path options t = (do
        writeOut (t.1 :: envFiles t.2)
        return annotate (fileNotes t)
          ((ds.mapIdx fun i d => (d, i + 1)).map (serviceFinding here path options t))) := by
  have valid : ∀ d ∈ ds, Name.isValid d.name = true := fun d hd => (listable d hd).exact.isValid
  have asList := @serviceFindings_of_valid here path options s ds
    (isMap_of_field (by rw [listed]; exact Value.noConfusion))
    (by rw [declared, listed, declarations_items listable]) valid
    (by
      rw [listed]
      exact List.forall_mem_map.mpr fun d _ => itemOf_writable d)
  have asMapping := @serviceFindings_of_valid here path options t ds
    (isMap_of_field (by rw [mapped]; exact Value.noConfusion))
    (by rw [declared, mapped, declarations_entries]) valid
    (by
      rw [mapped]
      refine List.forall_mem_flatMap.mpr (List.forall_mem_map.mpr fun d _ => ?_)
      exact entryOf_writable d)
  refine ⟨?_, asMapping⟩
  have sameFiles : envFiles s.2 = envFiles t.2 := by rw [envFiles, envFiles, files]
  have sameFinding : serviceFinding here path options s = serviceFinding here path options t := by
    funext e
    rw [serviceFinding, serviceFinding, refAt, refAt, serviceContext, serviceContext, name]
  rw [asList, asMapping, fileNotes, fileNotes, sameFiles, sameFinding, name]

/-- Declarations with a value, without one, with an empty one and with a blank and a sign in it. -/
def webDeclarations : List Declaration :=
  [⟨"NODE_ENV", some "production"⟩, ⟨"API_KEY", none⟩, ⟨"EMPTY", some ""⟩, ⟨"URL", some " ?a=b"⟩]

/-- A service with environment files and this environment. -/
def webService (environment : Value) : Value × Value :=
  (.text "web", .map [(.text "env_file", .text ".env.web"), (.text "environment", environment)])

theorem webDeclarations_alike :
    (∀ d ∈ webDeclarations, d.Listable) ∧
    serviceFindings "/" "/compose.yaml" {} (webService (.list (webDeclarations.map itemOf))) =
      serviceFindings "/" "/compose.yaml" {} (webService (.map (webDeclarations.map entryOf))) := by
  have listable : ∀ d ∈ webDeclarations, d.Listable := by decide +kernel
  refine ⟨listable, (list_found_as_mapping "/" "/compose.yaml" {} listable ?_ ?_ ?_ ?_).1⟩
  · rfl
  · rfl
  · rfl
  · rfl

end EnvCensus.Manifest
