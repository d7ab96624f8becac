import EnvCensus.Proofs.Manifest.Items
import EnvCensus.Proofs.Value

/-!
# Environment files of services

The services of a file are found one after the other, each as it is found alone.
What a service says of its environment files is noted on its first finding, one
note for each file, and changes nothing else as long as its environment stays what
it is; only in a service that is its own environment it does not. But a file has to
be written out to be noted: one that cannot be ends everything.
-/

namespace EnvCensus.Manifest

variable {here path : String} {options : Options} {s : Value × Value} {name v v' : Value}
  {services before after : List (Value × Value)}

/-! ### What a service gives -/

/-- What is found in a service that can be written out. -/
def serviceFound (here path : String) (options : Options) (s : Value × Value) : List Finding :=
  annotate (fileNotes s) ((placed (declared s)).map (serviceFinding here path options s))

/-- What is written out of a service, if it is one. -/
def writtenIfService (s : Value × Value) : List Value := if s.2.isMap then writtenService s else []

theorem serviceFindings_eq_ok (h : ∀ v ∈ writtenIfService s, v.isWritable = true) :
    serviceFindings here path options s = .ok (serviceFound here path options s) := by
  cases isMap : s.2.isMap with
  | false =>
    rw [serviceFindings, serviceFound, isMap, declared_of_not_isMap isMap]
    rfl
  | true =>
    rw [writtenIfService, if_pos isMap] at h
    rw [serviceFindings_eq isMap, writeOut_eq_ok h]
    rfl

/-- Services are found just when all that has to be written out of them can be, each as it is. -/
theorem compose_found_iff (here path : String) (options : Options)
    (services : List (Value × Value)) :
    findings here path options (.compose services) =
        .ok (services.flatMap (serviceFound here path options)) ↔
      ∀ v ∈ services.flatMap writtenIfService, v.isWritable = true := by
  constructor
  · intro read
    exact (Ends.result (findings_writes here path options (.compose services)) read).1
  · intro h
    have each : services.mapM (serviceFindings here path options) =
        .ok (services.map (serviceFound here path options)) :=
      mapM_eq_map fun s hs => serviceFindings_eq_ok fun v hv =>
        h v (List.mem_flatMap.mpr ⟨s, hs, hv⟩)
    rw [findings, each, List.flatMap_def]
    rfl

/-- One service alone. -/
theorem findings_single_service :
    findings here path options (.compose [s]) = serviceFindings here path options s := by
  rw [findings, List.mapM_cons, List.mapM_nil]
  cases serviceFindings here path options s with
  | error e => rfl
  | ok found => simp [bind, Except.bind, pure, Except.pure]

/-! ### Other environment files -/

/-- The environments of two services declare the same, and the same is written out of them. -/
structure SameEnvironment (v v' : Value) : Prop where
  declares : declarations (v'.field "environment") = declarations (v.field "environment")
  written :
    writtenEnvironment (v'.field "environment") = writtenEnvironment (v.field "environment")

/-- A service with another value for its environment files, or with none. -/
def withEnvFile (files : Option Value) (fields : List (Value × Value)) : Value :=
  .map (Value.setField "env_file" files fields)

/-- The findings with these notes on the first of them, in place of its own. -/
def renote (notes : List String) : List Finding → List Finding
  | [] => []
  | f :: rest => { f with notes } :: rest

theorem sameEnvironment_withEnvFile (files : Option Value) (fields : List (Value × Value)) :
    SameEnvironment (.map fields) (withEnvFile files fields) := by
  have environment : (withEnvFile files fields).field "environment" =
      (Value.map fields).field "environment" := by
    rw [withEnvFile, Value.field_setField, if_neg (by decide)]
  exact ⟨by rw [environment], by rw [environment]⟩

theorem envFiles_withEnvFile (files : Option Value) (fields : List (Value × Value)) :
    envFiles (withEnvFile files fields) = (references (files.getD .null)).map envFilePath := by
  rw [withEnvFile, envFiles, Value.field_setField, if_pos rfl]

/-- Services of one name with one environment differ in what is noted of their files. -/
theorem serviceFound_eq_renote (same : SameEnvironment v v') :
    serviceFound here path options (name, v') =
      renote (fileNotes (name, v')) (serviceFound here path options (name, v)) := by
  have declares : declared (name, v') = declared (name, v) := same.declares
  have finding : serviceFinding here path options (name, v') =
      serviceFinding here path options (name, v) := rfl
  rw [serviceFound, serviceFound, declares, finding]
  cases placed (declared (name, v)) with
  | nil => rfl
  | cons e rest => rfl

/-- A service in place of another one: its first finding has other notes. -/
theorem found_eq_renote (same : SameEnvironment v v') (before after : List (Value × Value)) :
    (before ++ (name, v') :: after).flatMap (serviceFound here path options) =
      before.flatMap (serviceFound here path options) ++
        renote (fileNotes (name, v')) (serviceFound here path options (name, v)) ++
          after.flatMap (serviceFound here path options) := by
  rw [List.flatMap_append, List.flatMap_cons, serviceFound_eq_renote same, List.append_assoc]

theorem writtenIfService_eq (isMap : v.isMap = true) : writtenIfService (name, v) =
    (name :: writtenEnvironment (v.field "environment")) ++ envFiles v := by
  rw [writtenIfService, if_pos isMap]
  rfl

/-- Where all was written out, all still is just when the other environment files can be. -/
theorem written_iff (isMap : v.isMap = true) (isMap' : v'.isMap = true)
    (same : SameEnvironment v v')
    (h : ∀ w ∈ (before ++ (name, v) :: after).flatMap writtenIfService, w.isWritable = true) :
    (∀ w ∈ (before ++ (name, v') :: after).flatMap writtenIfService, w.isWritable = true) ↔
      ∀ file ∈ envFiles v', file.isWritable = true := by
  rw [List.flatMap_append, List.flatMap_cons, List.forall_mem_append, List.forall_mem_append,
    writtenIfService_eq isMap, List.forall_mem_append] at h
  obtain ⟨front, ⟨kept, -⟩, back⟩ := h
  rw [List.flatMap_append, List.flatMap_cons, List.forall_mem_append, List.forall_mem_append,
    writtenIfService_eq isMap', same.written, List.forall_mem_append]
  constructor
  · rintro ⟨-, ⟨-, files⟩, -⟩
    exact files
  · intro files
    exact ⟨front, ⟨kept, files⟩, back⟩

/-- With the service `v'` in place of `v` among others, the first finding of the service has a note
for each environment file of `v'` in place of the notes that were there, and nothing else changes,
just when each of these files can be written out. -/
def OnlyAnnotates (here path : String) (options : Options) (before after : List (Value × Value))
    (name v v' : Value) : Prop :=
  Ends (Blocked (written (.compose (before ++ (name, v) :: after))))
    (fun found => ∃ front own back,
      findings here path options (.compose before) = .ok front ∧
      findings here path options (.compose [(name, v)]) = .ok own ∧
      findings here path options (.compose after) = .ok back ∧
      found = front ++ own ++ back ∧
      (findings here path options (.compose (before ++ (name, v') :: after)) =
          .ok (front ++ renote ((envFiles v').map fun file => "env_file: " ++ file.display) own ++
            back) ↔
        ∀ file ∈ envFiles v', file.isWritable = true))
    (findings here path options (.compose (before ++ (name, v) :: after)))

theorem onlyAnnotates (isMap : v.isMap = true) (isMap' : v'.isMap = true)
    (same : SameEnvironment v v') : OnlyAnnotates here path options before after name v v' := by
  have ends := findings_writes here path options (.compose (before ++ (name, v) :: after))
  unfold OnlyAnnotates
  cases read : findings here path options (.compose (before ++ (name, v) :: after)) with
  | error e => exact .error (Ends.failure ends read)
  | ok found =>
    have all : ∀ w ∈ (before ++ (name, v) :: after).flatMap writtenIfService,
        w.isWritable = true := (Ends.result ends read).1
    have whole := (compose_found_iff here path options _).mpr all
    rw [read] at whole
    cases whole
    have changed := written_iff isMap isMap' same all
    rw [List.flatMap_append, List.flatMap_cons, List.forall_mem_append,
      List.forall_mem_append] at all
    obtain ⟨front, own, back⟩ := all
    refine .ok ⟨_, _, _, (compose_found_iff here path options before).mpr front,
      findings_single_service.trans (serviceFindings_eq_ok own),
      (compose_found_iff here path options after).mpr back, ?_, ?_⟩
    · rw [List.flatMap_append, List.flatMap_cons, List.append_assoc]
    · rw [← changed, ← compose_found_iff, found_eq_renote same]
      rfl

/-- The environment files of a service only annotate. The services of a file are found one after the
other, each as it is alone, and what is no mapping gives nothing. A service that gets other
environment files, or loses them, has other notes, and nothing else changes, just when each of the
files can be written out; so it is with any two services that have one environment. -/
theorem envFile_annotates_iff (here path : String) (options : Options)
    (before after : List (Value × Value)) (name : Value) :
    (∀ services, findings here path options (.compose services) = (do
      return (← services.mapM fun s => findings here path options (.compose [s])).flatten)) ∧
    (∀ s : Value × Value, s.2.isMap = false → findings here path options (.compose [s]) = .ok []) ∧
    (∀ fields files,
      OnlyAnnotates here path options before after name (.map fields) (withEnvFile files fields) ∧
        envFiles (withEnvFile files fields) = (references (files.getD .null)).map envFilePath) ∧
    ∀ v v', v.isMap = true → v'.isMap = true → SameEnvironment v v' →
      OnlyAnnotates here path options before after name v v' := by
  refine ⟨fun services => ?_, fun s other => ?_, fun fields files => ⟨?_, ?_⟩, fun v v' => ?_⟩
  · simp only [findings_single_service]
    rfl
  · rw [findings_single_service, serviceFindings, other]
    rfl
  · exact onlyAnnotates rfl rfl (sameEnvironment_withEnvFile files fields)
  · exact envFiles_withEnvFile files fields
  · exact onlyAnnotates

/-- The fields of a service with one environment file and two variables. -/
def webFields : List (Value × Value) :=
  [(.text "env_file", .text ".env"),
    (.text "environment", .map [(.text "PORT", .int 80), (.text "KEY", .null)])]

/-- Two environment files, the first one by its path. -/
def webFiles : Option Value :=
  some (.list [.map [(.text "path", .text "./web.env"), (.text "required", .bool false)],
    .text ".env.web"])

/-- The fields of a service with one variable. -/
def tokenFields : List (Value × Value) := [(.text "environment", .list [.text "TOKEN"])]

/-- A service with one variable that is its own environment file. -/
def selfFiled : Value :=
  .knot ⟨1, 7, false⟩ (.map (tokenFields ++ [(.text "env_file", .loop ⟨1, 7, false⟩)]))

/-- Between another service and what is none, a service gets two environment files in place of
one; and one gets itself, a mapping without a path. -/
theorem webFields_annotated :
    (Value.text "x-cache").isMap = false ∧
    (∃ found, findings "/" "/compose.yaml" {} (.compose ([tokenService "db"] ++
        (.text "web", .map webFields) :: [(.text "cache", .text "x-cache")])) = .ok found ∧
      found.map (·.notes) = [[], ["env_file: .env"], []] ∧
      ∃ found', findings "/" "/compose.yaml" {} (.compose ([tokenService "db"] ++
        (.text "web", withEnvFile webFiles webFields) :: [(.text "cache", .text "x-cache")])) =
          .ok found' ∧
        found'.map (·.notes) = [[], ["env_file: ./web.env", "env_file: .env.web"], []]) ∧
    selfFiled.isMap = true ∧ SameEnvironment (.map tokenFields) selfFiled ∧
    ∃ found, findings "/" "/compose.yaml" {} (.compose [(.text "web", selfFiled)]) = .ok found ∧
      found.map (·.notes) = [["env_file: "]] := by
  obtain ⟨-, none, other, -⟩ := envFile_annotates_iff "/" "/compose.yaml" {} [tokenService "db"]
    [(.text "cache", .text "x-cache")] (.text "web")
  obtain ⟨-, -, -, any⟩ := envFile_annotates_iff "/" "/compose.yaml" {} [] [] (.text "web")
  refine ⟨rfl, ?_, rfl, ⟨rfl, rfl⟩, ?_⟩
  · obtain ⟨found, read⟩ : ∃ found, findings "/" "/compose.yaml" {} (.compose ([tokenService "db"] ++
        (.text "web", .map webFields) :: [(.text "cache", .text "x-cache")])) = .ok found := ⟨_, rfl⟩
    obtain ⟨front, own, back, hfront, hown, hback, whole, changed⟩ :=
      Ends.result (other webFields webFiles).1 read
    have short : ∀ file ∈ envFiles (withEnvFile webFiles webFields), file.isWritable = true := by
      decide +kernel
    rw [none (.text "cache", .text "x-cache") rfl] at hback
    cases hfront
    cases hown
    cases hback
    refine ⟨found, read, ?_, _, changed.mpr short, by decide +kernel⟩
    rw [whole]
    decide +kernel
  · obtain ⟨found, read⟩ : ∃ found, findings "/" "/compose.yaml" {} (.compose ([] ++
        (.text "web", .map tokenFields) :: [])) = .ok found := ⟨_, rfl⟩
    obtain ⟨front, own, back, hfront, hown, hback, -, changed⟩ :=
      Ends.result (any (.map tokenFields) selfFiled rfl rfl ⟨rfl, rfl⟩) read
    cases hfront
    cases hown
    cases hback
    exact ⟨_, changed.mpr (by decide +kernel), by decide +kernel⟩

/-- A service that is its own environment. -/
def selfDeclared (fields : List (Value × Value)) : Value :=
  .knot ⟨1, 7, false⟩ (.map ((.text "environment", .loop ⟨1, 7, false⟩) :: fields))

/-- The declaration of a token, and an environment file whose name is an integer with too many
digits: with the file, nothing is found. And a service that is its own environment declares its
environment file. -/
theorem longEnvFile_ends :
    findings "/" "/compose.yaml" {} (.compose [tokenService "web"]) =
      .ok [{ name := "TOKEN"
             source := .docker
             files := [⟨"/compose.yaml", 1, 1, some "Service: web", none⟩] }] ∧
    (∃ text, findings "/" "/compose.yaml" {} (.compose
        [(.text "web", withEnvFile (some (.list [hexadecimal 100])) tokenFields)]) =
      .error (.scalar (.tooManyDigits text))) ∧
    declarations ((selfDeclared []).field "environment") = [⟨"environment", none⟩] ∧
    declarations ((selfDeclared [(.text "env_file", .text ".env")]).field "environment") =
      [⟨"environment", none⟩, ⟨"env_file", some ".env"⟩] := by
  have own : hexadecimal 100 ∈ writtenIfService
      (.text "web", withEnvFile (some (.list [hexadecimal 100])) tokenFields) := by
    rw [writtenIfService_eq rfl, envFiles_withEnvFile]
    exact List.mem_append_right _ List.mem_cons_self
  have held : hexadecimal 100 ∈ written (.compose
      [(.text "web", withEnvFile (some (.list [hexadecimal 100])) tokenFields)]) :=
    List.mem_flatMap.mpr ⟨_, List.mem_singleton_self _, own⟩
  refine ⟨rfl, Writes.fails (findings_writes "/" "/compose.yaml" {} _) held ?_, by decide +kernel,
    by decide +kernel⟩
  exact hexadecimal_isWritable (by decide)

end EnvCensus.Manifest
