import EnvCensus.Manifest.Findings
import EnvCensus.Proofs.Except
import EnvCensus.Proofs.Finding

/-!
# Deployment manifests

A declaration that has a place has a valid name, so every one of them is a
finding. Reading a manifest fails in two ways only: its document cannot be
read, or something in it that has to be written out cannot be.
-/

namespace EnvCensus.Manifest

variable (here path : String) (options : Options)

theorem placed_valid (ds : List Declaration) :
    ∀ e ∈ placed ds, Name.isValid e.1.name = true ∧ 1 ≤ e.2 := by
  intro e he
  obtain ⟨hmem, valid⟩ := List.mem_filter.mp he
  obtain ⟨i, hi, rfl⟩ := List.mem_mapIdx.mp hmem
  exact ⟨valid, Nat.le_add_left 1 i⟩

variable {here path options} in
/-- A declaration with a valid name and a place is a finding. -/
theorem findingOf_eq_ok {source : Source} {required : Bool} {context : String}
    {hint : Option String} {d : Declaration × Nat} (name : Name.isValid d.1.name = true)
    (line : 1 ≤ d.2) : findingOf here path options source required context hint d = .ok
      { name := d.1.name
        source := source
        files := [⟨Path.absolute here path, d.2, 1, some context, hint⟩]
        required := required && (nonEmpty d.1.value).isNone
        defaultValue := nonEmpty d.1.value
        isPublic := Name.isPublic d.1.name options.publicPrefixes } := by
  rw [findingOf, FileRef.make_eq_ok here path _ _ line]
  exact mapError_eq_ok.mpr (Finding.make_eq_ok (List.cons_ne_nil _ _) name)

theorem findingOf_ends (source : Source) (required : Bool) (context : String)
    (hint : Option String) {d : Declaration × Nat} (name : Name.isValid d.1.name = true)
    (line : 1 ≤ d.2) : Ends (fun _ => False) Finding.Valid
      (findingOf here path options source required context hint d) := by
  rw [findingOf_eq_ok name line]
  exact .ok ⟨List.cons_ne_nil _ _, name⟩

/-- The declarations that have a place are findings. -/
theorem mapM_findingOf_ends (source : Source) (required : Bool) (context : String)
    (hint : Option String) (ds : List Declaration) :
    Ends (fun _ => False) (fun found => ∀ f ∈ found, f.Valid)
      ((placed ds).mapM (findingOf here path options source required context hint)) :=
  Ends.mapM fun d hd => findingOf_ends here path options source required context hint
    (placed_valid ds d hd).1 (placed_valid ds d hd).2

theorem annotate_valid {notes : List String} {found : List Finding}
    (valid : ∀ f ∈ found, f.Valid) : ∀ f ∈ annotate notes found, f.Valid := by
  cases found with
  | nil => simp [annotate]
  | cons f rest =>
    rw [List.forall_mem_cons] at valid
    exact List.forall_mem_cons.mpr ⟨valid.1, valid.2⟩

/-! ### What cannot be written out -/

/-- One of the values is, or holds, an integer with too many digits to be written out. -/
def Blocked (vs : List Value) (e : Failure) : Prop :=
  (∃ text, e = .scalar (.tooManyDigits text)) ∧ ∃ v ∈ vs, v.isWritable = false

theorem Blocked.mono {vs ws : List Value} (sub : vs ⊆ ws) {e : Failure} (h : Blocked vs e) :
    Blocked ws e :=
  ⟨h.1, h.2.imp fun _ hv => ⟨sub hv.1, hv.2⟩⟩

theorem writeOut_ends (vs : List Value) :
    Ends (Blocked vs) (fun _ => ∀ v ∈ vs, v.isWritable = true) (writeOut vs) := by
  induction vs with
  | nil => exact .ok (by simp)
  | cons v vs ih =>
    rw [writeOut]
    split
    · rename_i hv
      exact ih.imp (fun e => Blocked.mono (List.subset_cons_self v vs))
        fun _ rest => List.forall_mem_cons.mpr ⟨hv, rest⟩
    · rename_i hv
      exact .error ⟨⟨v.display, rfl⟩, v, List.mem_cons_self, by simpa using hv⟩

/-- What can be written out is. -/
theorem writeOut_eq_ok {vs : List Value} (h : ∀ v ∈ vs, v.isWritable = true) :
    writeOut vs = .ok () := by
  induction vs with
  | nil => rfl
  | cons v vs ih =>
    obtain ⟨first, rest⟩ := List.forall_mem_cons.mp h
    rw [writeOut, if_pos first, ih rest]

/-- Thirty-six hexadecimal digits hold more than forty-three decimal ones. -/
theorem pow_ten_le_pow_sixteen {d n : Nat} (h : d ≤ 43 * n) :
    Nat.pow 10 d ≤ Nat.pow 16 (36 * n) :=
  calc Nat.pow 10 d ≤ Nat.pow 10 (43 * n) := Nat.pow_le_pow_right (by decide) h
    _ = Nat.pow (Nat.pow 10 43) n := Nat.pow_mul 10 43 n
    _ ≤ Nat.pow (Nat.pow 16 36) n := Nat.pow_le_pow_left (by decide) n
    _ = Nat.pow 16 (36 * n) := (Nat.pow_mul 16 36 n).symm

/-- The integer of a one and `36 * n` zeros in base sixteen. -/
def hexadecimal (n : Nat) : Value := .int (Int.ofNat (Nat.pow 16 (36 * n)))

theorem hexadecimal_isWritable {n : Nat} (long : Value.mostDigits ≤ 43 * n) :
    (hexadecimal n).isWritable = false := by
  have some : 0 < Value.mostDigits := by decide
  rw [hexadecimal, Value.isWritable, decide_eq_false_iff_not]
  generalize Value.mostDigits = most at long some ⊢
  rw [Nat.length_toDigits_le_iff (by decide) some, Nat.not_lt]
  exact pow_ten_le_pow_sixteen long

/-- The computation writes these values out: it fails just when one of them cannot be, and the
findings it gives have names and references. -/
def Writes (vs : List Value) (x : Except Failure (List Finding)) : Prop :=
  Ends (Blocked vs) (fun found => (∀ v ∈ vs, v.isWritable = true) ∧ ∀ f ∈ found, f.Valid) x

namespace Writes

variable {vs ws : List Value} {x y : Except Failure (List Finding)}

theorem nothing (h : Ends (fun _ => False) (fun found => ∀ f ∈ found, f.Valid) x) : Writes [] x :=
  h.imp (fun _ => False.elim) fun _ valid => ⟨by simp, valid⟩

/-- One value that cannot be written out ends the computation. -/
theorem fails (h : Writes vs x) {v : Value} (held : v ∈ vs) (blocked : v.isWritable = false) :
    ∃ text, x = .error (.scalar (.tooManyDigits text)) := by
  cases read : x with
  | error e =>
    obtain ⟨⟨text, rfl⟩, -⟩ := Ends.failure h read
    exact ⟨text, rfl⟩
  | ok found =>
    rw [(Ends.result h read).1 v held] at blocked
    cases blocked

theorem none : Writes [] (pure []) := Ends.ok (by simp)

theorem after_writeOut (h : Writes ws x) : Writes (vs ++ ws) (writeOut vs >>= fun _ => x) := by
  have first : Ends (Blocked (vs ++ ws)) (fun _ => ∀ v ∈ vs, v.isWritable = true) (writeOut vs) :=
    (writeOut_ends vs).imp (fun _ => Blocked.mono (List.subset_append_left vs ws)) fun _ => id
  refine first.bind fun _ written => ?_
  exact Ends.imp h (fun _ => Blocked.mono (List.subset_append_right vs ws))
    fun _ rest => ⟨List.forall_mem_append.mpr ⟨written, rest.1⟩, rest.2⟩

theorem append (hx : Writes vs x) (hy : Writes ws y) :
    Writes (vs ++ ws) (do let found ← x; return found ++ (← y)) := by
  have first := Ends.imp hx (fun _ => Blocked.mono (List.subset_append_left vs ws)) fun _ => id
  refine first.bind fun found before => ?_
  have second := Ends.imp hy (fun _ => Blocked.mono (List.subset_append_right vs ws)) fun _ => id
  refine second.bind fun more after => .ok ⟨?_, ?_⟩
  · exact List.forall_mem_append.mpr ⟨before.1, after.1⟩
  · exact List.forall_mem_append.mpr ⟨before.2, after.2⟩

theorem flatMap {α : Type} {written : α → List Value} {g : α → Except Failure (List Finding)}
    {xs : List α} (each : ∀ a ∈ xs, Writes (written a) (g a)) :
    Writes (xs.flatMap written) (do return (← xs.mapM g).flatten) := by
  induction xs with
  | nil => exact .none
  | cons a xs ih =>
    have rest := ih fun b hb => each b (List.mem_cons_of_mem _ hb)
    have joined := (each a List.mem_cons_self).append rest
    rw [List.flatMap_cons, List.mapM_cons]
    cases first : g a with
    | error e =>
      rw [first] at joined
      exact joined
    | ok found =>
      cases others : xs.mapM g with
      | error e =>
        rw [first, others] at joined
        exact joined
      | ok more =>
        rw [first, others] at joined
        exact joined

theorem append_flatMap {α : Type} {written : α → List Value}
    {g : α → Except Failure (List Finding)} {xs : List α} (hx : Writes vs x)
    (each : ∀ a ∈ xs, Writes (written a) (g a)) :
    Writes (vs ++ xs.flatMap written) (do
      let found ← x
      return found ++ (← xs.mapM g).flatten) := by
  simpa using hx.append (flatMap each)

theorem congr (h : Writes vs x) (e : vs = ws) : Writes ws x := e ▸ h

end Writes

/-! ### What a manifest writes out -/

/-- The name of a step, unless it is empty. -/
def stepName (step : Value) : List Value := [step.field "name"].filter fun v => !v.isEmpty

/-- What is written out of a step. -/
def writtenStep (step : Value) : List Value :=
  stepName step ++ (step.field "env").entriesOf.flatMap writtenEntry

/-- What is written out of a job. -/
def writtenJob (j : Value × Value) : List Value :=
  if j.2.isMap then
    j.1 :: (j.2.field "env").entriesOf.flatMap writtenEntry ++
      (stepsOf j.2).flatMap writtenStep
  else []

/-- What is written out of a manifest. -/
def written : Manifest → List Value
  | compose services => services.flatMap fun s => if s.2.isMap then writtenService s else []
  | workflow env jobs => env.flatMap writtenEntry ++ jobs.flatMap writtenJob
  | unrecognized _ => []

theorem serviceFindings_writes (s : Value × Value) :
    Writes (if s.2.isMap then writtenService s else [])
      (serviceFindings here path options s) := by
  unfold serviceFindings
  cases s.2.isMap with
  | false => exact .none
  | true =>
    have own : Writes [] (do
        let found ← (placed (declarations (s.2.field "environment"))).mapM
          (findingOf here path options .docker true ("Service: " ++ s.1.display) none)
        return annotate ((envFiles s.2).map fun v => "env_file: " ++ v.display) found) :=
      .nothing ((mapM_findingOf_ends here path options _ _ _ _ _).bind fun _ valid =>
        .ok (annotate_valid valid))
    exact own.after_writeOut.congr (List.append_nil _)

theorem blockFindings_writes (context : String) (hint : Option String)
    (env : List (Value × Value)) :
    Writes (env.flatMap writtenEntry) (blockFindings here path options context hint env) :=
  (Writes.nothing (mapM_findingOf_ends here path options _ _ _ _ _)).after_writeOut.congr
    (List.append_nil _)

theorem stepName_eq (step : Value) :
    ((some (step.field "name")).filter fun v => !v.isEmpty).toList = stepName step := by
  cases empty : (step.field "name").isEmpty <;> simp [stepName, empty, Option.filter]

theorem stepFindings_writes (job : String) (n : Nat) (step : Value) :
    Writes (writtenStep step) (stepFindings here path options job n step) := by
  have block := blockFindings_writes here path options s!"Job: {job}, Step: {n}"
    (((some (step.field "name")).filter fun v => !v.isEmpty).map Value.display)
    (step.field "env").entriesOf
  rw [writtenStep, ← stepName_eq]
  exact block.after_writeOut

theorem flatMap_places {α β : Type} (g : α → List β) (xs : List α) :
    (xs.mapIdx fun i x => (i + 1, x)).flatMap (fun e => g e.2) = xs.flatMap g := by
  rw [List.mapIdx_eq_zipIdx_map, List.flatMap_map, ← List.flatMap_map (g := g), List.zipIdx_map_fst]

theorem jobFindings_eq {j : Value × Value} (isMap : j.2.isMap = true) :
    jobFindings here path options j = (do
      writeOut [j.1]
      let own ← blockFindings here path options s!"Job: {j.1.display}" none
        (j.2.field "env").entriesOf
      let found ← ((stepsOf j.2).mapIdx fun i s => (i + 1, s)).mapM fun (n, s) =>
        stepFindings here path options j.1.display n s
      return own ++ found.flatten) := by
  rw [jobFindings, isMap]
  rfl

theorem jobFindings_writes (j : Value × Value) :
    Writes (writtenJob j) (jobFindings here path options j) := by
  cases isMap : j.2.isMap with
  | false =>
    rw [writtenJob, jobFindings, isMap]
    exact .none
  | true =>
    have own := blockFindings_writes here path options s!"Job: {j.1.display}" none
      (j.2.field "env").entriesOf
    have each : ∀ e ∈ (stepsOf j.2).mapIdx fun i s => (i + 1, s), Writes (writtenStep e.2)
        (stepFindings here path options j.1.display e.1 e.2) :=
      fun e _ => stepFindings_writes here path options j.1.display e.1 e.2
    have whole := own.append_flatMap each
    rw [flatMap_places writtenStep] at whole
    rw [jobFindings_eq here path options isMap, writtenJob, if_pos isMap]
    exact (whole.after_writeOut : Writes ([j.1] ++ _) _)

/-- The findings of a manifest are read just when all that it writes out can be. -/
theorem findings_writes (m : Manifest) :
    Writes (written m) (findings here path options m) := by
  cases m with
  | compose services => exact .flatMap fun s _ => serviceFindings_writes here path options s
  | workflow env jobs =>
    exact (blockFindings_writes here path options _ _ _).append_flatMap fun j _ =>
      jobFindings_writes here path options j
  | unrecognized _ => exact .none

/-! ### How reading a manifest ends -/

variable [Parsers]

/-- The document names a value that does not exist, or holds an integer that would have to be
written out and has too many digits. -/
def Faulty (content path : String) : Prop :=
  (∃ fault, Parsers.document content = .error (.scalar fault)) ∨
    ∃ document, Parsers.document content = .ok document ∧
      ∃ v ∈ written (decode path document), v.isWritable = false

/-- A faulty manifest fails by a scalar; every other one gives findings or cannot be parsed. -/
theorem scan_ends (here content path : String) (options : Options) :
    Ends (fun e => (Faulty content path → ∃ fault, e = .scalar fault) ∧
        (¬ Faulty content path → e.isParseFailure = true))
      (fun found => ¬ Faulty content path ∧ ∀ f ∈ found, f.Valid)
      (scan here content path options) := by
  have faulty_ok : ∀ {document}, Parsers.document content = .ok document → (Faulty content path ↔
      ∃ v ∈ written (decode path document), v.isWritable = false) := by
    intro document h
    simp [Faulty, h]
  have faulty_error : ∀ {fault}, Parsers.document content = .error fault → (Faulty content path ↔
      ∃ e, fault = .scalar e) := by
    intro fault h
    simp [Faulty, h]
  unfold scan
  cases loaded : Parsers.document content with
  | error fault =>
    rw [faulty_error loaded]
    cases fault with
    | malformed stage mark => exact .error ⟨by simp, fun _ => rfl⟩
    | scalar fault => exact .error ⟨fun _ => ⟨fault, rfl⟩, by simp⟩
  | ok document =>
    rw [faulty_ok loaded]
    refine (findings_writes here path options (decode path document)).imp (fun e blocked => ?_)
      fun found written => ⟨?_, written.2⟩
    · obtain ⟨⟨text, rfl⟩, held⟩ := blocked
      exact ⟨fun _ => ⟨_, rfl⟩, fun calm => (calm held).elim⟩
    · rintro ⟨v, hv, blocked⟩
      rw [written.1 v hv] at blocked
      cases blocked

end EnvCensus.Manifest
