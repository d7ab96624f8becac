import EnvCensus.Dotenv.Findings
import EnvCensus.Proofs.Dotenv.Grammar
import EnvCensus.Proofs.Except
import EnvCensus.Proofs.Finding

/-!
# Declaration files

Every entry of a declaration file has an exact name and a line from one on, so
every entry has a finding.
-/

namespace EnvCensus.Dotenv

theorem parseLine_named {line : List Char} {number : Nat} {e : Entry}
    (h : parseLine line number = some e) : Name.Exact e.name ∧ e.line = number := by
  obtain ⟨name, rest, comment, declares, rfl⟩ := parseLine_eq_some.mp h
  exact ⟨declares.exact, rfl⟩

/-- An entry is what its line declares. -/
theorem mem_parseLines {n : Nat} {ls : List (List Char)} {e : Entry} (h : e ∈ parseLines n ls) :
    ∃ k line, ls[k]? = some line ∧ parseLine line (n + k) = some e := by
  induction ls generalizing n with
  | nil => cases h
  | cons l ls ih =>
    have later (h : e ∈ parseLines (n + 1) ls) :
        ∃ k line, (l :: ls)[k]? = some line ∧ parseLine line (n + k) = some e := by
      obtain ⟨k, line, at_k, parsed⟩ := ih h
      exact ⟨k + 1, line, at_k, by rwa [Nat.add_right_comm] at parsed⟩
    rw [parseLines] at h
    split at h
    · rename_i first parsed
      rcases List.mem_cons.mp h with rfl | h
      · exact ⟨0, l, rfl, parsed⟩
      · exact later h
    · exact later h

/-- Entries have exact names, and their lines are counted from the number of the first line on. -/
theorem parseLines_named {n : Nat} {ls : List (List Char)} :
    ∀ e ∈ parseLines n ls, Name.Exact e.name ∧ n ≤ e.line := by
  intro e he
  obtain ⟨k, line, -, parsed⟩ := mem_parseLines he
  obtain ⟨exact, number⟩ := parseLine_named parsed
  exact ⟨exact, by omega⟩

theorem findingOf_total (here path : String) (options : Options) {e : Entry}
    (valid : Name.isValid e.name = true) (line : 1 ≤ e.line) :
    ∃ f, findingOf here path options e = .ok f := by
  rw [findingOf, FileRef.make_eq_ok here path _ _ line]
  exact ⟨_, mapError_eq_ok.mpr (Finding.make_eq_ok (by simp) valid)⟩

/-- Reading a declaration file never fails. -/
theorem scan_total (here content path : String) (options : Options) :
    ∃ found, scan here content path options = .ok found := by
  have each : ∀ e ∈ parse content, ∃ f, findingOf here path options e = .ok f ∧ True := by
    intro e he
    have named := parseLines_named e he
    obtain ⟨f, hf⟩ := findingOf_total here path options named.1.isValid named.2
    exact ⟨f, hf, trivial⟩
  obtain ⟨found, h, -⟩ := mapM_forall₂ each
  exact ⟨found, h⟩

/-- Whatever a declaration file declares is a finding with a name and a reference. -/
theorem scan_valid {here content path : String} {options : Options} {found : List Finding}
    (h : scan here content path options = .ok found) : ∀ f ∈ found, f.Valid := by
  refine all_of_mapM h fun e _ f hf => ?_
  obtain ⟨ref, -, hf⟩ := bind_eq_ok.mp hf
  exact Finding.make_valid (mapError_eq_ok.mp hf)

/-- The finding has the name of the entry, and is required just when the entry gives no value. -/
def Records (e : Entry) (f : Finding) : Prop := f.name = e.name ∧ f.required = !e.hasValue

theorem findingOf_records {here path : String} {options : Options} {e : Entry} {f : Finding}
    (h : findingOf here path options e = .ok f) : Records e f := by
  obtain ⟨ref, -, made⟩ := bind_eq_ok.mp h
  obtain ⟨source, rfl⟩ := Finding.make_cases (mapError_eq_ok.mp made)
  exact ⟨rfl, rfl⟩

/-- The findings in a declaration file record its entries, one for each and in their order. -/
theorem scan_records {here content path : String} {options : Options} {found : List Finding}
    (h : scan here content path options = .ok found) :
    List.Forall₂ Records (parse content) found :=
  forall₂_mapM h fun _ _ _ made => findingOf_records made

end EnvCensus.Dotenv
