import EnvCensus.Finding
import EnvCensus.Proofs.Except

/-!
# Checked constructors

When a reference or a finding can be made, and what the made one holds.
-/

namespace EnvCensus

theorem FileRef.make_counted {line column : Nat} (here path : String)
    (context hint : Option String) (hline : 1 ≤ line) (hcolumn : 1 ≤ column) :
    FileRef.make here path line column context hint =
      .ok ⟨Path.absolute here path, line, column, context, hint⟩ := by
  have inRange : ((line : Int) < 1 || (column : Int) < 1) = false := by
    simp
    omega
  rw [FileRef.make, inRange]
  rfl

theorem FileRef.make_eq_ok {line : Nat} (here path : String) (context hint : Option String)
    (h : 1 ≤ line) : FileRef.make here path line 1 context hint =
      .ok ⟨Path.absolute here path, line, 1, context, hint⟩ :=
  FileRef.make_counted here path context hint h (Nat.le_refl 1)

/-- The reference is to a place in the file with the path: lines and columns are counted from
one. -/
structure FileRef.Into (path : String) (r : FileRef) : Prop where
  path : r.path = path
  line : 1 ≤ r.line
  column : 1 ≤ r.column

theorem FileRef.make_into {here path : String} {line column : Int} {context hint : Option String}
    {r : FileRef} (h : FileRef.make here path line column context hint = .ok r) :
    r.Into (Path.absolute here path) := by
  unfold FileRef.make at h
  split at h
  · cases h
  · rename_i inRange
    cases h
    have counted : 1 ≤ line ∧ 1 ≤ column := by simpa using inRange
    exact ⟨rfl, by simp only; omega, by simp only; omega⟩

theorem FileRef.make_counts {here path : String} {line column : Nat} {context hint : Option String}
    {r : FileRef} (h : FileRef.make here path line column context hint = .ok r) :
    r.line = line ∧ r.column = column := by
  unfold FileRef.make at h
  split at h
  · cases h
  · cases h
    exact ⟨rfl, rfl⟩

namespace Finding

variable {name : String} {files : List FileRef} {required isPublic : Bool}
  {default : Option String} {notes : List String}

/-- With a reference and a valid name the constructor succeeds. -/
theorem make_eq_ok {source : Source} (hfiles : files ≠ []) (hname : Name.isValid name = true) :
    make name (.source source) files required default isPublic notes =
      .ok ⟨name, source, files, required, default, isPublic, notes⟩ := by
  have some : files.isEmpty = false := by simpa using hfiles
  simp [make, some, hname]

/-- What is made is what was given. -/
theorem make_cases {origin : Origin} {f : Finding}
    (h : make name origin files required default isPublic notes = .ok f) :
    ∃ source, f = ⟨name, source, files, required, default, isPublic, notes⟩ := by
  unfold make at h
  split at h
  · cases h
  · rename_i source
    split at h
    · cases h
    · split at h
      · cases h
      · cases h
        exact ⟨source, rfl⟩

end Finding

end EnvCensus
