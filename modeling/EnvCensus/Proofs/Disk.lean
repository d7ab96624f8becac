import EnvCensus.Disk
import EnvCensus.Proofs.Path
import EnvCensus.Proofs.Collation
import Mathlib.Data.List.Nodup

/-!
# Places on a disk

What is put at a place is found there; on the way to it there are folders, and
every place that is neither on the way nor below is left as it was. On a named
disk the names in a folder differ and can stand in a path; on a tidy one the
entries of a folder are sorted as well.
-/

namespace EnvCensus.Disk

theorem mem_of_child? {d e : Disk} {name : String} (h : d.child? name = some e) :
    (name, e) ∈ d.entries := by
  obtain ⟨⟨n, x⟩, found, rfl⟩ := Option.map_eq_some_iff.mp h
  have same : n = name := by simpa using List.find?_some found
  exact same ▸ List.mem_of_find?_eq_some found

theorem child?_eq_none {es : List (String × Disk)} {name : String} :
    (folder es).child? name = none ↔ name ∉ es.map (·.1) := by
  rw [child?, Option.map_eq_none_iff, List.find?_eq_none, List.mem_map, not_exists]
  simp [entries]

theorem child?_of_mem {es : List (String × Disk)} {name : String} {e : Disk}
    (nodup : (es.map (·.1)).Nodup) (h : (name, e) ∈ es) : (folder es).child? name = some e := by
  cases hc : (folder es).child? name with
  | none =>
    exact (child?_eq_none.mp hc (List.mem_map_of_mem h)).elim
  | some x =>
    have hx : (name, x) ∈ es := mem_of_child? hc
    have same := List.inj_on_of_nodup_map nodup hx h rfl
    rw [Prod.mk.injEq] at same
    rw [same.2]

theorem at?_append (d : Disk) (p q : Place) : d.at? (p ++ q) = (d.at? p).bind (·.at? q) := by
  induction p generalizing d with
  | nil => rfl
  | cons name p ih =>
    simp only [List.cons_append, at?]
    cases d.child? name with
    | none => rfl
    | some c => exact ih c

theorem at?_concat (d : Disk) (p : Place) (name : String) :
    d.at? (p ++ [name]) = (d.at? p).bind (·.child? name) := by
  rw [at?_append]
  refine congrArg (Option.bind (d.at? p)) (funext fun e => ?_)
  simp only [at?]
  cases e.child? name <;> rfl

/-- What passes from every folder to its entries passes to all that stands below. -/
theorem at?_inherits {P : Disk → Prop} (inherited : ∀ {es}, P (folder es) → ∀ e ∈ es, P e.2)
    {d e : Disk} {p : Place} (h : P d) (there : d.at? p = some e) : P e := by
  induction p generalizing d with
  | nil =>
    cases there
    exact h
  | cons name p ih =>
    obtain ⟨c, hc, below⟩ := Option.bind_eq_some_iff.mp there
    have mem := mem_of_child? hc
    cases d with
    | folder es => exact ih (inherited h _ mem) below
    | file => cases mem
    | link => cases mem

/-- Nothing lies below a file. -/
theorem file_at? {bytes bytes' : List UInt8} {p : Place}
    (h : (file bytes).at? p = some (file bytes')) : p = [] ∧ bytes' = bytes := by
  cases p with
  | nil =>
    cases h
    exact ⟨rfl, rfl⟩
  | cons name p => cases h

/-- A file below a folder lies at or below one of the entries. -/
theorem folder_at?_file {es : List (String × Disk)} {p : Place} {bytes : List UInt8}
    (h : (folder es).at? p = some (file bytes)) :
    ∃ e ∈ es, ∃ rest, p = e.1 :: rest ∧ e.2.at? rest = some (file bytes) := by
  cases p with
  | nil => cases h
  | cons name rest =>
    obtain ⟨c, hc, below⟩ := Option.bind_eq_some_iff.mp h
    exact ⟨(name, c), mem_of_child? hc, rest, rfl, below⟩

/-- Whoever has something below it is a folder. -/
theorem at?_folder_of_concat {d e : Disk} {p : Place} {name : String}
    (h : d.at? (p ++ [name]) = some e) : ∃ es, d.at? p = some (folder es) := by
  rw [at?_concat] at h
  obtain ⟨x, hx, hc⟩ := Option.bind_eq_some_iff.mp h
  cases x with
  | folder es => exact ⟨es, hx⟩
  | file _ => cases hc
  | link _ => cases hc

theorem blank_at? (p : Place) : (blank.at? p).getD blank = blank := by
  cases p <;> rfl

/-! ### Entering and putting -/

theorem child?_enter (name n : String) (x : Disk) (es : List (String × Disk)) :
    (folder (enter name x es)).child? n = if n = name then some x else (folder es).child? n := by
  induction es with
  | nil =>
    by_cases h : n = name
    · simp [child?, enter, entries, h]
    · simp [child?, enter, entries, h, Ne.symm h]
  | cons e es ih =>
    simp only [child?, entries] at ih ⊢
    rw [enter]
    split
    · rename_i same
      have same : e.1 = name := by simpa using same
      by_cases h : n = name
      · simp [h]
      · have ne : e.1 ≠ n := same.symm ▸ Ne.symm h
        simp [h, Ne.symm h, ne]
    · rename_i other
      have other : e.1 ≠ name := by simpa using other
      split
      · by_cases h : n = name
        · simp [h]
        · simp [h, Ne.symm h]
      · by_cases h : n = name
        · subst h
          simpa [other] using ih
        · by_cases he : e.1 = n
          · simp [he, h]
          · simpa [he, h] using ih

theorem mem_names_enter {name n : String} {x : Disk} {es : List (String × Disk)} :
    n ∈ (enter name x es).map (·.1) ↔ n = name ∨ n ∈ es.map (·.1) := by
  induction es with
  | nil => simp [enter]
  | cons e es ih =>
    rw [enter]
    split
    · rename_i same
      have same : e.1 = name := by simpa using same
      simp [same]
    · split
      · simp
      · rw [List.map_cons, List.mem_cons, ih, List.map_cons, List.mem_cons]
        tauto

theorem enter_enter (name : String) (x y : Disk) (es : List (String × Disk)) :
    enter name x (enter name y es) = enter name x es := by
  induction es with
  | nil => simp [enter]
  | cons e es ih =>
    simp only [enter]
    split
    · simp [enter]
    · rename_i other
      split
      · simp [enter]
      · rename_i after
        rw [enter, if_neg other, if_neg after, ih]

/-- What is put far down is put into what stands on the way. -/
theorem put_append (d x : Disk) (p q : Place) :
    d.put x (p ++ q) = d.put (((d.at? p).getD blank).put x q) p := by
  induction p generalizing d with
  | nil => rfl
  | cons name p ih =>
    simp only [List.cons_append, put, at?, ih]
    cases d.child? name with
    | none => simp only [Option.getD_none, Option.bind_none, blank_at?]
    | some c => rfl

theorem at?_put_self (d x : Disk) (p : Place) : (d.put x p).at? p = some x := by
  induction p generalizing d with
  | nil => rfl
  | cons name p ih =>
    simp only [put, at?, child?_enter, if_true, Option.bind_some]
    exact ih _

theorem put_put (d x y : Disk) (p : Place) : (d.put y p).put x p = d.put x p := by
  induction p generalizing d with
  | nil => rfl
  | cons name p ih =>
    simp only [put, child?_enter, if_true, Option.getD_some, entries, enter_enter, ih]

/-- On the way to what has been put there is a folder with it. -/
theorem at?_put_append (d x : Disk) (p q : Place) :
    (d.put x (p ++ q)).at? p = some (((d.at? p).getD blank).put x q) := by
  rw [put_append, at?_put_self]

theorem put_isFolder (d x : Disk) {p : Place} (h : p ≠ []) : (d.put x p).isFolder = true := by
  cases p with
  | nil => exact absurd rfl h
  | cons name p => rfl

/-- Putting changes no place that is neither on the way nor below. -/
theorem at?_put_elsewhere (d x : Disk) {p w : Place} (hp : ¬ p <+: w) (hw : ¬ w <+: p) :
    (d.put x w).at? p = d.at? p := by
  induction w generalizing d p with
  | nil => exact absurd List.nil_prefix hw
  | cons name w ih =>
    cases p with
    | nil => exact absurd List.nil_prefix hp
    | cons n p =>
      simp only [put, at?, child?_enter]
      split
      · rename_i same
        subst same
        rw [List.cons_prefix_cons] at hp hw
        have here : ((d.child? n).getD blank).at? p = (d.child? n).bind (·.at? p) := by
          cases d.child? n with
          | some c => rfl
          | none =>
            cases p with
            | nil => exact absurd ⟨rfl, List.nil_prefix⟩ hp
            | cons => rfl
        rw [Option.bind_some, ih _ (fun h => hp ⟨rfl, h⟩) (fun h => hw ⟨rfl, h⟩), here]
      · rfl

/-- What stood on the way as a folder or not at all is a folder, with one entry more or another
entry in the place of one. -/
theorem at?_put_concat_append (d x : Disk) (p : Place) (name : String) (q : Place) :
    (d.put x (p ++ name :: q)).at? p = some (folder (enter name
      (((d.at? (p ++ [name])).getD blank).put x q) ((d.at? p).getD blank).entries)) := by
  rw [at?_put_append, at?_concat]
  cases d.at? p with
  | none => rfl
  | some e => rfl

/-! ### Named disks -/

/-- The names in a folder differ, and every name can stand in a path. -/
inductive Named : Disk → Prop
  | file (bytes : List UInt8) : Named (file bytes)
  | link (target : String) : Named (link target)
  | folder {es : List (String × Disk)} (different : (es.map (·.1)).Nodup)
      (proper : ∀ e ∈ es, Path.Proper e.1) (within : ∀ e ∈ es, Named e.2) : Named (folder es)

theorem Named.different {es : List (String × Disk)} (named : Named (Disk.folder es)) :
    (es.map (·.1)).Nodup := by
  cases named with
  | folder different _ _ => exact different

theorem Named.proper {es : List (String × Disk)} (named : Named (Disk.folder es)) :
    ∀ e ∈ es, Path.Proper e.1 := by
  cases named with
  | folder _ proper _ => exact proper

theorem Named.within {es : List (String × Disk)} (named : Named (Disk.folder es)) :
    ∀ e ∈ es, Named e.2 := by
  cases named with
  | folder _ _ within => exact within

theorem Named.tail {e : String × Disk} {es : List (String × Disk)}
    (named : Named (Disk.folder (e :: es))) : Named (Disk.folder es) :=
  .folder (List.nodup_cons.mp named.different).2
    (fun c hc => named.proper c (List.mem_cons_of_mem _ hc))
    fun c hc => named.within c (List.mem_cons_of_mem _ hc)

theorem Named.at? {d e : Disk} {p : Place} (named : Named d) (h : d.at? p = some e) : Named e :=
  at?_inherits Named.within named h

theorem Named.proper_of_at? {d e : Disk} {p : Place} (named : Named d) (h : d.at? p = some e) :
    ∀ name ∈ p, Path.Proper name := by
  induction p generalizing d with
  | nil => simp
  | cons name p ih =>
    obtain ⟨c, hc, he⟩ := Option.bind_eq_some_iff.mp h
    have mem := mem_of_child? hc
    cases d with
    | folder es =>
      intro n hn
      rcases List.mem_cons.mp hn with rfl | hn
      · exact named.proper _ mem
      · exact ih (named.within _ mem) he n hn
    | file => cases mem
    | link => cases mem

theorem Named.child? {es : List (String × Disk)} (named : Named (Disk.folder es)) {name : String}
    {e : Disk} (h : (name, e) ∈ es) : (Disk.folder es).child? name = some e :=
  child?_of_mem named.different h

/-! ### Tidy disks -/

/-- The entries of every folder stand in the strict order of their names, and every name can
stand in a path. -/
inductive Tidy : Disk → Prop
  | file (bytes : List UInt8) : Tidy (file bytes)
  | link (target : String) : Tidy (link target)
  | folder {es : List (String × Disk)} (ordered : es.Pairwise fun a b => a.1.toList < b.1.toList)
      (proper : ∀ e ∈ es, Path.Proper e.1) (within : ∀ e ∈ es, Tidy e.2) : Tidy (folder es)

theorem Tidy.ordered {es : List (String × Disk)} (tidy : Tidy (Disk.folder es)) :
    es.Pairwise fun a b => a.1.toList < b.1.toList := by
  cases tidy with
  | folder ordered _ _ => exact ordered

theorem Tidy.within {es : List (String × Disk)} (tidy : Tidy (Disk.folder es)) :
    ∀ e ∈ es, Tidy e.2 := by
  cases tidy with
  | folder _ _ within => exact within

theorem Tidy.at? {d e : Disk} {p : Place} (tidy : Tidy d) (h : d.at? p = some e) : Tidy e :=
  at?_inherits Tidy.within tidy h

theorem Tidy.nodup {es : List (String × Disk)} (tidy : Tidy (Disk.folder es)) :
    (es.map (·.1)).Nodup := by
  refine List.pairwise_map.mpr (tidy.ordered.imp fun {a b} lt same => ?_)
  rw [same] at lt
  exact lt_irrefl _ lt

/-- A tidy disk is a named one whose names are in order. -/
theorem Tidy.named {d : Disk} (tidy : Tidy d) : Named d := by
  induction tidy with
  | file bytes => exact .file bytes
  | link target => exact .link target
  | folder ordered proper within ih =>
    exact .folder (Tidy.folder ordered proper within).nodup proper ih

theorem Tidy.proper_of_at? {d e : Disk} {p : Place} (tidy : Tidy d) (h : d.at? p = some e) :
    ∀ name ∈ p, Path.Proper name :=
  tidy.named.proper_of_at? h

theorem Tidy.child? {es : List (String × Disk)} (tidy : Tidy (Disk.folder es)) {name : String}
    {e : Disk} (h : (name, e) ∈ es) : (Disk.folder es).child? name = some e :=
  tidy.named.child? h

/-! ### Disks without links -/

/-- No link stands anywhere on the disk. -/
inductive LinkFree : Disk → Prop
  | file (bytes : List UInt8) : LinkFree (file bytes)
  | folder {es : List (String × Disk)} (within : ∀ e ∈ es, LinkFree e.2) : LinkFree (folder es)

theorem LinkFree.within {es : List (String × Disk)} (free : LinkFree (Disk.folder es)) :
    ∀ e ∈ es, LinkFree e.2 := by
  cases free with
  | folder within => exact within

theorem LinkFree.at? {d e : Disk} {p : Place} (free : LinkFree d) (h : d.at? p = some e) :
    LinkFree e :=
  at?_inherits LinkFree.within free h

theorem LinkFree.no_link {d : Disk} (free : LinkFree d) (p : Place) (t : String) :
    d.at? p ≠ some (link t) := by
  intro h
  cases free.at? h

end EnvCensus.Disk
