import EnvCensus.Proofs.Disk

/-!
# Where routes lead

A route along real folders leads where its names say, and what a name in a
folder leads to is decided by the folder's entry and by what a link there
stands for. Hence all that is read through a path depends on these two.
-/

namespace EnvCensus.Disk

/-- What is no link can be stepped on. -/
def isLink : Disk → Bool
  | link _ => true
  | _ => false

/-- The bytes of the file that names lead to from a place. -/
def fileFrom? (d : Disk) (links : Nat) (place : Place) (names : List String) :
    Option (List UInt8) :=
  match d.routeFrom links place names with
  | .ok (final, _) =>
    match d.at? final with
    | some (.file bs) => some bs
    | _ => none
  | .error _ => none

/-- The bytes of the file that a link in the folder at a place stands for. -/
def linkedFile? (d : Disk) (links : Nat) (place : Place) (target : String) :
    Option (List UInt8) :=
  d.fileFrom? links (linkStart place target).1 (linkStart place target).2

theorem bytes?_eq (d : Disk) (here : Place) (path : String) :
    d.bytes? here path = d.fileFrom? linkLimit [] (namesFrom here path) := by
  unfold bytes? find? route fileFrom?
  cases d.routeFrom linkLimit [] (namesFrom here path) <;> rfl

theorem isFileAt_eq (d : Disk) (here : Place) (path : String) :
    d.isFileAt here path = (d.bytes? here path).isSome := by
  unfold isFileAt bytes?
  cases d.find? here path with
  | none => rfl
  | some e => cases e <;> rfl

/-! ### Routes along what stands there -/

/-- A name in a folder that is no link is one step. -/
theorem routeFrom_step {d c : Disk} {es : List (String × Disk)} {place : Place} {name : String}
    (links : Nat) (rest : List String) (folder : d.at? place = some (.folder es))
    (climbs : name ≠ "..") (child : (Disk.folder es).child? name = some c)
    (solid : c.isLink = false) :
    d.routeFrom links place (name :: rest) = d.routeFrom links (place ++ [name]) rest := by
  have down : (name == "..") = false := by simpa using climbs
  rw [routeFrom, folder]
  simp only [down, child]
  cases c with
  | link t => cases solid
  | file bs => rfl
  | folder es' => rfl

theorem at?_cons_split {d e : Disk} {place : Place} {name : String} {names : List String}
    (h : d.at? (place ++ name :: names) = some e) :
    ∃ es c, d.at? place = some (folder es) ∧ (folder es).child? name = some c ∧
      c.at? names = some e ∧ d.at? (place ++ [name]) = some c := by
  have first : place ++ name :: names = (place ++ [name]) ++ names := by simp
  rw [first, at?_append] at h
  obtain ⟨c, hc, he⟩ := Option.bind_eq_some_iff.mp h
  obtain ⟨es, hes⟩ := at?_folder_of_concat hc
  have child : (folder es).child? name = some c := by
    rw [at?_concat, hes] at hc
    exact hc
  exact ⟨es, c, hes, child, he, hc⟩

theorem isLink_of_at? {c e : Disk} {names : List String} (h : c.at? names = some e)
    (solid : e.isLink = false) : c.isLink = false := by
  cases names with
  | nil =>
    cases h
    exact solid
  | cons name names =>
    cases c with
    | link t => cases h
    | file bs => rfl
    | folder es => rfl

/-- Names lead along what stands there as long as it is no link. -/
theorem routeFrom_along {d e : Disk} (links : Nat) (place : Place) (names rest : List String)
    (h : d.at? (place ++ names) = some e) (solid : e.isLink = false)
    (climbs : ∀ n ∈ names, n ≠ "..") :
    d.routeFrom links place (names ++ rest) = d.routeFrom links (place ++ names) rest := by
  induction names generalizing place with
  | nil => simp
  | cons name names ih =>
    obtain ⟨es, c, hes, child, below, hc⟩ := at?_cons_split h
    have onward : place ++ name :: names = (place ++ [name]) ++ names := by simp
    rw [List.cons_append, routeFrom_step links _ hes (climbs name List.mem_cons_self) child
      (isLink_of_at? below solid), onward]
    rw [onward] at h
    exact ih _ h fun n hn => climbs n (List.mem_cons_of_mem _ hn)

theorem routeFrom_to {d e : Disk} {p : Place} (links : Nat) (h : d.at? p = some e)
    (solid : e.isLink = false) (climbs : ∀ n ∈ p, n ≠ "..") :
    d.routeFrom links [] p = .ok (p, links) := by
  have along := routeFrom_along links [] p [] h solid climbs
  rw [List.append_nil, List.nil_append] at along
  rw [along, routeFrom]

/-- The text of the place of a file leads to the file. -/
theorem bytes?_pathOf {d : Disk} {place : Place} {bytes : List UInt8}
    (there : d.at? place = some (file bytes)) (proper : ∀ n ∈ place, Path.Proper n)
    (here : Place) : d.bytes? here (pathOf place) = some bytes := by
  have route := routeFrom_to linkLimit there rfl fun n hn => (proper n hn).not_climbing
  rw [bytes?_eq, Path.namesFrom_pathOf proper, fileFrom?, route]
  simp only [there]

/-- A name in a folder that is a link goes on with what the link stands for. -/
theorem routeFrom_link {d : Disk} {es : List (String × Disk)} {place : Place} {name t : String}
    (links : Nat) (rest : List String) (folder : d.at? place = some (.folder es))
    (climbs : name ≠ "..") (child : (Disk.folder es).child? name = some (.link t)) :
    d.routeFrom (links + 1) place (name :: rest) =
      d.routeFrom links (linkStart place t).1 ((linkStart place t).2 ++ rest) := by
  have down : (name == "..") = false := by simpa using climbs
  rw [routeFrom, folder]
  simp only [down, child]
  rfl

/-- A name that is missing in a folder can only be the last one. -/
theorem routeFrom_absent {d : Disk} {es : List (String × Disk)} {place : Place} {name : String}
    (links : Nat) (rest : List String) (folder : d.at? place = some (.folder es))
    (climbs : name ≠ "..") (missing : (Disk.folder es).child? name = none) :
    d.routeFrom links place (name :: rest) =
      if rest.isEmpty then .ok (place ++ [name], links) else .error .missing := by
  have down : (name == "..") = false := by simpa using climbs
  rw [routeFrom, folder]
  simp only [down, missing]
  rfl

/-- Names lead on from a folder only. -/
theorem folder_of_routeFrom {d : Disk} {links left : Nat} {place final : Place} {name : String}
    {rest : List String} (h : d.routeFrom links place (name :: rest) = .ok (final, left)) :
    ∃ es, d.at? place = some (.folder es) := by
  rw [routeFrom] at h
  split at h
  · exact ⟨_, ‹_›⟩
  · cases h

/-- What is a link neither where no link may be followed nor where one may be is none. -/
theorem isLink_eq_false {c : Disk} {links : Nat}
    (noneLeft : ∀ t, links = 0 → c = link t → False)
    (someLeft : ∀ t (n : Nat), links = n.succ → c = link t → False) : c.isLink = false := by
  cases c with
  | link t =>
    cases links with
    | zero => exact (noneLeft t rfl rfl).elim
    | succ n => exact (someLeft t n rfl rfl).elim
  | _ => rfl

/-- A route to a folder goes on from there. -/
theorem routeFrom_append {d : Disk} {es : List (String × Disk)} {links left : Nat}
    {place final : Place} {names : List String} (rest : List String)
    (h : d.routeFrom links place names = .ok (final, left))
    (folder : d.at? final = some (.folder es)) :
    d.routeFrom links place (names ++ rest) = d.routeFrom left final rest := by
  fun_induction routeFrom d links place names with
  | case1 =>
    cases h
    rfl
  | case2 _ _ _ _ _ there climbs ih =>
    rw [List.cons_append, routeFrom, there]
    simp only [climbs, if_true]
    exact ih h
  | case3 => cases h
  | case4 place name more _ there down target links child ih =>
    have climbs : name ≠ ".." := by simpa using down
    rw [List.cons_append, routeFrom_link links _ there climbs child, ← List.append_assoc]
    exact ih h
  | case5 place name more _ there down c links noneLeft someLeft child ih =>
    have climbs : name ≠ ".." := by simpa using down
    have solid := isLink_eq_false noneLeft someLeft
    rw [List.cons_append, routeFrom_step links _ there climbs child solid]
    exact ih h
  | case6 place name _ _ there _ links child =>
    cases h
    rw [at?_concat, there, Option.bind_some, child] at folder
    cases folder
  | case7 => cases h
  | case8 => cases h

/-- Where more links may be followed, a route leads to the same place. -/
theorem routeFrom_more {d : Disk} {links left : Nat} {place final : Place} {names : List String}
    (more : Nat) (h : d.routeFrom links place names = .ok (final, left)) :
    d.routeFrom (links + more) place names = .ok (final, left + more) := by
  fun_induction routeFrom d links place names with
  | case1 =>
    cases h
    rw [routeFrom]
  | case2 _ _ _ _ _ there climbs ih =>
    rw [routeFrom, there]
    simp only [climbs, if_true]
    exact ih h
  | case3 => cases h
  | case4 place name _ _ there down target links child ih =>
    have climbs : name ≠ ".." := by simpa using down
    rw [Nat.succ_add, routeFrom_link _ _ there climbs child]
    exact ih h
  | case5 place name _ _ there down c links noneLeft someLeft child ih =>
    have climbs : name ≠ ".." := by simpa using down
    have solid := isLink_eq_false noneLeft someLeft
    rw [routeFrom_step _ _ there climbs child solid]
    exact ih h
  | case6 place name rest _ there down links child last =>
    cases h
    rw [routeFrom, there]
    simp only [down, child, last, if_true]
    rfl
  | case7 => cases h
  | case8 => cases h

theorem settleFrom_along {d e : Disk} (links : Nat) (place : Place) (names rest : List String)
    (h : d.at? (place ++ names) = some e) (solid : e.isLink = false)
    (climbs : ∀ n ∈ names, n ≠ "..") :
    d.settleFrom links place (names ++ rest) = d.settleFrom links (place ++ names) rest := by
  induction names generalizing place with
  | nil => simp
  | cons name names ih =>
    obtain ⟨es, c, hes, child, below, hc⟩ := at?_cons_split h
    have onward : place ++ name :: names = (place ++ [name]) ++ names := by simp
    have down : (name == "..") = false := by simpa using climbs name List.mem_cons_self
    have step : d.settleFrom links place (name :: (names ++ rest)) =
        d.settleFrom links (place ++ [name]) (names ++ rest) := by
      have hlink := isLink_of_at? below solid
      rw [settleFrom.eq_def]
      simp only [down, hc]
      cases c with
      | link t => cases hlink
      | file bs => rfl
      | folder es' => rfl
    rw [List.cons_append, step, onward]
    rw [onward] at h
    exact ih _ h fun n hn => climbs n (List.mem_cons_of_mem _ hn)

theorem settleFrom_to {d e : Disk} {p : Place} (links : Nat) (h : d.at? p = some e)
    (solid : e.isLink = false) (climbs : ∀ n ∈ p, n ≠ "..") :
    d.settleFrom links [] p = some p := by
  have along := settleFrom_along links [] p [] h solid climbs
  rw [List.append_nil, List.nil_append] at along
  rw [along, settleFrom]

/-- The text of a folder's place settles on the place. -/
theorem settle_pathOf {d : Disk} {es : List (String × Disk)} {root : Place} (here : Place)
    (folder : d.at? root = some (.folder es)) (proper : ∀ n ∈ root, Path.Proper n) :
    d.settle here (pathOf root) = some root := by
  rw [settle, Path.namesFrom_pathOf proper]
  exact settleFrom_to linkLimit folder rfl fun n hn => (proper n hn).not_climbing

/-! ### Files in folders -/

/-- What a name in a folder leads to. -/
theorem fileFrom?_name {d : Disk} {es : List (String × Disk)} {place : Place} {name : String}
    (links : Nat) (folder : d.at? place = some (.folder es)) (climbs : name ≠ "..") :
    d.fileFrom? (links + 1) place [name] =
      match d.at? (place ++ [name]) with
      | some (.file bs) => some bs
      | some (.link t) => d.linkedFile? links place t
      | _ => none := by
  have down : (name == "..") = false := by simpa using climbs
  have entry : d.at? (place ++ [name]) = (Disk.folder es).child? name := by
    rw [at?_concat, folder]
    rfl
  cases child : (Disk.folder es).child? name with
  | none =>
    rw [entry, child, fileFrom?, routeFrom, folder]
    simp only [down, child]
    simp [entry, child]
  | some c =>
    cases c with
    | link t =>
      rw [entry, child, fileFrom?, routeFrom, folder]
      simp only [down, child, List.append_nil]
      rfl
    | file bs =>
      rw [fileFrom?, routeFrom_step _ _ folder climbs child rfl, routeFrom]
      simp only [entry, child]
    | folder es' =>
      rw [fileFrom?, routeFrom_step _ _ folder climbs child rfl, routeFrom]
      simp only [entry, child]

/-- A name in a folder that is no link leads to a file just when it is one. -/
theorem fileFrom?_solid {d : Disk} {es : List (String × Disk)} {place : Place} {name : String}
    {bytes : List UInt8} (links : Nat) (folder : d.at? place = some (.folder es))
    (climbs : name ≠ "..") (solid : ∀ t, d.at? (place ++ [name]) ≠ some (.link t)) :
    d.fileFrom? (links + 1) place [name] = some bytes ↔
      d.at? (place ++ [name]) = some (.file bytes) := by
  rw [fileFrom?_name links folder climbs]
  cases there : d.at? (place ++ [name]) with
  | none => simp
  | some e =>
    cases e with
    | file bs => simp
    | folder es => simp
    | link t => exact absurd there (solid t)

/-- A name that is missing in a folder leads to no file, however many links may be followed. -/
theorem fileFrom?_absent {d : Disk} {es : List (String × Disk)} {place : Place} {name : String}
    (links : Nat) (folder : d.at? place = some (.folder es)) (climbs : name ≠ "..")
    (missing : (Disk.folder es).child? name = none) :
    d.fileFrom? links place [name] = none := by
  have entry : d.at? (place ++ [name]) = none := by
    rw [at?_concat, folder]
    exact missing
  rw [fileFrom?, routeFrom_absent links [] folder climbs missing]
  simp only [List.isEmpty_nil, if_true, entry]

theorem fileFrom?_missing {d : Disk} {es : List (String × Disk)} {place : Place} {name : String}
    (links : Nat) (folder : d.at? place = some (.folder es)) (climbs : name ≠ "..")
    (missing : (Disk.folder es).child? name = none) :
    d.fileFrom? (links + 1) place [name] = none :=
  fileFrom?_absent (links + 1) folder climbs missing

/-- From the top of the disk a file is reached through its folder. -/
theorem fileFrom?_along {d : Disk} {es : List (String × Disk)} {place : Place} (links : Nat)
    (names : List String) (folder : d.at? place = some (.folder es))
    (climbs : ∀ n ∈ place, n ≠ "..") :
    d.fileFrom? links [] (place ++ names) = d.fileFrom? links place names := by
  have along := routeFrom_along links [] place names folder rfl climbs
  rw [fileFrom?, along]
  rfl

/-- A path to a name that is missing in a folder leads to no file. -/
theorem bytes?_missing {d : Disk} {es : List (String × Disk)} {place : Place} {name : String}
    {here : Place} {path : String} (spelled : namesFrom here path = place ++ [name])
    (folder : d.at? place = some (.folder es)) (proper : ∀ n ∈ place, Path.Proper n)
    (climbs : name ≠ "..") (missing : (Disk.folder es).child? name = none) :
    d.bytes? here path = none := by
  rw [bytes?_eq, spelled,
    fileFrom?_along linkLimit [name] folder fun n hn => (proper n hn).not_climbing]
  exact fileFrom?_missing 39 folder climbs missing

end EnvCensus.Disk
