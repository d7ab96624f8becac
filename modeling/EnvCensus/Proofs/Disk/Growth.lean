import EnvCensus.Proofs.Disk.Write
import EnvCensus.Proofs.Except

/-!
# Routes over a disk that grows

Making folders and writing files leave every folder a folder and every link as
it is, and so every route leads where it led before. Folders that have been made
need not be made again, and writing a file comes down to putting it where its
path leads.
-/

namespace EnvCensus.Disk

variable {d d' d₁ : Disk} {w place above : Place} {names : List String} {links left : Nat}

/-! ### Routes that stay -/

/-- Folders stay folders, and no link comes, goes or changes. -/
structure Keeps (d d' : Disk) : Prop where
  folder : ∀ {p es}, d.at? p = some (.folder es) → ∃ es', d'.at? p = some (.folder es')
  link : ∀ {p t}, d'.at? p = some (.link t) ↔ d.at? p = some (.link t)

theorem Keeps.refl (d : Disk) : Keeps d d := ⟨fun folder => ⟨_, folder⟩, Iff.rfl⟩

theorem Keeps.trans {d'' : Disk} (first : Keeps d d') (second : Keeps d' d'') : Keeps d d'' where
  folder there := by
    obtain ⟨_, there'⟩ := first.folder there
    exact second.folder there'
  link := second.link.trans first.link

theorem child?_of_at? {es : List (String × Disk)} {name : String}
    (folder : d.at? place = some (.folder es)) :
    (Disk.folder es).child? name = d.at? (place ++ [name]) := by
  rw [at?_concat, folder, Option.bind_some]

/-- The last name of a route leads to what stands under it, or may stand there, unless that is a
link. -/
theorem routeFrom_last {es : List (String × Disk)} {name : String} (links : Nat)
    (folder : d.at? place = some (.folder es)) (climbs : name ≠ "..")
    (solid : ∀ t, d.at? (place ++ [name]) ≠ some (.link t)) :
    d.routeFrom links place [name] = .ok (place ++ [name], links) := by
  rw [← child?_of_at? folder] at solid
  cases child : (Disk.folder es).child? name with
  | none => exact routeFrom_absent links [] folder climbs child
  | some c =>
    have notLink : c.isLink = false := by
      cases c with
      | link t => exact absurd child (solid t)
      | file bs => rfl
      | folder es' => rfl
    rw [routeFrom_step links [] folder climbs child notLink, routeFrom]

/-- Where routes are kept, one that leads somewhere leads there still. -/
theorem Keeps.routeFrom_eq (keeps : Keeps d d') {r : Place × Nat}
    (h : d.routeFrom links place names = .ok r) : d'.routeFrom links place names = .ok r := by
  fun_induction routeFrom d links place names with
  | case1 =>
    rw [routeFrom]
    exact h
  | case2 _ _ _ _ _ there climbs ih =>
    obtain ⟨_, there'⟩ := keeps.folder there
    rw [routeFrom, there']
    simp only [climbs, if_true]
    exact ih h
  | case3 => cases h
  | case4 place name _ _ there down target links child ih =>
    have climbs : name ≠ ".." := by simpa using down
    obtain ⟨_, there'⟩ := keeps.folder there
    rw [child?_of_at? there, ← keeps.link, ← child?_of_at? there'] at child
    rw [routeFrom_link links _ there' climbs child]
    exact ih h
  | case5 place name rest _ there down c links noneLeft someLeft child ih =>
    have climbs : name ≠ ".." := by simpa using down
    have solid := isLink_eq_false noneLeft someLeft
    obtain ⟨_, there'⟩ := keeps.folder there
    -- the last name may lead to anything but a link; before others it leads to a folder
    cases rest with
    | nil =>
      rw [routeFrom] at h
      refine (routeFrom_last links there' climbs fun t linked => ?_).trans h
      rw [keeps.link, ← child?_of_at? there, child] at linked
      cases linked
      cases solid
    | cons n rest =>
      obtain ⟨_, below⟩ := folder_of_routeFrom h
      obtain ⟨_, below'⟩ := keeps.folder below
      rw [← child?_of_at? there'] at below'
      rw [routeFrom_step links _ there' climbs below' rfl]
      exact ih h
  | case6 place name rest _ there down links child last =>
    have climbs : name ≠ ".." := by simpa using down
    obtain ⟨_, there'⟩ := keeps.folder there
    rw [List.isEmpty_iff.mp last]
    refine (routeFrom_last links there' climbs fun t linked => ?_).trans h
    rw [keeps.link, ← child?_of_at? there, child] at linked
    cases linked
  | case7 => cases h
  | case8 => cases h

theorem Keeps.route_eq (keeps : Keeps d d') {here : Place} {path : String}
    (h : d.route here path = .ok w) : d'.route here path = .ok w := by
  obtain ⟨r, hr, rfl⟩ := map_eq_ok.mp h
  exact map_eq_ok.mpr ⟨r, keeps.routeFrom_eq hr, rfl⟩

/-- A route in two parts goes first where its first names lead. -/
theorem routeFrom_split {rest : List String} {r : Place × Nat}
    (h : d.routeFrom links place (names ++ rest) = .ok r) :
    ∃ mid left, d.routeFrom links place names = .ok (mid, left) ∧
      d.routeFrom left mid rest = .ok r := by
  fun_induction routeFrom d links place names with
  | case1 => exact ⟨_, _, rfl, h⟩
  | case2 _ _ _ _ _ there climbs ih =>
    rw [List.cons_append, routeFrom, there] at h
    simp only [climbs, if_true] at h
    exact ih h
  | case3 place name more _ there down target child =>
    rw [List.cons_append, routeFrom, there] at h
    simp only [down, child] at h
    cases h
  | case4 place name more _ there down target links child ih =>
    have climbs : name ≠ ".." := by simpa using down
    rw [List.cons_append, routeFrom_link links _ there climbs child, ← List.append_assoc] at h
    exact ih h
  | case5 place name more _ there down c links noneLeft someLeft child ih =>
    have climbs : name ≠ ".." := by simpa using down
    have solid := isLink_eq_false noneLeft someLeft
    rw [List.cons_append, routeFrom_step links _ there climbs child solid] at h
    exact ih h
  | case6 place name more _ there down links child last =>
    have climbs : name ≠ ".." := by simpa using down
    -- nothing stands under the last name of the first part, so no other name can follow
    rw [List.isEmpty_iff.mp last, List.cons_append, List.nil_append,
      routeFrom_absent links _ there climbs child] at h
    cases rest with
    | nil =>
      refine ⟨_, _, rfl, ?_⟩
      rw [routeFrom]
      exact h
    | cons n rest => cases h
  | case7 place name more _ there down links child further =>
    have climbs : name ≠ ".." := by simpa using down
    rw [List.cons_append, routeFrom_absent links _ there climbs child] at h
    cases more with
    | nil => exact absurd rfl further
    | cons n more => cases h
  | case8 place links name more other =>
    obtain ⟨_, there⟩ := folder_of_routeFrom h
    exact (other _ there).elim

/-! ### Where routes end -/

/-- A folder holds the name of the place, with a file under it or nothing. -/
structure Landing (d : Disk) (w : Place) : Prop where
  inside : ∃ above name es, w = above ++ [name] ∧ d.at? above = some (.folder es)
  here : ∀ {e}, d.at? w = some e → e.isFile = true

theorem folder_above {es : List (String × Disk)} (folder : d.at? place = some (.folder es)) :
    ∃ es, d.at? place.dropLast = some (.folder es) := by
  rcases List.eq_nil_or_concat place with rfl | ⟨above, name, rfl⟩
  · exact ⟨_, folder⟩
  · rw [List.concat_eq_append] at folder ⊢
    rw [List.dropLast_concat]
    exact at?_folder_of_concat folder

/-- A route from a folder ends at a folder or at a place for a file. -/
theorem landing_of_routeFrom {es : List (String × Disk)} (start : d.at? place = some (.folder es))
    (h : d.routeFrom links place names = .ok (w, left)) :
    (∃ es, d.at? w = some (.folder es)) ∨ Landing d w := by
  fun_induction routeFrom d links place names generalizing es with
  | case1 =>
    cases h
    exact .inl ⟨_, start⟩
  | case2 _ place _ _ _ there climbs ih =>
    obtain ⟨_, up⟩ := folder_above there
    exact ih up h
  | case3 => cases h
  | case4 place name more _ there down target links child ih =>
    -- a link starts again from the top or from the folder that it stands in
    have from_link : ∃ es, d.at? (linkStart place target).1 = some (.folder es) := by
      rw [linkStart]
      split
      · exact (isFolder_iff.mp (isFolder_of_at? there)).imp fun es top => congrArg some top
      · exact ⟨_, there⟩
    obtain ⟨_, from_link⟩ := from_link
    exact ih from_link h
  | case5 place name more _ there down c links noneLeft someLeft child ih =>
    have solid := isLink_eq_false noneLeft someLeft
    rw [child?_of_at? there] at child
    cases c with
    | folder es' => exact ih child h
    | link t => cases solid
    | file bs =>
      cases more with
      | nil =>
        rw [routeFrom] at h
        cases h
        refine .inr ⟨⟨place, name, _, rfl, there⟩, fun found => ?_⟩
        cases child.symm.trans found
        rfl
      | cons n more =>
        obtain ⟨_, below⟩ := folder_of_routeFrom h
        cases child.symm.trans below
  | case6 place name more _ there down links child last =>
    cases h
    rw [child?_of_at? there] at child
    refine .inr ⟨⟨place, name, _, rfl, there⟩, fun found => ?_⟩
    cases child.symm.trans found
  | case7 => cases h
  | case8 => cases h

/-- Folders stand all the way to a place for a file. -/
theorem Landing.folders (landing : Landing d w) {p : Place} (hp : p <+: w) (ne : p ≠ w) :
    ∃ es, d.at? p = some (.folder es) := by
  obtain ⟨above, name, es, rfl, folder⟩ := landing.inside
  rcases List.prefix_concat_iff.mp hp with same | ⟨q, rfl⟩
  · exact absurd same ne
  · cases q with
    | nil => exact ⟨es, by rwa [List.append_nil] at folder⟩
    | cons n q =>
      obtain ⟨es', -, there, -⟩ := at?_cons_split folder
      exact ⟨es', there⟩

theorem Landing.writable (landing : Landing d w) : Writable d w where
  way hp ne there := by
    obtain ⟨es, folder⟩ := landing.folders hp ne
    cases folder.symm.trans there
    rfl
  here := landing.here

theorem Landing.keeps (landing : Landing d w) (bytes : List UInt8) :
    Keeps d (d.put (file bytes) w) where
  folder := landing.writable.folder_stays (file bytes)
  link := by
    intro p t
    by_cases here : p = w
    · subst here
      refine iff_of_false (fun found => ?_) fun found => ?_
      · cases (at?_put_self d (file bytes) p).symm.trans found
      · cases landing.here found
    · exact landing.writable.leaf_iff bytes here rfl

/-- Where a file has been put, no folder is new. -/
theorem Landing.keeps_back (landing : Landing d w) (bytes : List UInt8) :
    Keeps (d.put (file bytes) w) d where
  folder := by
    intro p es found
    by_cases hp : p <+: w
    · refine landing.folders hp fun same => ?_
      subst same
      cases (at?_put_self d (file bytes) p).symm.trans found
    by_cases hw : w <+: p
    · obtain ⟨q, rfl⟩ := hw
      have hq : q ≠ [] := by
        rintro rfl
        exact hp (by simp)
      rw [at?_below_file (at?_put_self d _ w) hq] at found
      cases found
    · exact ⟨es, by rwa [at?_put_elsewhere d _ hp hw] at found⟩
  link := (landing.keeps bytes).link.symm

/-! ### Folders that are made -/

/-- Folders stay folders, and everything else stays as it is and where it is. -/
structure Grows (d d' : Disk) : Prop where
  folder : ∀ {p es}, d.at? p = some (.folder es) → ∃ es', d'.at? p = some (.folder es')
  leaf : ∀ {p e}, e.isFolder = false → (d'.at? p = some e ↔ d.at? p = some e)

theorem Grows.refl (d : Disk) : Grows d d := ⟨fun folder => ⟨_, folder⟩, fun _ => Iff.rfl⟩

theorem Grows.trans {d'' : Disk} (first : Grows d d') (second : Grows d' d'') : Grows d d'' where
  folder there := by
    obtain ⟨_, there'⟩ := first.folder there
    exact second.folder there'
  leaf h := (second.leaf h).trans (first.leaf h)

theorem Grows.keeps (grows : Grows d d') : Keeps d d' := ⟨grows.folder, grows.leaf rfl⟩

theorem grows_put_blank {es : List (String × Disk)} {name : String}
    (folder : d.at? above = some (.folder es)) (missing : d.at? (above ++ [name]) = none) :
    Grows d (d.put blank (above ++ [name])) := by
  have landing : Landing d (above ++ [name]) :=
    ⟨⟨above, name, es, rfl, folder⟩, fun found => by cases missing.symm.trans found⟩
  refine ⟨landing.writable.folder_stays blank, fun {p e} leaf => ?_⟩
  by_cases here : p = above ++ [name]
  · subst here
    rw [at?_put_self, missing]
    refine iff_of_false (fun same => ?_) nofun
    cases same
    cases leaf
  · refine landing.writable.put_leaf_iff (fun q hq => ?_) here leaf
    cases q with
    | nil => exact absurd rfl hq
    | cons n q => rfl

/-- The names lead to a folder. -/
def LeadsIn (d : Disk) (names : List String) : Prop :=
  ∃ place left es, d.routeFrom linkLimit [] names = .ok (place, left) ∧
    d.at? place = some (.folder es)

theorem Keeps.leadsIn (keeps : Keeps d d') (h : LeadsIn d names) : LeadsIn d' names := by
  obtain ⟨place, left, es, route, folder⟩ := h
  obtain ⟨es', folder'⟩ := keeps.folder folder
  exact ⟨place, left, es', keeps.routeFrom_eq route, folder'⟩

/-- How folders are made: one name is a folder that is there already, or a new folder in one that
is, or the making stops. -/
theorem makeFoldersFrom_cases (d : Disk) (base : Place) (name : String) (rest : List String) :
    (LeadsIn d (base ++ [name]) ∧
      d.makeFoldersFrom base (name :: rest) = d.makeFoldersFrom (base ++ [name]) rest) ∨
    (∃ above left es, d.at? above = some (.folder es) ∧ d.at? (above ++ [name]) = none ∧
      d.routeFrom linkLimit [] (base ++ [name]) = .ok (above ++ [name], left) ∧
      d.makeFoldersFrom base (name :: rest) =
        (d.put blank (above ++ [name])).makeFoldersFrom (base ++ [name]) rest) ∨
    d.makeFoldersFrom base (name :: rest) = (d, false) := by
  rw [makeFoldersFrom]
  cases whole : d.routeFrom linkLimit [] (base ++ [name]) with
  | error o => exact .inr (.inr rfl)
  | ok r =>
    obtain ⟨place, left⟩ := r
    obtain ⟨above, between, first, last⟩ := routeFrom_split whole
    obtain ⟨es, folder⟩ := folder_of_routeFrom last
    simp only [first]
    cases there : d.at? place with
    | none =>
      cases entry : d.at? (above ++ [name]) with
      | none =>
        -- climbing leads to a folder that is there already
        have climbs : name ≠ ".." := by
          rintro rfl
          obtain ⟨_, up⟩ := folder_above folder
          rw [routeFrom, folder] at last
          simp only [beq_self_eq_true, if_true, routeFrom] at last
          cases last
          cases there.symm.trans up
        rw [routeFrom_absent between [] folder climbs ((child?_of_at? folder).trans entry)] at last
        cases last
        exact .inr (.inl ⟨above, _, es, folder, entry, rfl, rfl⟩)
      | some e => exact .inr (.inr rfl)
    | some e =>
      cases e with
      | folder es' => exact .inl ⟨⟨place, left, es', whole, there⟩, rfl⟩
      | file bs => exact .inr (.inr rfl)
      | link t => exact .inr (.inr rfl)

theorem makeFoldersFrom_grows (d : Disk) (base : Place) (names : List String) :
    Grows d (d.makeFoldersFrom base names).1 := by
  induction names generalizing d base with
  | nil => exact .refl d
  | cons name rest ih =>
    rcases makeFoldersFrom_cases d base name rest with
      ⟨-, onward⟩ | ⟨above, left, es, folder, missing, -, onward⟩ | stopped
    · rw [onward]
      exact ih d _
    · rw [onward]
      exact (grows_put_blank folder missing).trans (ih _ _)
    · rw [stopped]
      exact .refl d

/-- After folders have been made, every part of the way leads to one. -/
theorem leadsIn_of_makeFoldersFrom {base : Place} (h : d.makeFoldersFrom base names = (d', true))
    {part : List String} (proper : part ≠ []) (hp : part <+: names) :
    LeadsIn d' (base ++ part) := by
  induction names generalizing d base part with
  | nil => exact absurd (List.prefix_nil.mp hp) proper
  | cons name rest ih =>
    obtain none | ⟨more, rfl, hmore⟩ := List.prefix_cons_iff.mp hp
    · exact absurd none proper
    have onward : base ++ name :: more = (base ++ [name]) ++ more := by simp
    -- the first folder is there or is made, and what is made after it keeps its route
    have first : ∃ d₂ : Disk, LeadsIn d₂ (base ++ [name]) ∧
        d₂.makeFoldersFrom (base ++ [name]) rest = (d', true) := by
      rcases makeFoldersFrom_cases d base name rest with
        ⟨leads, run⟩ | ⟨above, left, es, folder, missing, route, run⟩ | stopped
      · exact ⟨d, leads, run ▸ h⟩
      · have route' := (grows_put_blank folder missing).keeps.routeFrom_eq route
        exact ⟨_, ⟨_, left, [], route', at?_put_self _ _ _⟩, run ▸ h⟩
      · cases h.symm.trans stopped
    obtain ⟨d₂, leads, run⟩ := first
    cases more with
    | nil =>
      have grows := makeFoldersFrom_grows d₂ (base ++ [name]) rest
      rw [run] at grows
      exact grows.keeps.leadsIn leads
    | cons n more =>
      rw [onward]
      exact ih run (by simp) hmore

/-- Where every part of the way leads to a folder, none is made. -/
theorem makeFoldersFrom_of_leadsIn {base : Place}
    (h : ∀ part, part ≠ [] → part <+: names → LeadsIn d (base ++ part)) :
    d.makeFoldersFrom base names = (d, true) := by
  induction names generalizing base with
  | nil => rfl
  | cons name rest ih =>
    obtain ⟨place, left, es, whole, there⟩ := h [name] (by simp) (by simp)
    obtain ⟨above, between, first, -⟩ := routeFrom_split whole
    rw [makeFoldersFrom]
    simp only [whole, first, there]
    refine ih fun part proper hp => ?_
    rw [List.append_assoc, List.singleton_append]
    exact h _ (by simp) (List.cons_prefix_cons.mpr ⟨rfl, hp⟩)

/-- Folders that have been made on a disk are there on every disk that keeps its routes. -/
theorem Keeps.makeFolder {here : Place} {path : String} (keeps : Keeps d' d₁)
    (h : d.makeFolder here path = (d', true)) : d₁.makeFolder here path = (d₁, true) :=
  makeFoldersFrom_of_leadsIn fun _ proper hp =>
    keeps.leadsIn (leadsIn_of_makeFoldersFrom h proper hp)

/-! ### Writing -/

/-- A file is written just when the folders above it can be made and its path then leads to no
folder; it is put where the path leads. -/
theorem write_ok_iff {here : Place} {path : String} {bytes : List UInt8} :
    d.write here path bytes = (d', true) ↔ ∃ d₁ w,
      d.makeFoldersFrom [] (namesFrom here path).dropLast = (d₁, true) ∧
      d₁.route here path = .ok w ∧ (d₁.at? w).any isFolder = false ∧
      d' = d₁.put (file bytes) w := by
  rw [write]
  simp only [route, map_eq_ok]
  constructor
  · intro h
    split at h
    · cases h
    · rename_i d₁ made
      split at h
      · rename_i w left leads
        split at h
        · cases h
        · rename_i free
          cases h
          exact ⟨d₁, w, made, ⟨(w, left), leads, rfl⟩, by simpa using free, rfl⟩
      · cases h
  · rintro ⟨d₁, w, made, ⟨⟨_, left⟩, leads, rfl⟩, free, rfl⟩
    simp only [made, leads, free]
    rfl

end EnvCensus.Disk
