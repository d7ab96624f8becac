import EnvCensus.Disk.Write
import EnvCensus.Proofs.Disk.Route

/-!
# What writing changes

A file can be written at a place when only folders stand on the way to it and
nothing but a file stands at it. Then the file is put there and every other
file and link stays; unless links come into play, this is the only way in which
writing succeeds.
-/

namespace EnvCensus.Disk

/-- Only folders stand on the way to the place, and nothing but a file at it. -/
structure Writable (d : Disk) (w : Place) : Prop where
  way : ∀ {p e}, p <+: w → p ≠ w → d.at? p = some e → e.isFolder = true
  here : ∀ {e}, d.at? w = some e → e.isFile = true

theorem at?_below_file {d : Disk} {w : Place} {bytes : List UInt8} (h : d.at? w = some (file bytes))
    {q : Place} (hq : q ≠ []) : d.at? (w ++ q) = none := by
  rw [at?_append, h]
  cases q with
  | nil => exact absurd rfl hq
  | cons name q => rfl

theorem at?_below_none {d : Disk} {w : Place} (h : d.at? w = none) (q : Place) :
    d.at? (w ++ q) = none := by
  rw [at?_append, h]
  rfl

variable {d : Disk} {w : Place}

theorem isFolder_iff : d.isFolder = true ↔ ∃ es, d = folder es := by
  cases d <;> simp [isFolder]

theorem isFile_iff : d.isFile = true ↔ ∃ bytes, d = file bytes := by
  cases d <;> simp [isFile]

theorem Writable.at?_below (h : Writable d w) {q : Place} (hq : q ≠ []) : d.at? (w ++ q) = none := by
  cases e : d.at? w with
  | none => exact at?_below_none e q
  | some x =>
    obtain ⟨bytes, rfl⟩ := isFile_iff.mp (h.here e)
    exact at?_below_file e hq

/-- What is put at the place, with nothing below it, changes no file and no link at another one. -/
theorem Writable.put_leaf_iff (h : Writable d w) {x : Disk} (bare : ∀ q, q ≠ [] → x.at? q = none)
    {p : Place} {e : Disk} (ne : p ≠ w) (leaf : e.isFolder = false) :
    (d.put x w).at? p = some e ↔ d.at? p = some e := by
  by_cases hp : p <+: w
  · obtain ⟨q, rfl⟩ := hp
    have hq : q ≠ [] := fun e => ne (by simp [e])
    constructor
    · intro there
      rw [at?_put_append] at there
      have folder := put_isFolder ((d.at? p).getD blank) x hq
      rw [Option.some.inj there, leaf] at folder
      cases folder
    · intro there
      have folder := h.way (List.prefix_append p q) ne there
      rw [leaf] at folder
      cases folder
  by_cases hw : w <+: p
  · obtain ⟨q, rfl⟩ := hw
    have hq : q ≠ [] := fun e => ne (by simp [e])
    rw [at?_append, at?_put_self, Option.bind_some, bare q hq, h.at?_below hq]
  · rw [at?_put_elsewhere d _ hp hw]

/-- Writing changes no file and no link at another place. -/
theorem Writable.leaf_iff (h : Writable d w) (bytes : List UInt8) {p : Place} {e : Disk}
    (ne : p ≠ w) (leaf : e.isFolder = false) :
    (d.put (file bytes) w).at? p = some e ↔ d.at? p = some e :=
  h.put_leaf_iff (fun _ hq => at?_below_file (w := []) rfl hq) ne leaf

theorem Writable.folder_stays (h : Writable d w) (x : Disk) {p : Place}
    {es : List (String × Disk)} (folder : d.at? p = some (.folder es)) :
    ∃ es', (d.put x w).at? p = some (.folder es') := by
  by_cases hp : p <+: w
  · obtain ⟨q, rfl⟩ := hp
    have hq : q ≠ [] := by
      rintro rfl
      rw [List.append_nil] at h
      cases h.here folder
    have isFolder := put_isFolder ((d.at? p).getD blank) x hq
    obtain ⟨es', made⟩ := isFolder_iff.mp isFolder
    exact ⟨es', by rw [at?_put_append, made]⟩
  by_cases hw : w <+: p
  · obtain ⟨q, rfl⟩ := hw
    have hq : q ≠ [] := by
      rintro rfl
      rw [List.append_nil] at folder
      cases h.here folder
    rw [h.at?_below hq] at folder
    cases folder
  · exact ⟨es, by rw [at?_put_elsewhere d _ hp hw, folder]⟩

/-- After a file has been written it can be written again. -/
theorem Writable.again (h : Writable d w) (bytes : List UInt8) :
    Writable (d.put (file bytes) w) w where
  way := by
    rintro p e ⟨q, rfl⟩ ne there
    have hq : q ≠ [] := fun e => ne (by simp [e])
    rw [at?_put_append] at there
    rw [← Option.some.inj there]
    exact put_isFolder _ _ hq
  here := by
    intro e there
    rw [at?_put_self] at there
    cases there
    rfl

/-- Every link in a folder below the root stands for the same file on both disks, or for none. -/
def LinksStand (d d' : Disk) (root : Place) : Prop :=
  ∀ place name target, root <+: place → d.at? (place ++ [name]) = some (link target) →
    d'.linkedFile? (linkLimit - 1) place target = d.linkedFile? (linkLimit - 1) place target

theorem LinkFree.linksStand {d : Disk} (free : LinkFree d) (d' : Disk) (root : Place) :
    LinksStand d d' root :=
  fun _ _ _ _ there => absurd there (free.no_link _ _)

/-- A name that led to nothing leads to no file after writing elsewhere. -/
theorem Writable.fileFrom?_new (h : Writable d w) {bytes : List UInt8} {place : Place}
    {es : List (String × Disk)} {name : String}
    (folder : (d.put (file bytes) w).at? place = some (.folder es)) (climbs : name ≠ "..")
    (missing : d.at? (place ++ [name]) = none) (ne : place ++ [name] ≠ w) :
    (d.put (file bytes) w).fileFrom? linkLimit place [name] = none := by
  have limit : linkLimit = linkLimit - 1 + 1 := rfl
  rw [limit, fileFrom?_name _ folder climbs]
  cases entry : (d.put (file bytes) w).at? (place ++ [name]) with
  | none => rfl
  | some e =>
    cases e with
    | folder _ => rfl
    | file _ =>
      rw [(h.leaf_iff bytes ne rfl).mp entry] at missing
      cases missing
    | link _ =>
      rw [(h.leaf_iff bytes ne rfl).mp entry] at missing
      cases missing

/-- Where links stand, writing changes no other file that a name in a folder leads to. -/
theorem Writable.fileFrom?_put (h : Writable d w) {bytes : List UInt8} {root place : Place}
    {es : List (String × Disk)} {name : String}
    (links : LinksStand d (d.put (file bytes) w) root) (inside : root <+: place)
    (folder : d.at? place = some (.folder es)) (climbs : name ≠ "..") (ne : place ++ [name] ≠ w) :
    (d.put (file bytes) w).fileFrom? linkLimit place [name] =
      d.fileFrom? linkLimit place [name] := by
  obtain ⟨es', folder'⟩ := h.folder_stays (file bytes) folder
  have limit : linkLimit = linkLimit - 1 + 1 := rfl
  cases entry : d.at? (place ++ [name]) with
  | none =>
    rw [h.fileFrom?_new folder' climbs entry ne, limit, fileFrom?_name _ folder climbs, entry]
  | some e =>
    rw [limit, fileFrom?_name _ folder climbs, fileFrom?_name _ folder' climbs, entry]
    cases e with
    | file bs => rw [(h.leaf_iff bytes ne rfl).mpr entry]
    | link t =>
      rw [(h.leaf_iff bytes ne rfl).mpr entry]
      exact links place name t inside entry
    | folder _ =>
      obtain ⟨_, entry'⟩ := h.folder_stays (file bytes) entry
      rw [entry']

/-- Where links stand, writing changes no file at another path. -/
theorem Writable.bytes?_put (h : Writable d w) (tidy : Tidy d) {bytes : List UInt8}
    {root place : Place} {es : List (String × Disk)} {name : String}
    (links : LinksStand d (d.put (file bytes) w) root) (inside : root <+: place)
    (folder : d.at? place = some (.folder es)) {here : Place} {path : String}
    (spelled : namesFrom here path = place ++ [name]) (climbs : name ≠ "..")
    (ne : place ++ [name] ≠ w) :
    (d.put (file bytes) w).bytes? here path = d.bytes? here path := by
  have down : ∀ n ∈ place, n ≠ ".." := fun n hn => (tidy.proper_of_at? folder n hn).not_climbing
  obtain ⟨es', folder'⟩ := h.folder_stays (file bytes) folder
  rw [bytes?_eq, bytes?_eq, spelled, fileFrom?_along _ _ folder down,
    fileFrom?_along _ _ folder' down, h.fileFrom?_put links inside folder climbs ne]

/-! ### Making folders -/

theorem routeFrom_missing {d : Disk} {es : List (String × Disk)} {place : Place} {name : String}
    (links : Nat) (folder : d.at? place = some (.folder es)) (climbs : ∀ n ∈ place, n ≠ "..")
    (down : name ≠ "..") (missing : d.at? (place ++ [name]) = none) :
    d.routeFrom links [] (place ++ [name]) = .ok (place ++ [name], links) := by
  have child : (Disk.folder es).child? name = none := by
    rw [at?_concat, folder] at missing
    exact missing
  have along := routeFrom_along links [] place [name] folder rfl climbs
  rw [List.nil_append] at along
  rw [along, routeFrom_absent links [] folder down child]
  rfl

/-- Below a folder that has just been made, putting does not see that it has been made. -/
theorem put_blank_put (x : Disk) {p : Place} (missing : d.at? p = none) (q : Place) :
    (d.put blank p).put x (p ++ q) = d.put x (p ++ q) := by
  rw [put_append, put_append d, at?_put_self, missing, put_put]
  rfl

theorem at?_put_blank_below (d : Disk) (p : Place) {q : Place} (hq : q ≠ []) :
    (d.put blank p).at? (p ++ q) = none := by
  rw [at?_append, at?_put_self]
  cases q with
  | nil => exact absurd rfl hq
  | cons n q => rfl

/-- Where only folders stand on a way, only folders stand on it after one of them has been made. -/
theorem way_put_blank {made names : Place}
    (way : ∀ p e, p <+: made ++ names → d.at? p = some e → e.isFolder = true) :
    ∀ p e, p <+: made ++ names → (d.put blank made).at? p = some e → e.isFolder = true := by
  intro p e hp there
  rcases List.prefix_or_prefix_of_prefix hp (List.prefix_append made names)
    with ⟨q, rfl⟩ | ⟨q, rfl⟩
  · rw [at?_put_append] at there
    rw [← Option.some.inj there]
    cases q with
    | nil => rfl
    | cons n q => exact put_isFolder _ _ (by simp)
  · cases q with
    | nil =>
      rw [List.append_nil, at?_put_self] at there
      cases there
      rfl
    | cons n q =>
      rw [at?_put_blank_below _ _ (by simp)] at there
      cases there

section Step

variable {es : List (String × Disk)} {base : Place} {name : String}

theorem makeFoldersFrom_folder {es' : List (String × Disk)}
    (folder : d.at? base = some (.folder es)) (climbs : ∀ n ∈ base ++ [name], n ≠ "..")
    (there : d.at? (base ++ [name]) = some (.folder es')) (rest : List String) :
    d.makeFoldersFrom base (name :: rest) = d.makeFoldersFrom (base ++ [name]) rest := by
  have climbsBase : ∀ n ∈ base, n ≠ ".." := fun n hn => climbs n (List.mem_append_left _ hn)
  have routeBase := routeFrom_to linkLimit folder rfl climbsBase
  have routeName := routeFrom_to linkLimit there rfl climbs
  rw [makeFoldersFrom]
  simp only [routeName, there, routeBase]

theorem makeFoldersFrom_missing (folder : d.at? base = some (.folder es))
    (climbs : ∀ n ∈ base ++ [name], n ≠ "..") (missing : d.at? (base ++ [name]) = none)
    (rest : List String) :
    d.makeFoldersFrom base (name :: rest) =
      (d.put blank (base ++ [name])).makeFoldersFrom (base ++ [name]) rest := by
  have climbsBase : ∀ n ∈ base, n ≠ ".." := fun n hn => climbs n (List.mem_append_left _ hn)
  have routeBase := routeFrom_to linkLimit folder rfl climbsBase
  have routeName := routeFrom_missing linkLimit folder climbsBase (climbs name (by simp)) missing
  rw [makeFoldersFrom]
  simp only [routeName, missing, routeBase]

theorem makeFoldersFrom_file {bytes : List UInt8} (folder : d.at? base = some (.folder es))
    (climbs : ∀ n ∈ base ++ [name], n ≠ "..")
    (there : d.at? (base ++ [name]) = some (.file bytes)) (rest : List String) :
    d.makeFoldersFrom base (name :: rest) = (d, false) := by
  have climbsBase : ∀ n ∈ base, n ≠ ".." := fun n hn => climbs n (List.mem_append_left _ hn)
  have routeBase := routeFrom_to linkLimit folder rfl climbsBase
  have routeName := routeFrom_to linkLimit there rfl climbs
  rw [makeFoldersFrom]
  simp only [routeName, routeBase, there]

end Step

/-- The folders on a way where no other things stand can be made, and nothing else is. -/
theorem makeFoldersFrom_clear {d : Disk} {es : List (String × Disk)} {base names : Place}
    (folder : d.at? base = some (.folder es)) (climbs : ∀ n ∈ base ++ names, n ≠ "..")
    (way : ∀ p e, p <+: base ++ names → d.at? p = some e → e.isFolder = true) :
    ∃ d' es', d.makeFoldersFrom base names = (d', true) ∧
      d'.at? (base ++ names) = some (.folder es') ∧
      ∀ q, q ≠ [] → d'.at? (base ++ names ++ q) = d.at? (base ++ names ++ q) ∧
        ∀ x, d'.put x (base ++ names ++ q) = d.put x (base ++ names ++ q) := by
  induction names generalizing d base es with
  | nil => exact ⟨d, es, rfl, by rwa [List.append_nil], fun q _ => ⟨rfl, fun _ => rfl⟩⟩
  | cons name names ih =>
    have onward : base ++ name :: names = (base ++ [name]) ++ names := by simp
    rw [onward] at climbs way ⊢
    have climbsName : ∀ n ∈ base ++ [name], n ≠ ".." :=
      fun n hn => climbs n (List.mem_append_left _ hn)
    cases entry : d.at? (base ++ [name]) with
    | some e =>
      obtain ⟨es', rfl⟩ := isFolder_iff.mp (way _ e (List.prefix_append _ _) entry)
      rw [makeFoldersFrom_folder folder climbsName entry]
      exact ih entry climbs way
    | none =>
      -- the rest of the way starts from a folder that is new and empty
      have made : (d.put blank (base ++ [name])).at? (base ++ [name]) = some (.folder []) :=
        at?_put_self _ _ _
      obtain ⟨d', es', run, there, same⟩ := ih made climbs (way_put_blank way)
      rw [makeFoldersFrom_missing folder climbsName entry]
      refine ⟨d', es', run, there, fun q hq => ⟨?_, fun x => ?_⟩⟩
      · rw [(same q hq).1, List.append_assoc, at?_put_blank_below _ _ (by simp [hq]),
          at?_below_none entry]
      · rw [(same q hq).2 x, List.append_assoc, put_blank_put x entry]

/-- A place on a way, from the base on, is the base or stands at the next name or below it. -/
theorem eq_or_below_of_prefix {base names p : Place} {name : String} (from_base : base <+: p)
    (hp : p <+: (base ++ [name]) ++ names) : p = base ∨ base ++ [name] <+: p := by
  rcases List.prefix_or_prefix_of_prefix hp (List.prefix_append (base ++ [name]) names)
    with hle | hle
  · rcases List.prefix_concat_iff.mp hle with same | hbase
    · exact Or.inr (same ▸ List.prefix_refl _)
    · exact Or.inl (hbase.eq_of_length (Nat.le_antisymm hbase.length_le from_base.length_le))
  · exact Or.inr hle

/-- Without links on the way, folders are made only where nothing but folders stands. -/
theorem way_of_makeFoldersFrom {d d' : Disk} {es : List (String × Disk)} {base names : Place}
    (folder : d.at? base = some (.folder es)) (climbs : ∀ n ∈ base ++ names, n ≠ "..")
    (noLinks : ∀ p t, p <+: base ++ names → d.at? p ≠ some (.link t))
    (h : d.makeFoldersFrom base names = (d', true)) {p : Place} {e : Disk} (from_base : base <+: p)
    (hp : p <+: base ++ names) (there : d.at? p = some e) : e.isFolder = true := by
  induction names generalizing base es with
  | nil =>
    rw [List.append_nil] at hp
    rw [hp.eq_of_length (Nat.le_antisymm hp.length_le from_base.length_le), folder] at there
    cases there
    rfl
  | cons name names ih =>
    have onward : base ++ name :: names = (base ++ [name]) ++ names := by simp
    rw [onward] at climbs noLinks hp
    have climbsName : ∀ n ∈ base ++ [name], n ≠ ".." :=
      fun n hn => climbs n (List.mem_append_left _ hn)
    rcases eq_or_below_of_prefix from_base hp with rfl | below
    · rw [folder] at there
      cases there
      rfl
    cases entry : d.at? (base ++ [name]) with
    | none =>
      obtain ⟨q, rfl⟩ := below
      rw [at?_below_none entry] at there
      cases there
    | some c =>
      cases c with
      | link t => exact absurd entry (noLinks _ t (List.prefix_append _ _))
      | file bs =>
        rw [makeFoldersFrom_file folder climbsName entry] at h
        cases h
      | folder es' =>
        rw [makeFoldersFrom_folder folder climbsName entry] at h
        exact ih entry climbs noLinks h below hp

/-! ### Writing -/

/-- The place that a path names, its names read one after the other. -/
structure Names (d : Disk) (here : Place) (path : String) (above : Place) (name : String) :
    Prop where
  names : namesFrom here path = above ++ [name]
  climbs : ∀ n ∈ above ++ [name], n ≠ ".."
  top : d.isFolder = true

/-- Nothing but a folder has a folder below it. -/
theorem isFolder_of_at? {p : Place} {es : List (String × Disk)} (h : d.at? p = some (.folder es)) :
    d.isFolder = true := by
  cases p with
  | nil =>
    cases h
    rfl
  | cons name rest =>
    cases d with
    | folder _ => rfl
    | file _ => cases h
    | link _ => cases h

variable {here above : Place} {path name : String} {bytes : List UInt8}

/-- At a place where a file can be written, it is put there. -/
theorem Writable.write_eq (named : Names d here path above name)
    (h : Writable d (above ++ [name])) (bytes : List UInt8) :
    d.write here path bytes = (d.put (file bytes) (above ++ [name]), true) := by
  obtain ⟨es, top⟩ := isFolder_iff.mp named.top
  have root : d.at? [] = some (.folder es) := congrArg some top
  have climbsAbove : ∀ n ∈ [] ++ above, n ≠ ".." :=
    fun n hn => named.climbs n (List.mem_append_left _ hn)
  have way : ∀ p e, p <+: [] ++ above → d.at? p = some e → e.isFolder = true := by
    intro p e hp there
    refine h.way (hp.trans (List.prefix_append above [name])) ?_ there
    rintro rfl
    have short := hp.length_le
    simp only [List.length_append, List.length_singleton, List.length_nil] at short
    omega
  obtain ⟨d', es', run, folder, same⟩ := makeFoldersFrom_clear root climbsAbove way
  rw [List.nil_append] at folder same climbsAbove
  obtain ⟨sameAt, samePut⟩ := same [name] (by simp)
  have last : (above ++ [name]).dropLast = above := by simp
  have final : d'.routeFrom linkLimit [] (above ++ [name]) = .ok (above ++ [name], linkLimit) := by
    cases entry : d'.at? (above ++ [name]) with
    | none =>
      exact routeFrom_missing linkLimit folder climbsAbove (named.climbs name (by simp)) entry
    | some e =>
      obtain ⟨bs, rfl⟩ := isFile_iff.mp (h.here (sameAt ▸ entry))
      exact routeFrom_to linkLimit entry rfl named.climbs
  have free : (d'.at? (above ++ [name])).any isFolder = false := by
    rw [sameAt]
    cases entry : d.at? (above ++ [name]) with
    | none => rfl
    | some e =>
      obtain ⟨bs, rfl⟩ := isFile_iff.mp (h.here entry)
      rfl
  rw [write, named.names]
  simp only [last, run, final, free, samePut]
  rfl

/-- Without links on the way, writing succeeds only where a file can be written. -/
theorem writable_of_write (named : Names d here path above name)
    (noLinks : ∀ p t, p <+: above ++ [name] → d.at? p ≠ some (.link t))
    {d' : Disk} (h : d.write here path bytes = (d', true)) : Writable d (above ++ [name]) := by
  obtain ⟨es, top⟩ := isFolder_iff.mp named.top
  have root : d.at? [] = some (.folder es) := congrArg some top
  have climbsAbove : ∀ n ∈ [] ++ above, n ≠ ".." :=
    fun n hn => named.climbs n (List.mem_append_left _ hn)
  have noLinksAbove : ∀ p t, p <+: [] ++ above → d.at? p ≠ some (.link t) :=
    fun p t hp => noLinks p t (hp.trans (List.prefix_append above [name]))
  have last : (above ++ [name]).dropLast = above := by simp
  rw [write, named.names] at h
  simp only [last] at h
  cases made : d.makeFoldersFrom [] above with
  | mk d₁ done =>
    cases done with
    | false =>
      rw [made] at h
      cases h
    | true =>
      have way : ∀ p e, p <+: [] ++ above → d.at? p = some e → e.isFolder = true :=
        fun p e hp there => way_of_makeFoldersFrom root climbsAbove noLinksAbove made
          List.nil_prefix hp there
      obtain ⟨d₂, es', run, folder, same⟩ := makeFoldersFrom_clear root climbsAbove way
      rw [made, Prod.mk.injEq] at run
      obtain ⟨rfl, -⟩ := run
      refine ⟨fun {p e} hp ne there => ?_, fun {e} there => ?_⟩
      · rcases List.prefix_concat_iff.mp hp with same | hp
        · exact absurd same ne
        · exact way p e hp there
      · cases e with
        | file _ => rfl
        | link t => exact absurd there (noLinks _ t (List.prefix_refl _))
        | folder es₁ =>
          have entry : d₁.at? ([] ++ above ++ [name]) = some (.folder es₁) :=
            (same [name] (by simp)).1.trans there
          have route := routeFrom_to linkLimit entry rfl named.climbs
          rw [List.nil_append] at route entry
          rw [made] at h
          simp only [route, entry] at h
          cases h

end EnvCensus.Disk
