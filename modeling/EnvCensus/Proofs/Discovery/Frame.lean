import EnvCensus.Disk.Route
import EnvCensus.Proofs.Discovery
import EnvCensus.Proofs.Disk.Write
import Mathlib.Data.List.Sort

/-!
# What writing a file changes for a walk

A walk sees a written file in one place of its result and nowhere else: links
and ignore lists elsewhere stand as they stood, so every other entry is walked
as before.
-/

namespace EnvCensus.Discovery

open Disk

variable {d d' : Disk} {q : Query} {root place w : Place} {lists : List Gitignore}
  {names : List String} {bytes : List UInt8}

/-- Below the root, links stand for the same files and folders have the same ignore lists. -/
structure Alike (d d' : Disk) (root : Place) : Prop where
  links : LinksStand d d' root
  lists : ∀ {place es}, root <+: place → d.at? place = some (.folder es) →
    d'.fileFrom? linkLimit place [Gitignore.fileName] =
      d.fileFrom? linkLimit place [Gitignore.fileName]

mutual

/-- Where two disks are alike, one entry is walked in one way. -/
theorem walkEntry_alike (stays : q.followSymlinks = false) (alike : Alike d d' root)
    {place : Place} (inside : root <+: place) (lists : List Gitignore) (names : List String)
    {n : String} (e : Disk) (tidy : Tidy e) (there : d.at? (place ++ [n]) = some e) :
    walkEntry d' q linkLimit place lists (names ++ [n]) e =
      walkEntry d q linkLimit place lists (names ++ [n]) e := by
  have limit : linkLimit = linkLimit - 1 + 1 := rfl
  cases e with
  | file bytes => rw [walkEntry_file, walkEntry_file]
  | link t =>
    rw [limit, walkEntry_link stays, walkEntry_link stays, alike.links _ _ _ inside there]
  | folder es =>
    have last : (names ++ [n]).getLastD "" = n := by simp
    have further : root <+: place ++ [n] := inside.trans (List.prefix_append _ _)
    have entries : ∀ lists', walkEntries d' q linkLimit (place ++ [n]) lists' (names ++ [n]) es =
        walkEntries d q linkLimit (place ++ [n]) lists' (names ++ [n]) es := by
      intro lists'
      refine walkEntries_alike stays alike further lists' _ es tidy.within fun e he => ?_
      rw [at?_concat, there]
      exact tidy.child? he
    rw [walkEntry, walkEntry, last]
    simp only [listsBelow_congr (alike.lists further there), entries]
termination_by sizeOf e

/-- Where two disks are alike, the entries of a folder are walked in one way. -/
theorem walkEntries_alike (stays : q.followSymlinks = false) (alike : Alike d d' root)
    {place : Place} (inside : root <+: place) (lists : List Gitignore) (names : List String)
    (es : List (String × Disk)) (tidy : ∀ e ∈ es, Tidy e.2)
    (there : ∀ e ∈ es, d.at? (place ++ [e.1]) = some e.2) :
    walkEntries d' q linkLimit place lists names es =
      walkEntries d q linkLimit place lists names es := by
  match es with
  | [] => rw [walkEntries, walkEntries]
  | (n, e) :: es =>
    have first := walkEntry_alike stays alike inside lists names e (tidy _ List.mem_cons_self)
      (there _ List.mem_cons_self)
    have rest := walkEntries_alike stays alike inside lists names es
      (fun e he => tidy e (List.mem_cons_of_mem _ he))
      (fun e he => there e (List.mem_cons_of_mem _ he))
    rw [walkEntries, walkEntries, first, rest]
termination_by sizeOf es

end

/-! ### Results that differ in one name list -/

/-- Lists that are the same but for one member, which each of them may have or lack. -/
def SameBut {α : Type} (x : α) (xs ys : List α) : Prop :=
  ∃ as bs back back', xs = as ++ back ++ bs ∧ ys = as ++ back' ++ bs ∧ x ∉ as ∧ x ∉ bs ∧
    (back = [] ∨ back = [x]) ∧ (back' = [] ∨ back' = [x])

theorem SameBut.pair {α : Type} {x : α} {back back' : List α} (h : back = [] ∨ back = [x])
    (h' : back' = [] ∨ back' = [x]) : SameBut x back back' :=
  ⟨[], [], back, back', by simp, by simp, by simp, by simp, h, h'⟩

theorem SameBut.append {α : Type} {x : α} {xs ys zs : List α} (h : SameBut x xs ys)
    (hx : x ∉ zs) : SameBut x (xs ++ zs) (ys ++ zs) := by
  obtain ⟨as, bs, back, back', rfl, rfl, ha, hb, h, h'⟩ := h
  refine ⟨as, bs ++ zs, back, back', by simp, by simp, ha, ?_, h, h'⟩
  simp [hb, hx]

theorem SameBut.prepend {α : Type} {x : α} {xs ys zs : List α} (h : SameBut x xs ys)
    (hx : x ∉ zs) : SameBut x (zs ++ xs) (zs ++ ys) := by
  obtain ⟨as, bs, back, back', rfl, rfl, ha, hb, h, h'⟩ := h
  refine ⟨zs ++ as, bs, back, back', by simp, by simp, ?_, hb, h, h'⟩
  simp [ha, hx]

theorem SameBut.map {α β : Type} {x : α} {xs ys : List α} (f : α → β) (h : SameBut x xs ys)
    (inj : ∀ y ∈ xs, f y = f x → y = x) : SameBut (f x) (xs.map f) (ys.map f) := by
  obtain ⟨as, bs, back, back', rfl, rfl, ha, hb, h, h'⟩ := h
  refine ⟨as.map f, bs.map f, back.map f, back'.map f, by simp, by simp, ?_, ?_, ?_, ?_⟩
  · intro hx
    obtain ⟨y, hy, e⟩ := List.mem_map.mp hx
    exact ha (inj y (by simp [hy]) e ▸ hy)
  · intro hx
    obtain ⟨y, hy, e⟩ := List.mem_map.mp hx
    exact hb (inj y (by simp [hy]) e ▸ hy)
  · rcases h with rfl | rfl <;> simp
  · rcases h' with rfl | rfl <;> simp

theorem SameBut.inOrder {x : String} {xs ys : List String} (h : SameBut x xs ys) :
    SameBut x (Collation.inOrder xs) (Collation.inOrder ys) := by
  obtain ⟨as, bs, back, back', rfl, rfl, ha, hb, h, h'⟩ := h
  obtain ⟨before, after, split, insert⟩ := Collation.inOrder_insert (as ++ bs) x
  have absent : x ∉ before ++ after := by
    rw [← split, (Collation.inOrder_perm _).mem_iff]
    simp [ha, hb]
  rw [List.mem_append, not_or] at absent
  have sorted : ∀ {back : List String}, back = [] ∨ back = [x] →
      Collation.inOrder (as ++ back ++ bs) = before ++ back ++ after := by
    intro back h
    rcases h with rfl | rfl
    · simpa using split
    · rw [insert (by simp [List.perm_middle])]
      simp
  exact ⟨before, after, back, back', sorted h, sorted h', absent.1, absent.2, h, h'⟩

/-- What a walk finds at an entry that may be missing. -/
def walkOptional (d : Disk) (q : Query) (place : Place) (lists : List Gitignore)
    (names : List String) : Option Disk → Except Failure (List (List String))
  | some e => walkEntry d q linkLimit place lists names e
  | none => .ok []

/-- Entries under other names lead to nothing under this one. -/
theorem notMem_walkEntries (stays : q.followSymlinks = false) {es : List (String × Disk)}
    {n : String} {tail : List String} {found : List (List String)} (tidy : ∀ e ∈ es, Tidy e.2)
    (others : ∀ e ∈ es, e.1 ≠ n) (h : walkEntries d q linkLimit place lists names es = .ok found) :
    names ++ n :: tail ∉ found := by
  intro hx
  obtain ⟨m, e, mem, tail', f, same, _⟩ :=
    walkEntries_finds stays es (fun e he => (tidy e he).named) h hx
  have heads := List.append_cancel_left same
  exact others _ mem (List.cons.inj heads).1.symm

/-- An entry under another name leads to nothing under this one. -/
theorem notMem_walkEntry (stays : q.followSymlinks = false) {m n : String} {e : Disk}
    {tail : List String} {found : List (List String)} (tidy : Tidy e) (other : m ≠ n)
    (h : walkEntry d q linkLimit place lists (names ++ [m]) e = .ok found) :
    names ++ n :: tail ∉ found := by
  have nothing : walkEntries d q linkLimit place lists names [] = .ok [] := by rw [walkEntries]
  have alone : walkEntries d q linkLimit place lists names [(m, e)] = .ok found :=
    walkEntries_cons_ok.mpr ⟨found, [], h, nothing, by simp⟩
  refine notMem_walkEntries stays ?_ ?_ alone
  · intro c hc
    exact List.mem_singleton.mp hc ▸ tidy
  · intro c hc
    exact List.mem_singleton.mp hc ▸ other

/-- An entry changes the walk through a folder where it stands and nowhere else, whether it is
new or takes the place of an old one. -/
theorem walkEntries_enter (stays : q.followSymlinks = false) (alike : Alike d d' root)
    (inside : root <+: place) {es : List (String × Disk)} {n : String} {y : Disk}
    {tail : List String} {found : List (List String)}
    (ordered : es.Pairwise fun a b => a.1.toList < b.1.toList) (tidy : ∀ e ∈ es, Tidy e.2)
    (there : ∀ e ∈ es, d.at? (place ++ [e.1]) = some e.2)
    (entry : ∀ old, walkOptional d q place lists (names ++ [n]) ((folder es).child? n) = .ok old →
      ∃ new, walkEntry d' q linkLimit place lists (names ++ [n]) y = .ok new ∧
        SameBut (names ++ n :: tail) old new)
    (h : walkEntries d q linkLimit place lists names es = .ok found) :
    ∃ found', walkEntries d' q linkLimit place lists names (enter n y es) = .ok found' ∧
      SameBut (names ++ n :: tail) found found' := by
  -- the entries stand in order, so the new one takes the place of the first, comes before all
  -- of them, or enters somewhere in the rest
  induction es generalizing found with
  | nil =>
    rw [walkEntries] at h
    cases h
    obtain ⟨new, hnew, same⟩ := entry [] rfl
    refine ⟨new, ?_, same⟩
    have nothing : walkEntries d' q linkLimit place lists names [] = .ok [] := by rw [walkEntries]
    exact walkEntries_cons_ok.mpr ⟨new, [], hnew, nothing, by simp⟩
  | cons e es ih =>
    obtain ⟨m, c⟩ := e
    obtain ⟨first, rest, hfirst, hrest, rfl⟩ := walkEntries_cons_ok.mp h
    have after := List.pairwise_cons.mp ordered
    have tidyRest : ∀ e ∈ es, Tidy e.2 := fun e he => tidy e (List.mem_cons_of_mem _ he)
    have thereRest : ∀ e ∈ es, d.at? (place ++ [e.1]) = some e.2 :=
      fun e he => there e (List.mem_cons_of_mem _ he)
    by_cases same : m = n
    · subst same
      have others : ∀ e ∈ es, e.1 ≠ m := by
        intro e he same
        exact lt_irrefl _ (same ▸ after.1 e he)
      have old : (folder ((m, c) :: es)).child? m = some c := by simp [child?, entries]
      obtain ⟨new, hnew, same⟩ := entry first (by rw [old]; exact hfirst)
      have rest' := walkEntries_alike stays alike inside lists names es tidyRest thereRest
      refine ⟨new ++ rest, ?_, same.append (notMem_walkEntries stays tidyRest others hrest)⟩
      rw [enter, if_pos (by simp)]
      exact walkEntries_cons_ok.mpr ⟨new, rest, hnew, rest'.trans hrest, rfl⟩
    have other : ((m, c).1 == n) = false := by simpa using same
    by_cases before : Collation.textLe n.toList m.toList = true
    · have less : n.toList < m.toList :=
        lt_of_le_of_ne (Collation.textLe_iff.mp before) fun e => same (String.toList_inj.mp e.symm)
      have others : ∀ e ∈ (m, c) :: es, e.1 ≠ n := by
        intro e he same
        rcases List.mem_cons.mp he with rfl | he
        · exact lt_irrefl _ (same ▸ less)
        · exact lt_irrefl _ (same ▸ less.trans (after.1 e he))
      have old : (folder ((m, c) :: es)).child? n = none := by
        cases hc : (folder ((m, c) :: es)).child? n with
        | none => rfl
        | some x => exact absurd rfl (others _ (mem_of_child? hc))
      obtain ⟨new, hnew, same⟩ := entry [] (by rw [old]; rfl)
      have whole := walkEntries_alike stays alike inside lists names ((m, c) :: es) tidy there
      refine ⟨new ++ (first ++ rest), ?_, ?_⟩
      · rw [enter, if_neg (by simp [other]), if_pos before]
        exact walkEntries_cons_ok.mpr ⟨new, first ++ rest, hnew, whole.trans h, rfl⟩
      · exact same.append (notMem_walkEntries stays tidy others h)
    · have onward : (folder ((m, c) :: es)).child? n = (folder es).child? n := by
        simp [child?, entries, same]
      rw [onward] at entry
      obtain ⟨rest', hrest', sameRest⟩ := ih after.2 tidyRest thereRest entry hrest
      have first' := walkEntry_alike stays alike inside lists names c
        (tidy _ List.mem_cons_self) (there _ List.mem_cons_self)
      have absent : names ++ n :: tail ∉ first :=
        notMem_walkEntry stays (tidy _ List.mem_cons_self) same hfirst
      refine ⟨first ++ rest', ?_, sameRest.prepend absent⟩
      rw [enter, if_neg (by simp [other]), if_neg before]
      exact walkEntries_cons_ok.mpr ⟨first, rest', first'.trans hfirst, hrest', rfl⟩

/-! ### A written file in a walk -/

/-- Writing a file that is no ignore list leaves the ignore lists as they are. -/
theorem alike_put (writable : Writable d w)
    (links : LinksStand d (d.put (file bytes) w) root)
    (ordinary : w.getLast? ≠ some Gitignore.fileName) :
    Alike d (d.put (file bytes) w) root where
  links := links
  lists inside folder := by
    refine writable.fileFrom?_put links inside folder (by decide) fun same => ordinary ?_
    rw [← same, List.getLast?_concat]

/-- What stands on the way to a place for a file, as a folder. -/
theorem folder_on_way (tidy : Tidy d) {p : Place} (writable : Writable d w) (hp : p <+: w)
    (ne : p ≠ w) : ∃ es, (d.at? p).getD blank = folder es ∧ Tidy (folder es) ∧
      ∀ m, (folder es).child? m = d.at? (p ++ [m]) := by
  cases entry : d.at? p with
  | none =>
    refine ⟨[], rfl, .folder .nil (by simp) (by simp), fun m => ?_⟩
    rw [at?_below_none entry]
    rfl
  | some e =>
    have isFolder := writable.way hp ne entry
    obtain ⟨es, rfl⟩ := isFolder_iff.mp isFolder
    refine ⟨es, rfl, tidy.at? entry, fun m => ?_⟩
    rw [at?_concat, entry]
    rfl

/-- What was found below a folder on the way to a written file, walked with the ignore lists as
they are after the writing. A folder that is missing is walked as an empty one. -/
theorem walkOptional_folder (alike : Alike d (d.put (file bytes) w) root)
    (writable : Writable d w) (ordinary : w.getLast? ≠ some Gitignore.fileName)
    (inside : root <+: place) {n m : String} {rest : List String}
    (spelled : w = place ++ [n] ++ m :: rest) {es : List (String × Disk)}
    (here : (d.at? (place ++ [n])).getD blank = folder es) {old : List (List String)}
    (h : walkOptional d q place lists (names ++ [n]) (d.at? (place ++ [n])) = .ok old) :
    (q.entersFolder lists (names ++ [n]) = false ∧ old = []) ∨
      (q.entersFolder lists (names ++ [n]) = true ∧ ∃ lists',
        q.listsBelow (d.put (file bytes) w) linkLimit (place ++ [n]) (names ++ [n]) lists =
          .ok lists' ∧
        walkEntries d q linkLimit (place ++ [n]) lists' (names ++ [n]) es = .ok old) := by
  have further : root <+: place ++ [n] := inside.trans (List.prefix_append _ _)
  cases entry : d.at? (place ++ [n]) with
  | some e =>
    rw [entry, Option.getD_some] at here
    rw [entry, here] at h
    rcases walkEntry_folder_ok.mp h with stop | ⟨enters, lists', hlists, inner⟩
    · exact Or.inl stop
    · rw [← listsBelow_congr (alike.lists further (here ▸ entry))] at hlists
      exact Or.inr ⟨enters, lists', hlists, inner⟩
  | none =>
    rw [entry] at h here
    cases h
    cases here
    obtain ⟨es', made⟩ : ∃ es', (d.put (file bytes) w).at? (place ++ [n]) = some (folder es') := by
      rw [spelled, at?_put_concat_append]
      exact ⟨_, rfl⟩
    -- a new folder has no ignore list, for the only file in it is the written one
    have ignored : (d.put (file bytes) w).fileFrom? linkLimit (place ++ [n])
        [Gitignore.fileName] = none := by
      refine writable.fileFrom?_new made (by decide) (at?_below_none entry _) fun same => ?_
      exact ordinary (by rw [← same, List.getLast?_concat])
    cases q.entersFolder lists (names ++ [n]) with
    | false => exact Or.inl ⟨rfl, rfl⟩
    | true =>
      refine Or.inr ⟨rfl, lists, listsBelow_of_none ignored, ?_⟩
      rw [walkEntries]

/-- The walk through an entry on the way to a written file. -/
theorem walkOptional_put (stays : q.followSymlinks = false) (tidy : Tidy d)
    (writable : Writable d w) (links : LinksStand d (d.put (file bytes) w) root)
    (ordinary : w.getLast? ≠ some Gitignore.fileName) (inside : root <+: place) {n : String}
    {rest : List String} (spelled : w = place ++ n :: rest) {old : List (List String)}
    (h : walkOptional d q place lists (names ++ [n]) (d.at? (place ++ [n])) = .ok old) :
    ∃ new, walkEntry (d.put (file bytes) w) q linkLimit place lists (names ++ [n])
        (((d.at? (place ++ [n])).getD blank).put (file bytes) rest) = .ok new ∧
      SameBut (names ++ n :: rest) old new := by
  -- The induction goes down the way of the file. Folders of the way may be missing before, so the
  -- claim is about what may be there, and where nothing is nothing was found.
  induction rest generalizing place n names lists old with
  | nil =>
    refine ⟨_, walkEntry_file bytes, SameBut.pair ?_ ?_⟩
    · cases entry : d.at? (place ++ [n]) with
      | none =>
        rw [entry] at h
        cases h
        exact Or.inl rfl
      | some e =>
        obtain ⟨old, rfl⟩ := isFile_iff.mp (writable.here (spelled ▸ entry))
        rw [entry, walkOptional, walkEntry_file] at h
        cases h
        split <;> simp
    · split <;> simp
  | cons m rest ih =>
    have further : root <+: place ++ [n] := inside.trans (List.prefix_append _ _)
    have onward : w = (place ++ [n]) ++ m :: rest := by simp [spelled]
    have ne : place ++ [n] ≠ w := by simp [onward]
    have alike := alike_put writable links ordinary
    obtain ⟨es, hes, tidyEs, child⟩ :=
      folder_on_way tidy writable (onward ▸ List.prefix_append _ _) ne
    have walked := walkOptional_folder alike writable ordinary inside onward hes h
    have unfolded : ((d.at? (place ++ [n])).getD blank).put (file bytes) (m :: rest) =
        folder (enter m (((d.at? (place ++ [n] ++ [m])).getD blank).put (file bytes) rest) es) := by
      rw [hes, ← child m]
      rfl
    rw [unfolded]
    rcases walked with ⟨stop, rfl⟩ | ⟨enters, lists', hlists, inner⟩
    · exact ⟨[], walkEntry_folder_ok.mpr (Or.inl ⟨stop, rfl⟩), SameBut.pair (Or.inl rfl) (Or.inl rfl)⟩
    · have there : ∀ e ∈ es, d.at? (place ++ [n] ++ [e.1]) = some e.2 := by
        intro e he
        rw [← child]
        exact tidyEs.child? he
      obtain ⟨new, hnew, same⟩ := walkEntries_enter stays alike further tidyEs.ordered
        tidyEs.within there (fun old h => ih further onward (child m ▸ h)) inner
      refine ⟨new, walkEntry_folder_ok.mpr (Or.inr ⟨enters, lists', hlists, hnew⟩), ?_⟩
      simpa using same

/-- Writing a file below the root changes nothing about the files of the root but whether the
written one is among them. -/
theorem files_put (tidy : Tidy d) (writable : Writable d w)
    (links : LinksStand d (d.put (file bytes) w) root)
    (ordinary : w.getLast? ≠ some Gitignore.fileName) (properW : ∀ n ∈ w, Path.Proper n)
    {n : String} {rest : List String} (spelled : w = root ++ n :: rest)
    {es : List (String × Disk)} (folder : d.at? root = some (.folder es)) {options : Options}
    (stays : options.followSymlinks = false) {here : Place}
    {furtherInclude furtherExclude : List String} {paths : List String}
    (h : files d here (pathOf root) options furtherInclude furtherExclude = .ok paths) :
    ∃ paths', files (d.put (file bytes) w) here (pathOf root) options furtherInclude
        furtherExclude = .ok paths' ∧ SameBut (pathOf w) paths paths' := by
  have proper := tidy.proper_of_at? folder
  have alike := alike_put writable links ordinary
  have tidyEs := tidy.at? folder
  have child : (Disk.folder es).child? n = d.at? (root ++ [n]) := by
    rw [at?_concat, folder]
    rfl
  have there : ∀ e ∈ es, d.at? (root ++ [e.1]) = some e.2 := by
    intro e he
    rw [at?_concat, folder]
    exact tidyEs.child? he
  have folder' : (d.put (file bytes) w).at? root = some (.folder (enter n
      (((d.at? (root ++ [n])).getD blank).put (file bytes) rest) es)) := by
    rw [spelled, at?_put_concat_append, folder]
    rfl
  obtain ⟨q, lists, found, hq, hlists, hfound, rfl⟩ :=
    (files_ok (settle_pathOf here folder proper) folder).mp h
  have notFollowing := (followSymlinks_make hq).trans stays
  rw [← listsBelow_congr (alike.lists (List.prefix_refl _) folder)] at hlists
  obtain ⟨found', hfound', same⟩ := walkEntries_enter notFollowing alike (List.prefix_refl _)
    tidyEs.ordered tidyEs.within there (fun old h => walkOptional_put notFollowing tidy writable
      links ordinary (List.prefix_refl _) spelled (child ▸ h)) hfound
  refine ⟨_, (files_ok (settle_pathOf here folder' proper) folder').mpr
    ⟨q, lists, found', hq, hlists, hfound', rfl⟩, ?_⟩
  have paths := same.map (fun names => pathOf (root ++ names)) ?_
  · rw [spelled]
    exact paths.inOrder
  · intro names hnames sameText
    obtain ⟨tail, e, rfl, _, leaf, _⟩ :=
      walkEntries_leaf notFollowing tidy.named folder hfound hnames
    have same := Path.pathOf_injective (tidy.proper_of_at? leaf) (spelled ▸ properW) sameText
    exact List.append_cancel_left same

/-- Writing a file changes the text of no other file. -/
theorem readText?_put (tidy : Tidy d) (writable : Writable d w)
    (links : LinksStand d (d.put (file bytes) w) root) {path : String}
    (leaf : IsLeafPath d root path) (ne : path ≠ pathOf w) (here : Place) (maxSize : Int) :
    (d.put (file bytes) w).readText? here path maxSize = d.readText? here path maxSize := by
  obtain ⟨names, e, nonempty, rfl, there, leaf⟩ := leaf
  obtain ⟨init, last, rfl⟩ : ∃ init last, names = init ++ [last] :=
    ⟨_, _, (List.dropLast_append_getLast nonempty).symm⟩
  have proper := tidy.proper_of_at? there
  rw [← List.append_assoc] at there proper ne ⊢
  obtain ⟨es, folder⟩ := at?_folder_of_concat there
  have other : root ++ init ++ [last] ≠ w := fun e => ne (by rw [e])
  unfold readText?
  rw [writable.bytes?_put tidy links (List.prefix_append root init) folder
    (Path.namesFrom_pathOf proper here) (proper last (by simp)).not_climbing other]

end EnvCensus.Discovery
