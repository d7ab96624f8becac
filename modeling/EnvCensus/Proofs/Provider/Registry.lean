import EnvCensus.Provider
import Mathlib.Data.List.Induction
import Mathlib.Data.List.Nodup

/-!
# Registries after any calls

What a registry holds is told by the calls that have been made on it: under each
name the provider that was registered last and has not been removed, and the
names in the order in which they came in. A name that is registered again while
it is there keeps its place; one that comes back after it was removed stands at
the end. Calls that are refused, and those that only ask, leave no trace.
-/

namespace EnvCensus.Registry

/-- A call on a registry. -/
inductive Call where
  | register (p : Provider)
  | unregister (name : String)
  | get (name : String)

/-- What a call answers. -/
inductive Answer where
  | done
  | found (p : Option Provider)
  | refused (message : String)

/-- What the registry answers, and the registry after the call. -/
def call (r : Registry) : Call → Answer × Registry
  | .register p =>
    match r.register? p with
    | some next => (.done, next)
    | none => (.refused namelessMessage, r)
  | .unregister name => (.done, r.unregister name)
  | .get name => (.found (r.get? name), r)

/-- The registry after calls, the first of which finds it empty. -/
def after (calls : List Call) : Registry := calls.foldl (fun r c => (r.call c).2) empty

theorem after_concat (calls : List Call) (c : Call) :
    after (calls ++ [c]) = ((after calls).call c).2 := by
  simp [after]

variable {calls before rest : List Call} {c d : Call} {r : Registry} {p q : Provider}
  {ps : List Provider} {n name : String} {i : Nat}

/-! ### What calls say of a name -/

/-- The call registers the provider under the name. -/
def Call.Registers (c : Call) (name : String) (p : Provider) : Prop :=
  c = .register p ∧ p.name = name ∧ name ≠ ""

/-- The call decides what stands under the name from then on. -/
def Call.Settles (c : Call) (name : String) : Prop :=
  c = .unregister name ∨ ∃ p, c.Registers name p

/-- The calls register the provider under the name, and none after that decides otherwise. -/
def Holds (calls : List Call) (name : String) (p : Provider) : Prop :=
  ∃ before c rest, calls = before ++ c :: rest ∧ c.Registers name p ∧ ∀ d ∈ rest, ¬ d.Settles name

/-- The call with the number registers the name, under which nothing stood then, and no later call
removes it. -/
def Since (calls : List Call) (name : String) (i : Nat) : Prop :=
  ∃ before c rest, calls = before ++ c :: rest ∧ before.length = i ∧ (∃ p, c.Registers name p) ∧
    (∀ p, ¬ Holds before name p) ∧ Call.unregister name ∉ rest

/-- A call within the calls is the last one, or there are calls after it up to the last one. -/
theorem concat_eq_append_cons : calls ++ [c] = before ++ d :: rest ↔
    (rest = [] ∧ before = calls ∧ d = c) ∨
      ∃ rest', rest = rest' ++ [c] ∧ calls = before ++ d :: rest' := by
  constructor
  · intro h
    rcases List.eq_nil_or_concat rest with rfl | ⟨rest', last, rfl⟩
    · obtain ⟨rfl, same⟩ := List.append_inj' h rfl
      cases same
      exact Or.inl ⟨rfl, rfl, rfl⟩
    · rw [List.concat_eq_append, ← List.cons_append, ← List.append_assoc] at h
      obtain ⟨rfl, same⟩ := List.append_inj' h rfl
      cases same
      exact Or.inr ⟨rest', List.concat_eq_append, rfl⟩
  · rintro (⟨rfl, rfl, rfl⟩ | ⟨rest', rfl, rfl⟩)
    · rfl
    · simp

theorem not_holds_nil : ¬ Holds [] name p := by
  rintro ⟨before, c, rest, e, -, -⟩
  simp at e

theorem not_since_nil : ¬ Since [] name i := by
  rintro ⟨before, c, rest, e, -, -⟩
  simp at e

/-- The last call decides, or it leaves the name to the calls before it. -/
theorem holds_concat : Holds (calls ++ [c]) name p ↔
    c.Registers name p ∨ Holds calls name p ∧ ¬ c.Settles name := by
  constructor
  · rintro ⟨before, d, rest, e, registers, later⟩
    rcases concat_eq_append_cons.mp e with ⟨rfl, rfl, rfl⟩ | ⟨rest', rfl, rfl⟩
    · exact Or.inl registers
    · obtain ⟨between, last⟩ := List.forall_mem_append.mp later
      exact Or.inr ⟨⟨before, d, rest', rfl, registers, between⟩, last c List.mem_cons_self⟩
  · rintro (registers | ⟨⟨before, d, rest, rfl, registers, later⟩, last⟩)
    · exact ⟨calls, c, [], rfl, registers, by simp⟩
    · refine ⟨before, d, rest ++ [c], by simp, registers, ?_⟩
      exact List.forall_mem_append.mpr ⟨later, List.forall_mem_singleton.mpr last⟩

/-- The last call brings the name in, or it has been there before and is not removed. -/
theorem since_concat : Since (calls ++ [c]) name i ↔
    (i = calls.length ∧ (∃ p, c.Registers name p) ∧ ∀ p, ¬ Holds calls name p) ∨
      Since calls name i ∧ c ≠ .unregister name := by
  constructor
  · rintro ⟨before, d, rest, e, rfl, registers, absent, kept⟩
    rcases concat_eq_append_cons.mp e with ⟨rfl, rfl, rfl⟩ | ⟨rest', rfl, rfl⟩
    · exact Or.inl ⟨rfl, registers, absent⟩
    · refine Or.inr ⟨⟨before, d, rest', rfl, rfl, registers, absent, ?_⟩, ?_⟩
      · intro removed
        exact kept (List.mem_append_left _ removed)
      · rintro rfl
        exact kept (List.mem_append_right _ List.mem_cons_self)
  · rintro (⟨rfl, registers, absent⟩ | ⟨⟨before, d, rest, rfl, rfl, registers, absent, kept⟩, last⟩)
    · exact ⟨calls, c, [], rfl, rfl, registers, absent, by simp⟩
    · refine ⟨before, d, rest ++ [c], by simp, rfl, registers, absent, ?_⟩
      simp [kept, Ne.symm last]

theorem Since.lt_length (h : Since calls name i) : i < calls.length := by
  obtain ⟨before, c, rest, rfl, rfl, -, -, -⟩ := h
  simp

theorem Call.registers_iff : (Call.register q).Registers name p ↔
    p = q ∧ q.name = name ∧ name ≠ "" := by
  constructor
  · rintro ⟨same, named⟩
    cases same
    exact ⟨rfl, named⟩
  · rintro ⟨rfl, named⟩
    exact ⟨rfl, named⟩

/-! ### What one call does to the providers -/

theorem find?_place (p : Provider) (ps : List Provider) (n : String) :
    (place p ps).find? (fun q => q.name == n) =
      if p.name = n then some p else ps.find? fun q => q.name == n := by
  induction ps with
  | nil => by_cases here : p.name = n <;> simp [place, here]
  | cons q ps ih =>
    by_cases same : q.name = p.name
    · by_cases here : p.name = n <;> simp [place, same, here]
    · have kept : place p (q :: ps) = q :: place p ps := by simp [place, same]
      rw [kept]
      by_cases here : q.name = n
      · have other : p.name ≠ n := fun e => same (here.trans e.symm)
        rw [List.find?_cons_of_pos (by simpa using here), if_neg other,
          List.find?_cons_of_pos (by simpa using here)]
      · rw [List.find?_cons_of_neg (by simpa using here), ih,
          List.find?_cons_of_neg (by simpa using here)]

/-- A provider whose name is taken stands where the old one stood. -/
theorem place_of_mem (nodup : (ps.map (·.name)).Nodup) (taken : p.name ∈ ps.map (·.name)) :
    place p ps = ps.map fun q => if q.name = p.name then p else q := by
  induction ps with
  | nil => cases taken
  | cons q ps ih =>
    obtain ⟨first, others⟩ := List.nodup_cons.mp nodup
    by_cases same : q.name = p.name
    · have elsewhere : ∀ s ∈ ps, (if s.name = p.name then p else s) = s := by
        intro s hs
        have other : s.name ≠ p.name := by
          intro e
          exact first (List.mem_map.mpr ⟨s, hs, e.trans same.symm⟩)
        exact if_neg other
      simp [place, same, List.map_congr_left elsewhere]
    · have rest : p.name ∈ ps.map (·.name) :=
        (List.mem_cons.mp taken).resolve_left (Ne.symm same)
      simp [place, same, ih others rest]

/-- A provider whose name is not taken stands at the end. -/
theorem place_of_not_mem (fresh : p.name ∉ ps.map (·.name)) : place p ps = ps ++ [p] := by
  induction ps with
  | nil => rfl
  | cons q ps ih =>
    obtain ⟨other, others⟩ := List.ne_and_not_mem_of_not_mem_cons fresh
    simp [place, Ne.symm other, ih others]

theorem get?_unregister (r : Registry) (name n : String) :
    (r.unregister name).get? n = if n = name then none else r.get? n := by
  rw [get?, unregister, List.find?_filter]
  by_cases same : n = name
  · rw [if_pos same, List.find?_eq_none]
    simp [same]
  · rw [if_neg same, get?]
    congr 1
    funext q
    by_cases here : q.name = n <;> simp [here, same]

theorem names_unregister (r : Registry) (name : String) :
    (r.unregister name).names = r.names.filter fun n => n != name := by
  simp [names, unregister, List.filter_map, Function.comp_def]

theorem mem_names : n ∈ r.names ↔ ∃ p, r.get? n = some p := by
  constructor
  · intro h
    obtain ⟨p, hp, rfl⟩ := List.mem_map.mp h
    have found : (r.get? p.name).isSome := by
      rw [get?, List.find?_isSome]
      exact ⟨p, hp, beq_self_eq_true _⟩
    exact Option.isSome_iff_exists.mp found
  · rintro ⟨p, found⟩
    have here : p.name = n := by simpa using List.find?_some found
    exact List.mem_map.mpr ⟨p, List.mem_of_find?_eq_some found, here⟩

/-! ### What any calls leave -/

/-- The registry is the ordered map that the calls speak of. -/
structure Reflects (calls : List Call) (r : Registry) : Prop where
  nodup : r.names.Nodup
  present : ∀ n, n ∈ r.names ↔ ∃ i, Since calls n i
  inOrder : r.names.Pairwise fun m n => ∀ i j, Since calls m i → Since calls n j → i < j
  get : ∀ n p, r.get? n = some p ↔ Holds calls n p

theorem reflects_nil : Reflects [] empty where
  nodup := List.nodup_nil
  present n := by simp [names, empty, not_since_nil]
  inOrder := List.Pairwise.nil
  get n p := by simp [get?, empty, not_holds_nil]

/-- A name has been there since some call just when something is held under it. -/
theorem Reflects.absent_iff (h : Reflects calls r) : (∀ p, ¬ Holds calls n p) ↔ n ∉ r.names := by
  rw [mem_names, not_exists]
  exact forall_congr' fun p => not_congr (h.get n p).symm

/-- As long as the names stay and have been there as long, only what stands under them can change. -/
theorem Reflects.same_names {r' : Registry} {calls' : List Call} (h : Reflects calls r)
    (same : r'.names = r.names) (since : ∀ n i, Since calls' n i ↔ Since calls n i)
    (get : ∀ n p, r'.get? n = some p ↔ Holds calls' n p) : Reflects calls' r' := by
  refine ⟨?_, fun n => ?_, ?_, get⟩
  · rw [same]
    exact h.nodup
  · simp only [same, since]
    exact h.present n
  · simp only [same, since]
    exact h.inOrder

/-- A call that settles nothing changes nothing. -/
theorem Reflects.idle (h : Reflects calls r) (idle : ∀ n, ¬ c.Settles n) :
    Reflects (calls ++ [c]) r := by
  refine h.same_names rfl (fun n i => ?_) fun n p => ?_
  · have other : c ≠ .unregister n := fun e => idle n (Or.inl e)
    have unregistered : ¬ ∃ p, c.Registers n p := fun e => idle n (Or.inr e)
    rw [since_concat]
    simp [other, unregistered]
  · have unregistered : ¬ c.Registers n p := fun e => idle n (Or.inr ⟨p, e⟩)
    rw [holds_concat, h.get]
    simp [unregistered, idle n]

/-- Registering a provider brings its name in, unless it is there. -/
theorem Reflects.since_register (h : Reflects calls r) (named : p.name ≠ "") :
    Since (calls ++ [.register p]) n i ↔
      (i = calls.length ∧ n = p.name ∧ n ∉ r.names) ∨ Since calls n i := by
  have registered : (∃ q, (Call.register p).Registers n q) ↔ n = p.name := by
    constructor
    · rintro ⟨q, e⟩
      exact (Call.registers_iff.mp e).2.1.symm
    · rintro rfl
      exact ⟨p, rfl, rfl, named⟩
  rw [since_concat, registered, h.absent_iff]
  simp

theorem Reflects.get_register (h : Reflects calls r) (named : p.name ≠ "") (n : String)
    (q : Provider) : (⟨place p r.providers⟩ : Registry).get? n = some q ↔
      Holds (calls ++ [.register p]) n q := by
  have found : (⟨place p r.providers⟩ : Registry).get? n =
      if p.name = n then some p else r.get? n := find?_place p r.providers n
  rw [found, holds_concat, Call.registers_iff]
  by_cases here : p.name = n
  · subst here
    have settled : (Call.register p).Settles p.name := Or.inr ⟨p, rfl, rfl, named⟩
    simp [settled, named, eq_comm]
  · have unsettled : ¬ (Call.register p).Settles n := by
      rintro (e | ⟨s, e⟩)
      · cases e
      · exact here (Call.registers_iff.mp e).2.1
    simp [here, unsettled, h.get]

/-- A provider whose name is there takes the place of the old one. -/
theorem Reflects.replace (h : Reflects calls r) (named : p.name ≠ "") (taken : p.name ∈ r.names) :
    Reflects (calls ++ [.register p]) ⟨place p r.providers⟩ := by
  refine h.same_names ?_ (fun n i => ?_) (h.get_register named)
  · rw [place_of_mem h.nodup taken, names, names, List.map_map]
    refine List.map_congr_left fun q _ => ?_
    simp only [Function.comp]
    split
    · rename_i same
      exact same.symm
    · rfl
  · rw [h.since_register named]
    constructor
    · rintro (⟨-, rfl, fresh⟩ | since)
      · exact absurd taken fresh
      · exact since
    · exact Or.inr

/-- A provider whose name is not there comes in at the end. -/
theorem Reflects.add (h : Reflects calls r) (named : p.name ≠ "") (fresh : p.name ∉ r.names) :
    Reflects (calls ++ [.register p]) ⟨place p r.providers⟩ := by
  have names_eq : (⟨place p r.providers⟩ : Registry).names = r.names ++ [p.name] := by
    rw [place_of_not_mem fresh]
    simp [names]
  have older : ∀ m ∈ r.names, ∀ i, Since (calls ++ [.register p]) m i → Since calls m i := by
    intro m hm i since
    rcases (h.since_register named).mp since with ⟨-, rfl, fresh⟩ | since
    · exact absurd hm fresh
    · exact since
  have newest : ∀ j, Since (calls ++ [.register p]) p.name j → j = calls.length := by
    intro j since
    rcases (h.since_register named).mp since with ⟨last, -, -⟩ | since
    · exact last
    · exact absurd ((h.present _).mpr ⟨j, since⟩) fresh
  refine ⟨?_, fun n => ?_, ?_, h.get_register named⟩
  · rw [names_eq, List.nodup_append]
    refine ⟨h.nodup, List.nodup_singleton _, fun a ha b hb same => ?_⟩
    rw [List.mem_singleton.mp hb] at same
    exact fresh (same ▸ ha)
  · rw [names_eq, List.mem_append, List.mem_singleton, h.present]
    simp only [h.since_register named, exists_or, exists_and_right, exists_eq, true_and]
    constructor
    · rintro (known | rfl)
      · exact Or.inr known
      · exact Or.inl ⟨rfl, fresh⟩
    · rintro (⟨rfl, -⟩ | known)
      · exact Or.inr rfl
      · exact Or.inl known
  · rw [names_eq, List.pairwise_append]
    refine ⟨?_, List.pairwise_singleton _ _, ?_⟩
    · refine h.inOrder.imp_of_mem fun hm hn before i j hi hj => ?_
      exact before i j (older _ hm i hi) (older _ hn j hj)
    · intro m hm n hn i j hi hj
      rw [List.mem_singleton.mp hn] at hj
      rw [newest j hj]
      exact (older m hm i hi).lt_length

/-- A name that is removed leaves the others where they are. -/
theorem Reflects.unregister (h : Reflects calls r) (name : String) :
    Reflects (calls ++ [.unregister name]) (r.unregister name) := by
  have unregistered : ∀ n q, ¬ (Call.unregister name).Registers n q := by
    rintro n q ⟨e, -⟩
    cases e
  have since : ∀ n i, Since (calls ++ [.unregister name]) n i ↔ Since calls n i ∧ n ≠ name := by
    intro n i
    rw [since_concat]
    simp [unregistered, eq_comm]
  refine ⟨?_, fun n => ?_, ?_, fun n q => ?_⟩
  · rw [names_unregister]
    exact h.nodup.filter _
  · rw [names_unregister, List.mem_filter, h.present]
    simp [since]
  · rw [names_unregister]
    simp only [since]
    exact (h.inOrder.filter _).imp fun before i j hi hj => before i j hi.1 hj.1
  · have settles : (Call.unregister name).Settles n ↔ n = name := by
      simp [Call.Settles, unregistered, eq_comm]
    rw [get?_unregister, holds_concat, settles]
    by_cases here : n = name
    · simp [here, unregistered]
    · simp [here, unregistered, h.get]

/-- One more call on a registry that reflects the calls before it. -/
theorem Reflects.call (h : Reflects calls r) (c : Call) :
    Reflects (calls ++ [c]) (r.call c).2 := by
  cases c with
  | register p =>
    by_cases nameless : p.name = ""
    · have refused : (r.call (.register p)).2 = r := by simp [Registry.call, register?, nameless]
      rw [refused]
      refine h.idle ?_
      rintro n (e | ⟨q, e⟩)
      · cases e
      · obtain ⟨-, rfl, named⟩ := Call.registers_iff.mp e
        exact named nameless
    · have placed : (r.call (.register p)).2 = ⟨place p r.providers⟩ := by
        simp [Registry.call, register?, nameless]
      rw [placed]
      by_cases taken : p.name ∈ r.names
      · exact h.replace nameless taken
      · exact h.add nameless taken
  | unregister name => exact h.unregister name
  | get name =>
    refine h.idle ?_
    rintro n (e | ⟨q, e, -⟩) <;> cases e

/-- After any calls the registry reflects them. -/
theorem reflects_after (calls : List Call) : Reflects calls (after calls) := by
  induction calls using List.reverseRecOn with
  | nil => exact reflects_nil
  | append_singleton calls c ih =>
    rw [after_concat]
    exact ih.call c

/-- The providers are those that are found under their names. -/
theorem Reflects.mem_providers (h : Reflects calls r) :
    p ∈ r.providers ↔ r.get? p.name = some p := by
  constructor
  · intro hp
    obtain ⟨q, found⟩ := mem_names.mp (List.mem_map_of_mem hp : p.name ∈ r.names)
    have same : q.name = p.name := by simpa using List.find?_some found
    rw [found, List.inj_on_of_nodup_map h.nodup (List.mem_of_find?_eq_some found) hp same]
  · exact List.mem_of_find?_eq_some

theorem admits_iff (options : Options) (name : String) : admits options name = true ↔
    (options.includeProviders ≠ [] → name ∈ options.includeProviders) ∧
      name ∉ options.excludeProviders := by
  cases included : options.includeProviders <;> simp [admits, included]

/-- After any calls a registry is an ordered map. No name is there twice; those that are there stand
in the order of the calls that brought them in, and each is found with the provider that was
registered last under it. A provider without a name is refused and nothing changes, one whose name
is there takes the place of the old one, and any other comes in at the end. Those that take part
under some options are the admitted ones, in the same order. -/
theorem after_isOrderedMap (calls : List Call) :
    (after calls).names.Nodup ∧
    (∀ n, n ∈ (after calls).names ↔ ∃ i, Since calls n i) ∧
    (after calls).names.Pairwise (fun m n => ∀ i j, Since calls m i → Since calls n j → i < j) ∧
    (∀ n, ∃ found, (after calls).call (.get n) = (.found found, after calls) ∧
      ∀ p, found = some p ↔ Holds calls n p) ∧
    (∀ p, p.name = "" →
      (after calls).call (.register p) = (.refused namelessMessage, after calls)) ∧
    (∀ p, p.name ∈ (after calls).names → (after calls).call (.register p) =
      (.done, ⟨(after calls).providers.map fun q => if q.name = p.name then p else q⟩)) ∧
    (∀ p, p.name ≠ "" → p.name ∉ (after calls).names →
      (after calls).call (.register p) = (.done, ⟨(after calls).providers ++ [p]⟩)) ∧
    ∀ options, ((after calls).enabled options).Sublist (after calls).providers ∧
      ∀ p, p ∈ (after calls).enabled options ↔ (after calls).get? p.name = some p ∧
        (options.includeProviders ≠ [] → p.name ∈ options.includeProviders) ∧
        p.name ∉ options.excludeProviders := by
  have h := reflects_after calls
  refine ⟨h.nodup, h.present, h.inOrder, fun n => ⟨_, rfl, h.get n⟩, ?_, ?_, ?_, fun options => ?_⟩
  · intro p nameless
    simp [call, register?, nameless]
  · intro p taken
    have named : p.name ≠ "" := by
      intro nameless
      obtain ⟨i, before, c, rest, -, -, ⟨q, -, -, named⟩, -⟩ := (h.present p.name).mp taken
      exact named nameless
    simp [call, register?, named, place_of_mem h.nodup taken]
  · intro p named fresh
    simp [call, register?, named, place_of_not_mem fresh]
  · refine ⟨List.filter_sublist, fun p => ?_⟩
    rw [enabled, List.mem_filter, h.mem_providers, admits_iff]

/-- A provider that comes back stands at the end, and one that is replaced stays. -/
example :
    (after [.register .script, .register .shell, .unregister "ast", .register .dotenv,
      .register .script, .register { Provider.shell with source := .dotenv }]).providers.map
        (fun p => (p.name, p.source)) =
      [("shell", .dotenv), ("dotenv", .dotenv), ("ast", .ast)] := by
  decide

end EnvCensus.Registry
