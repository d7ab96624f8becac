import EnvCensus.Census.Pool
import Mathlib.Data.List.Perm.Basic

/-!
# Pools of workers

No event loses a task, repeats one or changes its result, so a pool in which
all tasks have ended holds the result of each, whatever the order in which they
ended. With one worker at least every pool can be brought to its end.
-/

namespace EnvCensus.Pool

variable {τ α : Type} {workers : Nat} {work : τ → α} {p q : Pool τ α}

/-- The results that a pool still owes or has, each with the place of its task. -/
def owed (work : τ → α) (p : Pool τ α) : List (Nat × α) :=
  (p.waiting ++ p.running).map (fun t => (t.1, work t.2)) ++ p.ended

/-- What an event can do. -/
theorem step?_cases {e : Event} (h : p.step? workers work e = some q) :
    (∃ t rest, e = .take ∧ p.waiting = t :: rest ∧ p.running.length < workers ∧
      q = { p with waiting := rest, running := p.running ++ [t] }) ∨
    ∃ t before after, e = .finish t.1 ∧ p.running = before ++ t :: after ∧
      q = { p with running := before ++ after, ended := (t.1, work t.2) :: p.ended } := by
  cases e with
  | take =>
    cases waiting : p.waiting with
    | nil => simp [step?, waiting] at h
    | cons t rest =>
      simp only [step?, waiting] at h
      split at h
      · rename_i free
        cases h
        exact .inl ⟨t, rest, rfl, rfl, free, rfl⟩
      · cases h
  | finish place =>
    obtain ⟨t, found, rfl⟩ := Option.map_eq_some_iff.mp h
    obtain ⟨same, before, after, split, others⟩ := List.find?_eq_some_iff_append.mp found
    have place_eq : t.1 = place := eq_of_beq same
    refine .inr ⟨t, before, after, by rw [place_eq], split, ?_⟩
    have rest : p.running.eraseP (fun t => t.1 == place) = before ++ after := by
      rw [split, List.eraseP_append_right _ (by simpa using others), List.eraseP_cons_of_pos (by exact same)]
    rw [rest, place_eq]

/-- An event neither loses nor adds a result. -/
theorem step?_owed {e : Event} (h : p.step? workers work e = some q) :
    (q.owed work).Perm (p.owed work) := by
  rcases step?_cases h with ⟨t, rest, -, waiting, -, rfl⟩ | ⟨t, before, after, -, running, rfl⟩
  · have moved : (rest ++ (p.running ++ [t])).Perm (t :: rest ++ p.running) := by
      rw [← List.append_assoc]
      exact List.perm_append_singleton t _
    exact (waiting ▸ moved.map _).append_right _
  · have last : ((p.waiting ++ (before ++ after)).map (fun t => (t.1, work t.2)) ++
        (t.1, work t.2) :: p.ended).Perm _ := List.perm_middle
    have inside : ((p.waiting ++ before).map (fun t => (t.1, work t.2)) ++
        (t.1, work t.2) :: (after.map (fun t => (t.1, work t.2)) ++ p.ended)).Perm _ :=
      List.perm_middle
    simpa [owed, running] using last.trans (by simpa using inside.symm)

/-- A schedule neither loses nor adds a result. -/
theorem run?_owed {schedule : List Event} (h : p.run? workers work schedule = some q) :
    (q.owed work).Perm (p.owed work) := by
  induction schedule generalizing p with
  | nil =>
    cases h
    exact .refl _
  | cons e schedule ih =>
    obtain ⟨next, first, rest⟩ := Option.bind_eq_some_iff.mp h
    exact (ih rest).trans (step?_owed first)

theorem mem_owed_start {tasks : List τ} {i : Nat} {r : α} :
    (i, r) ∈ (start tasks : Pool τ α).owed work ↔ tasks[i]?.map work = some r := by
  simp only [owed, start, List.append_nil, List.mem_map, List.mem_mapIdx, Option.map_eq_some_iff,
    List.getElem?_eq_some_iff]
  constructor
  · rintro ⟨t, ⟨j, hj, rfl⟩, e⟩
    cases e
    exact ⟨tasks[j], ⟨hj, rfl⟩, rfl⟩
  · rintro ⟨t, ⟨hi, rfl⟩, rfl⟩
    exact ⟨_, ⟨i, hi, rfl⟩, rfl⟩

/-- In a pool that has ended, each task has the result of its work. -/
theorem lookup_of_done {tasks : List τ} {schedule : List Event}
    (h : (start tasks).run? workers work schedule = some p) (done : p.isDone = true) (i : Nat) :
    p.ended.lookup i = tasks[i]?.map work := by
  have ended : p.owed work = p.ended := by
    simp only [isDone, Bool.and_eq_true, List.isEmpty_iff] at done
    simp [owed, done]
  have mem : ∀ r, (i, r) ∈ p.ended ↔ tasks[i]?.map work = some r := by
    intro r
    rw [← ended, (run?_owed h).mem_iff, mem_owed_start]
  cases found : p.ended.lookup i with
  | some r =>
    obtain ⟨before, after, split, -⟩ := List.lookup_eq_some_iff.mp found
    exact ((mem r).mp (by simp [split])).symm
  | none =>
    refine (Option.eq_none_iff_forall_ne_some.mpr fun r hr => ?_).symm
    have absent := List.lookup_eq_none_iff.mp found _ ((mem r).mpr hr)
    simp at absent

/-- A task that runs can end, and else a worker is free for one that waits. -/
theorem exists_step (work : τ → α) (some_worker : 0 < workers) (active : p.isDone = false) :
    ∃ e q, p.step? workers work e = some q ∧
      2 * q.waiting.length + q.running.length < 2 * p.waiting.length + p.running.length := by
  cases running : p.running with
  | cons t rest =>
    refine ⟨.finish t.1, _, by simp [step?, running]; rfl, ?_⟩
    simp
  | nil =>
    cases waiting : p.waiting with
    | nil => simp [isDone, running, waiting] at active
    | cons t rest =>
      refine ⟨.take, _, by simp [step?, running, waiting, some_worker]; rfl, ?_⟩
      simp
      omega

/-- A pool can always be brought to its end. -/
theorem exists_done (work : τ → α) (some_worker : 0 < workers) (p : Pool τ α) :
    ∃ schedule q, p.run? workers work schedule = some q ∧ q.isDone = true := by
  induction left : 2 * p.waiting.length + p.running.length using Nat.strongRecOn generalizing p with
  | ind n ih =>
    cases active : p.isDone with
    | true => exact ⟨[], p, rfl, active⟩
    | false =>
      obtain ⟨e, next, first, less⟩ := exists_step work some_worker active
      obtain ⟨schedule, q, rest, done⟩ := ih _ (left ▸ less) next rfl
      exact ⟨e :: schedule, q, by rw [run?, first]; exact rest, done⟩

end EnvCensus.Pool
