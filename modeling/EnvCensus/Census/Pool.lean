import EnvCensus.Census.Scan

/-! Scans by a pool of workers.  The tasks wait in their order; a worker that is free takes the
first of them, and the tasks that run end in any order.  A scan has one task for each enabled
provider, and reads their results in the order of registration when all of them have ended. -/
namespace EnvCensus

/-- The tasks that wait and those that run, each with its place among all tasks, and the results of
those that have ended. -/
structure Pool (τ α : Type) where
  waiting : List (Nat × τ)
  running : List (Nat × τ) := []
  ended : List (Nat × α) := []

namespace Pool

/-- A worker takes the first task that waits, or the task with a place ends. -/
inductive Event where
  | take
  | finish (place : Nat)
  deriving DecidableEq, Repr

variable {τ α : Type}

/-- All tasks wait. -/
def start (tasks : List τ) : Pool τ α := { waiting := tasks.mapIdx fun i t => (i, t) }

/-- What an event leads to when there are so many workers and `work` is what they do; nothing if it
cannot happen. -/
def step? (workers : Nat) (work : τ → α) (p : Pool τ α) : Event → Option (Pool τ α)
  | .take =>
    match p.waiting with
    | [] => none
    | t :: rest =>
      if p.running.length < workers then
        some { p with waiting := rest, running := p.running ++ [t] }
      else none
  | .finish place =>
    (p.running.find? fun t => t.1 == place).map fun t =>
      { p with
        running := p.running.eraseP fun t => t.1 == place
        ended := (place, work t.2) :: p.ended }

/-- What a schedule leads to, event by event. -/
def run? (workers : Nat) (work : τ → α) (p : Pool τ α) : List Event → Option (Pool τ α)
  | [] => some p
  | e :: schedule => (p.step? workers work e).bind fun next => next.run? workers work schedule

/-- Whether all tasks have ended. -/
def isDone (p : Pool τ α) : Bool := p.waiting.isEmpty && p.running.isEmpty

end Pool

namespace Census

/-- There is always a worker. -/
def workers (options : Options) : Nat := (max 1 options.workers).toNat

/-- The result that a provider has in a pool; a failure counts as finding nothing. -/
def resultOrEmpty (result : Option (Except Failure Provider.Output)) : Provider.Output :=
  match result with
  | some (.ok out) => out
  | _ => {}

/-- The outputs of the providers with their names, in the order of registration. -/
def readOff (providers : List Provider)
    (pool : Pool Provider (Except Failure Provider.Output)) : List (String × Provider.Output) :=
  providers.mapIdx fun i p => (p.name, resultOrEmpty (pool.ended.lookup i))

/-- The result of a scan whose providers run in a pool by a schedule; nothing if the schedule is
not one on which all of them end. -/
def scanBy? (schedule : List Pool.Event) (d : Disk) (here : Disk.Place) (clock : Clock)
    (registry : Registry) (target : Target) (options : Options) :
    Option (Except Failure Census) :=
  match plan d here target options with
  | .error e => some (.error e)
  | .ok plan =>
    let providers := registry.enabled plan.options
    let work (p : Provider) := p.collect (shelfOf d here plan.options) plan.files plan.options
    (((Pool.start providers).run? (workers plan.options) work schedule).filter Pool.isDone).map
      fun pool => assemble clock plan.files.length plan.tag (readOff providers pool)

end Census

end EnvCensus
