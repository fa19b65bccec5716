/-!
# Simulation on virtual time

A simulation lets the parts of a system run while a script acts on it. Time is counted in
milliseconds and passes only when every part waits, straight to the next moment at which something is
due. At each moment the script comes first, then the parts run until all of them wait. When the
script is over the system has until a given time to finish, if one is given, and is cancelled then. A
simulation stops where nothing happens any more, or where nothing that is to come counts.
-/

namespace WindowJoin

/-- A system that can be simulated, with the actions that a script may take on it. -/
structure Simulation (σ α : Type) where
  /-- Takes an action; none if the action has to wait. -/
  perform : α → σ → Option σ
  /-- What the parts can do next, in the order of preference. -/
  steps : σ → List σ
  /-- The times at which waiting parts go on by themselves. -/
  deadlines : σ → List Nat
  finished : σ → Bool
  cancel : σ → σ
  now : σ → Nat
  setNow : Nat → σ → σ
  /-- Whether nothing that is still to come counts. -/
  settled : σ → Bool := fun _ => false

/-- A simulation under way. -/
structure Simulated (σ α : Type) where
  /-- The actions to come, with their times. -/
  script : List (Nat × α)
  state : σ
  /-- The time of the last action. -/
  scriptEnd : Nat
  finishedAt : Option Nat
  /-- Whether the system was cancelled because its time was up. -/
  timedOut : Bool

namespace Simulated

variable {σ α : Type}

/-- A simulation that begins. -/
def start (script : List (Nat × α)) (state : σ) : Simulated σ α :=
  ⟨script, state, 0, none, false⟩

/-- The time at which both the script and the system were done. -/
def ended (run : Simulated σ α) : Nat :=
  max run.scriptEnd (run.finishedAt.getD 0)

end Simulated

namespace Simulation

variable {σ α : Type}

/-- The action of the script that is due, if it need not wait. -/
def acted? (simulation : Simulation σ α) (run : Simulated σ α) : Option (Simulated σ α) :=
  match run.script with
  | [] => none
  | (time, action) :: rest =>
    if time ≤ simulation.now run.state then
      (simulation.perform action run.state).map fun state =>
        { run with script := rest, state, scriptEnd := simulation.now run.state }
    else none

/-- The cancellation of a system whose time is up. -/
def expired? (simulation : Simulation σ α) (limit : Option Nat) (run : Simulated σ α) :
    Option (Simulated σ α) :=
  if run.script.isEmpty && !run.timedOut && limit.any (· ≤ simulation.now run.state)
      && !simulation.finished run.state then
    some { run with state := simulation.cancel run.state, timedOut := true }
  else none

/-- The next moment at which something is due. -/
def nextTime? (simulation : Simulation σ α) (limit : Option Nat) (run : Simulated σ α) : Option Nat :=
  let now := simulation.now run.state
  let scripted :=
    match run.script with
    | [] => if run.timedOut || simulation.finished run.state then [] else limit.toList
    | (time, _) :: _ => [time]
  ((simulation.deadlines run.state ++ scripted).filter (now < ·)).min?

/-- The simulation after the next thing that happens; none if nothing more happens. -/
def next? (simulation : Simulation σ α) (limit : Option Nat) (run : Simulated σ α) :
    Option (Simulated σ α) :=
  if simulation.settled run.state then none
  else
    match simulation.acted? run with
    | some later => some later
    | none =>
      match simulation.steps run.state with
      | state :: _ => some { run with state }
      | [] =>
        match simulation.expired? limit run with
        | some later => some later
        | none =>
          (simulation.nextTime? limit run).map fun time =>
            { run with state := simulation.setNow time run.state }

/-- Notes the time at which the system has finished. -/
def note (simulation : Simulation σ α) (run : Simulated σ α) : Simulated σ α :=
  if run.finishedAt.isNone && simulation.finished run.state then
    { run with finishedAt := some (simulation.now run.state) }
  else run

/-- Runs a simulation for up to a number of steps. -/
def runFor (simulation : Simulation σ α) (limit : Option Nat) : Nat → Simulated σ α → Simulated σ α
  | 0, run => run
  | steps + 1, run =>
    match simulation.next? limit (simulation.note run) with
    | none => simulation.note run
    | some later => runFor simulation limit steps later

/-- The number of steps after which a simulation stops in any case. -/
def stepLimit : Nat := 1000000000

/-- Runs a simulation to its end. -/
def run (simulation : Simulation σ α) (limit : Option Nat) (script : List (Nat × α)) (state : σ) :
    Simulated σ α :=
  simulation.runFor limit stepLimit (.start script state)

end Simulation

/-- What a wait on virtual time comes to: its result if it had one, the time, the state, and the
actions that are still to come. -/
structure Waited (σ α β : Type) where
  result : Option β
  time : Nat
  state : σ
  upcoming : List (Nat × α)

/-- Adds an action to those that are to come, after those of its time and before. -/
def schedule {α : Type} (time : Nat) (action : α) : List (Nat × α) → List (Nat × α)
  | [] => [(time, action)]
  | first :: rest =>
    if time < first.1 then (time, action) :: first :: rest else first :: schedule time action rest

/-- Waits until a poll gives a result or the deadline has passed, while the actions that are due are
taken. -/
def waitFor {σ α β : Type} (poll : Nat → σ → Option β × σ) (perform : α → σ → σ) (deadline : Nat) :
    List (Nat × α) → Nat → σ → Waited σ α β
  | [], now, state =>
    match poll now state with
    | (some result, state) => ⟨some result, now, state, []⟩
    | (none, state) =>
      let (result, state) := poll (max now deadline) state
      ⟨result, max now deadline, state, []⟩
  | (time, action) :: rest, now, state =>
    match poll now state with
    | (some result, state) => ⟨some result, now, state, (time, action) :: rest⟩
    | (none, state) =>
      if time ≤ deadline then
        waitFor poll perform deadline rest (max now time) (perform action state)
      else
        let (result, state) := poll (max now deadline) state
        ⟨result, max now deadline, state, (time, action) :: rest⟩

end WindowJoin
