import CapabilityHub.Data.Dict
import CapabilityHub.Data.Runs

/-! # Provider workers

The calls of `ProcessProviderSupervisor.execute` and `cancel`, step by step: a call starts its
worker, registers it under the lock or rejects it, receives the result, closes the process and takes
the worker off the register under the lock again. What the worker does is its own affair, and a
`cancel` holds the lock while it stops a worker that its call may close.
-/

namespace CapabilityHub.Supervision

/-- A worker process. -/
structure Process where
  alive : Bool := true
  /-- It has begun to run provider code. -/
  entered : Bool := false
  /-- The provider code has returned. -/
  left : Bool := false
  /-- `process.close()`: every further method raises. -/
  closed : Bool := false
  deriving DecidableEq

namespace Process

/-- The process runs provider code. -/
def InCode (process : Process) : Prop :=
  process.alive = true ∧ process.entered = true ∧ process.left = false

instance {process : Process} : Decidable process.InCode := inferInstanceAs (Decidable (_ ∧ _ ∧ _))

/-- `_stop`, which ends the process or does not. -/
def stop (process : Process) (killed : Bool) : Process :=
  if killed then { process with alive := false } else process

/-- The cleanup of a process: it is closed where it ended. -/
def cleanUp (process : Process) (killed : Bool) : Process :=
  let stopped := process.stop killed
  if stopped.alive then stopped else { stopped with closed := true }

end Process

/-- Where a call of `execute` stands. -/
inductive Phase where
  | started
  /-- The job of the process could not be made. -/
  | failed
  /-- `provider_worker_conflict`. -/
  | rejected
  | registered
  | received
  | closed
  | over
  deriving DecidableEq

/-- A call of `execute`, from the start of its worker on. -/
structure Execution where
  executionRef : String
  phase : Phase := .started
  process : Process := {}
  /-- A `cancel` has stopped its worker. -/
  cancelled : Bool := false
  deriving DecidableEq

structure Supervisor where
  executions : Dict Nat Execution := ∅
  started : Nat := 0
  /-- `_workers`. -/
  workers : Dict String Nat := ∅
  /-- `_cancelled`. -/
  cancelled : List String := []
  /-- The worker that a `cancel` is stopping, under the lock. -/
  stopping : Option Nat := none
  /-- What the calls of `cancel` returned; `none` where one raised. -/
  answers : List (Option Bool) := []
  /-- The executions that were registered and taken off the register. -/
  registrations : List Nat := []
  deregistrations : List Nat := []

inductive Action where
  | start (executionRef : String)
  /-- The worker begins to run provider code, returns from it, or ends. -/
  | enter (number : Nat)
  | leave (number : Nat)
  | exit (number : Nat)
  | failJob (number : Nat) (killed : Bool)
  | register (number : Nat) (killed : Bool)
  | receive (number : Nat) (killed : Bool)
  | close (number : Nat) (killed : Bool)
  | deregister (number : Nat)
  | cancel (executionRef : String)
  /-- A part of `_stop` in a `cancel`, which may be the last one. -/
  | stop (killed last : Bool)

namespace Supervisor

variable (supervisor : Supervisor)

/-- The supervisor with another state of the execution. -/
def put (number : Nat) (execution : Execution) : Supervisor :=
  { supervisor with executions := supervisor.executions.set number execution }

/-- The lock is taken, and the worker registered unless the reference is in use. -/
def register (number : Nat) (execution : Execution) (killed : Bool) : Supervisor :=
  match supervisor.workers.get? execution.executionRef with
  | some _ => supervisor.put number
      { execution with phase := .rejected, process := execution.process.stop killed }
  | none => { supervisor.put number { execution with phase := .registered } with
      workers := supervisor.workers.set execution.executionRef number
      registrations := number :: supervisor.registrations }

/-- The end of `finally`. -/
def deregister (number : Nat) (execution : Execution) : Supervisor :=
  { supervisor.put number { execution with phase := .over } with
    workers := supervisor.workers.erase execution.executionRef
    cancelled := supervisor.cancelled.filter (· ≠ execution.executionRef)
    deregistrations := number :: supervisor.deregistrations }

/-- A `cancel` that takes the lock and finds the worker. -/
def cancel (executionRef : String) (number : Nat) (execution : Execution) : Supervisor :=
  if execution.process.closed then { supervisor with answers := none :: supervisor.answers }
  else if execution.process.alive then
    { supervisor.put number { execution with cancelled := true } with
      cancelled := executionRef :: supervisor.cancelled
      stopping := some number }
  else { supervisor with answers := some false :: supervisor.answers }

/-- A part of `_stop` in a `cancel`. -/
def stopPart (number : Nat) (execution : Execution) (killed last : Bool) : Supervisor :=
  if execution.process.closed then
    { supervisor with answers := none :: supervisor.answers, stopping := none }
  else
    let stopped := supervisor.put number
      { execution with process := execution.process.stop killed }
    if last then { stopped with answers := some true :: supervisor.answers, stopping := none }
    else stopped

def step : Action → Supervisor
  | .start executionRef =>
      { supervisor.put supervisor.started { executionRef := executionRef } with
        started := supervisor.started + 1 }
  | .enter number =>
      match supervisor.executions.get? number with
      | some execution =>
          if execution.process.alive then
            supervisor.put number
              { execution with process := { execution.process with entered := true } }
          else supervisor
      | none => supervisor
  | .leave number =>
      match supervisor.executions.get? number with
      | some execution =>
          if execution.process.InCode then
            supervisor.put number
              { execution with process := { execution.process with left := true } }
          else supervisor
      | none => supervisor
  | .exit number =>
      match supervisor.executions.get? number with
      | some execution =>
          supervisor.put number { execution with process := execution.process.stop true }
      | none => supervisor
  | .failJob number killed =>
      match supervisor.executions.get? number with
      | some execution =>
          if execution.phase = .started then
            supervisor.put number
              { execution with phase := .failed, process := execution.process.cleanUp killed }
          else supervisor
      | none => supervisor
  | .register number killed =>
      match supervisor.executions.get? number with
      | some execution =>
          if execution.phase = .started ∧ supervisor.stopping = none then
            supervisor.register number execution killed
          else supervisor
      | none => supervisor
  | .receive number killed =>
      match supervisor.executions.get? number with
      | some execution =>
          if execution.phase = .registered then
            supervisor.put number
              { execution with phase := .received, process := execution.process.stop killed }
          else supervisor
      | none => supervisor
  | .close number killed =>
      match supervisor.executions.get? number with
      | some execution =>
          if execution.phase = .received then
            supervisor.put number
              { execution with phase := .closed, process := execution.process.cleanUp killed }
          else supervisor
      | none => supervisor
  | .deregister number =>
      match supervisor.executions.get? number with
      | some execution =>
          if execution.phase = .closed ∧ supervisor.stopping = none then
            supervisor.deregister number execution
          else supervisor
      | none => supervisor
  | .cancel executionRef =>
      if supervisor.stopping = none then
        match supervisor.workers.get? executionRef with
        | none => { supervisor with answers := some false :: supervisor.answers }
        | some number =>
            match supervisor.executions.get? number with
            | some execution => supervisor.cancel executionRef number execution
            | none => supervisor
      else supervisor
  | .stop killed last =>
      match supervisor.stopping with
      | none => supervisor
      | some number =>
          match supervisor.executions.get? number with
          | some execution => supervisor.stopPart number execution killed last
          | none => supervisor

end Supervisor

end CapabilityHub.Supervision
