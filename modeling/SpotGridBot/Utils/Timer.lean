import SpotGridBot.Lib.Ordered
import SpotGridBot.Lib.Probing
import Mathlib.Data.Finset.Basic

/-!
# Timers

Tasks wait in a map under their scheduled times; a timer thread takes the first one out, runs it
without the lock and puts a repeated one back. The critical sections under `m_mtx` are functions;
`Running()`, `IsShuttingDown()` and the clock are read into their arguments. Times do not overflow.
-/

namespace SpotGridBot.Utils

/-- A task, without its action and its exception handler. -/
structure Task where
  id : ℤ
  name : String
  scheduledTime : ℤ
  interval : ℤ
deriving DecidableEq

abbrev TaskMap := List (ℤ × Task)

namespace TaskMap

def keys (taskMap : TaskMap) : List ℤ := taskMap.map Prod.fst

def ids (taskMap : TaskMap) : List ℤ := taskMap.map fun entry => entry.2.id

def insert (taskMap : TaskMap) (key : ℤ) (task : Task) : Option TaskMap :=
  if key ∈ taskMap.keys then none
  else some (Ordered.insertBefore (fun entry => key < entry.1) (key, task) taskMap)

def getUnusedScheduleTime (taskMap : TaskMap) (proposedTime : ℤ) : ℤ :=
  Probing.probe taskMap.keys taskMap.keys.length proposedTime

end TaskMap

structure Tests where
  running : Bool
  shuttingDown : Bool
deriving DecidableEq

def Tests.error (tests : Tests) : Option String :=
  if !tests.running then some "Timer not running"
  else if tests.shuttingDown then some "Timer is shutting down"
  else none

inductive TimerRecord where
  | started (taskId : ℤ)
  | cancelled (taskId : ℤ)
deriving DecidableEq

structure Timer where
  taskMap : TaskMap := []
  pendingTasks : Finset ℤ := ∅
  -- The task that each timer thread runs.
  executing : ℕ → Option Task := fun _ => none
  -- The tasks made, the ones that an insertion lost, and what happened to tasks. No function of
  -- the source reads these.
  created : List ℤ := []
  dropped : List ℤ := []
  history : List TimerRecord := []

namespace Timer
variable (timer : Timer)

def insertTask (key : ℤ) (task : Task) : Bool × Timer :=
  match timer.taskMap.insert key task with
  | some taskMap => (true, { timer with taskMap := taskMap })
  | none => (false, { timer with dropped := timer.dropped ++ [task.id] })

/-- `taskId` is what `NewInt64Key()` returns, `random` what the distribution returns. -/
def scheduleAt (tests : Tests) (hasAction : Bool) (taskId : ℤ) (name : String)
    (firstEventTime repeatedInterval random clock clock' : ℤ) : Except String ℤ × Timer :=
  if !hasAction then (.error "No valid action", timer)
  else
    match tests.error with
    | some message => (.error message, timer)
    | none =>
        let firstEventTime := if firstEventTime ≤ 0 then clock + random else firstEventTime
        let scheduledTime := timer.taskMap.getUnusedScheduleTime (max firstEventTime clock')
        let timer := { timer with created := timer.created ++ [taskId] }
        match timer.insertTask scheduledTime ⟨taskId, name, scheduledTime, repeatedInterval⟩ with
        | (true, timer) => (.ok taskId, timer)
        | (false, timer) => (.error "Adding task to map failed", timer)

def schedule (tests : Tests) (hasAction : Bool) (taskId : ℤ) (name : String)
    (firstInterval repeatedInterval random clock clock' clock'' : ℤ) : Except String ℤ × Timer :=
  timer.scheduleAt tests hasAction taskId name (clock + firstInterval) repeatedInterval random
    clock' clock''

def idNotFound (taskId : ℤ) : String := "ID " ++ toString taskId ++ " not found"

def cancel (tests : Tests) (taskId : ℤ) : Except String Unit × Timer :=
  match tests.error with
  | some message => (.error message, timer)
  | none =>
      if taskId ∈ timer.taskMap.ids then
        (.ok (), { timer with
          taskMap := timer.taskMap.eraseP fun entry => entry.2.id == taskId
          history := timer.history ++ [.cancelled taskId] })
      else if taskId ∈ timer.pendingTasks then
        (.ok (), { timer with
          pendingTasks := timer.pendingTasks.erase taskId
          history := timer.history ++ [.cancelled taskId] })
      else (.error (idNotFound taskId), timer)

def cancelAll (tests : Tests) : Except String Unit × Timer :=
  match tests.error with
  | some message => (.error message, timer)
  | none =>
      let cancelled := timer.created.filter fun id =>
        id ∈ timer.taskMap.ids ∨ id ∈ timer.pendingTasks
      (.ok (), { timer with
        taskMap := []
        pendingTasks := ∅
        history := timer.history ++ cancelled.map .cancelled })

/-- The loop of `Reschedule` and `ExecuteDelayed`: the first task that fits moves to a free time. -/
def moveTask (fits : Task → Bool) (proposedTime : ℤ) : Option ℤ × Timer :=
  match timer.taskMap.find? fun entry => fits entry.2 with
  | none => (none, timer)
  | some (_, task) =>
      let scheduledTime := timer.taskMap.getUnusedScheduleTime proposedTime
      let timer := { timer with taskMap := timer.taskMap.eraseP fun entry => fits entry.2 }
      let task := { task with scheduledTime := scheduledTime }
      (some task.id, (timer.insertTask scheduledTime task).2)

def reschedule (tests : Tests) (taskId nextEventTime clock : ℤ) : Except String Unit × Timer :=
  match tests.error with
  | some message => (.error message, timer)
  | none =>
      match timer.moveTask (fun task => task.id == taskId) (max nextEventTime clock) with
      | (some _, timer) => (.ok (), timer)
      | (none, timer) => (.error (idNotFound taskId), timer)

/-- `none` where the call goes on with `Schedule`, which takes the lock again. -/
def executeDelayed (tests : Tests) (hasAction : Bool) (uniqueName : String) (delay clock : ℤ) :
    Option (Except String ℤ) × Timer :=
  if uniqueName = "" then (some (.error "No valid unique name"), timer)
  else if !hasAction then (some (.error "No valid action"), timer)
  else
    match tests.error with
    | some message => (some (.error message), timer)
    | none =>
        match timer.moveTask (fun task => task.name == uniqueName) (clock + delay) with
        | (some taskId, timer) => (some (.ok taskId), timer)
        | (none, timer) => (none, timer)

def takeTask (thread : ℕ) (shuttingDown : Bool) (clock : ℤ) : Timer :=
  match timer.executing thread, timer.taskMap with
  | none, (key, task) :: taskMap =>
      if !shuttingDown ∧ key ≤ clock then
        { timer with
          taskMap := taskMap
          pendingTasks := insert task.id timer.pendingTasks
          executing := Function.update timer.executing thread (some task)
          history := timer.history ++ [.started task.id] }
      else timer
  | _, _ => timer

/-- The action is through. It may have changed the time and the interval of its task, as
`SetScheduledTime`, `SetNextInterval` and `Cancel` of the task do. -/
def finishTask (thread : ℕ) (scheduledTime interval clock : ℤ) : Timer :=
  match timer.executing thread with
  | none => timer
  | some task =>
      let task : Task := { task with scheduledTime := scheduledTime, interval := interval }
      let pendingTasks := timer.pendingTasks
      let timer := { timer with
        pendingTasks := pendingTasks.erase task.id
        executing := Function.update timer.executing thread none }
      if task.id ∈ pendingTasks ∧ task.interval > 0 then
        let scheduledTime := timer.taskMap.getUnusedScheduleTime
          (max (task.scheduledTime + task.interval) clock)
        (timer.insertTask scheduledTime { task with scheduledTime := scheduledTime }).2
      else timer

inductive Event where
  | scheduleAt (tests : Tests) (hasAction : Bool) (taskId : ℤ) (name : String)
      (firstEventTime repeatedInterval random clock clock' : ℤ)
  | schedule (tests : Tests) (hasAction : Bool) (taskId : ℤ) (name : String)
      (firstInterval repeatedInterval random clock clock' clock'' : ℤ)
  | cancel (tests : Tests) (taskId : ℤ)
  | cancelAll (tests : Tests)
  | reschedule (tests : Tests) (taskId nextEventTime clock : ℤ)
  | executeDelayed (tests : Tests) (hasAction : Bool) (uniqueName : String) (delay clock : ℤ)
  | takeTask (thread : ℕ) (shuttingDown : Bool) (clock : ℤ)
  | finishTask (thread : ℕ) (scheduledTime interval clock : ℤ)

def step (timer : Timer) : Event → Timer
  | .scheduleAt tests hasAction taskId name firstEventTime repeatedInterval random clock clock' =>
      (timer.scheduleAt tests hasAction taskId name firstEventTime repeatedInterval random clock
        clock').2
  | .schedule tests hasAction taskId name firstInterval repeatedInterval random clock clock'
      clock'' =>
      (timer.schedule tests hasAction taskId name firstInterval repeatedInterval random clock
        clock' clock'').2
  | .cancel tests taskId => (timer.cancel tests taskId).2
  | .cancelAll tests => (timer.cancelAll tests).2
  | .reschedule tests taskId nextEventTime clock =>
      (timer.reschedule tests taskId nextEventTime clock).2
  | .executeDelayed tests hasAction uniqueName delay clock =>
      (timer.executeDelayed tests hasAction uniqueName delay clock).2
  | .takeTask thread shuttingDown clock => timer.takeTask thread shuttingDown clock
  | .finishTask thread scheduledTime interval clock =>
      timer.finishTask thread scheduledTime interval clock

end Timer

end SpotGridBot.Utils
