import SpotGridBot.Lib.Ordered
import Mathlib.Data.Finset.Basic

/-!
# The background worker

A started `BackgroundWorker` with its threads, the callers of its functions, the autoflush timer
and one `Stop`. The flags are atomic and read without the mutex; a thread between two stages that
hold `m_mtx` keeps it. A step that is not enabled does nothing.
-/

namespace SpotGridBot.Worker

/-- An item of the queue; the tickets number the accepted items. -/
structure Element where
  ticket : ℕ
  sequenceTag : Option ℕ
deriving DecidableEq

/-- What a worker thread does next. `atEnd` is `it == m_queue.end()`. -/
inductive Stage where
  -- Locks `m_mtx` for the first time.
  | start
  | loop (atEnd : Bool)
  | idleTest (atEnd : Bool)
  | idleWait
  -- Blocked in `m_cv`.
  | idle
  | idleWoken
  -- `!m_shutdown` and `IsPaused()` are read one after the other.
  | pauseTest
  | pauseRead
  | pauseWait
  -- Blocked in `m_cvPause`.
  | paused
  | pauseWoken
  | scan
  | executing (elem : Element)
  | exited
deriving DecidableEq

namespace Stage

def locked : Stage → Bool
  | loop _ | idleTest _ | idleWait | pauseTest | pauseRead | pauseWait | scan => true
  | _ => false

end Stage

inductive Stopper where
  | absent
  | flagged (cancelQueue detachThreads : Bool)
  | queueDone (detachThreads : Bool)
  | sequencesDone (detachThreads : Bool)
  | notified (detachThreads : Bool)
  | joining (detachThreads : Bool) (thread : ℕ)
  | returned
deriving DecidableEq

structure BackgroundWorker where
  threads : ℕ
  maxQueueSize : ℕ
  autoflush : Bool := false
  batchSize : ℕ := 0
  queue : List Element := []
  openSequences : Finset ℕ := ∅
  shutdown : Bool := false
  pause : Bool := false
  mtx : Option ℕ := none
  workers : ℕ → Stage := fun _ => .start
  -- The calls of `Enqueue` that are past their test of `m_shutdown`.
  enqueuing : ℕ := 0
  stopper : Stopper := .absent
  -- The calls of `UnPause` that are still to notify.
  unpausing : ℕ := 0
  -- The items that were accepted, started and finished, and whether an `UnPause` completed since
  -- the last `Pause`. No function of the source reads these.
  accepted : List Element := []
  started : List Element := []
  finished : List Element := []
  resumed : Bool := false

namespace BackgroundWorker
variable (s : BackgroundWorker)

def acceptable (elem : Element) : Bool :=
  match elem.sequenceTag with
  | none => true
  | some tag => tag ∉ s.openSequences

def openSequence (elem : Element) : Finset ℕ :=
  match elem.sequenceTag with
  | none => s.openSequences
  | some tag => insert tag s.openSequences

def closeSequence (elem : Element) : Finset ℕ :=
  match elem.sequenceTag with
  | none => s.openSequences
  | some tag => s.openSequences.erase tag

def moveTo (w : ℕ) (stage : Stage) : BackgroundWorker :=
  { s with workers := Function.update s.workers w stage }

def lock (w : ℕ) (stage : Stage) : BackgroundWorker :=
  if s.mtx = none then { s.moveTo w stage with mtx := some w } else s

def unlock (w : ℕ) (stage : Stage) : BackgroundWorker := { s.moveTo w stage with mtx := none }

def take (w : ℕ) (elem : Element) : BackgroundWorker :=
  { s.unlock w (.executing elem) with
    queue := s.queue.eraseP s.acceptable
    openSequences := s.openSequence elem
    started := s.started ++ [elem] }

def finish (w : ℕ) (elem : Element) : BackgroundWorker :=
  { s.moveTo w (.loop s.queue.isEmpty) with
    mtx := some w
    openSequences := s.closeSequence elem
    finished := s.finished ++ [elem] }

def workerStep (w : ℕ) : BackgroundWorker :=
  match s.workers w with
  | .start => s.lock w (.loop s.queue.isEmpty)
  | .loop atEnd =>
      if s.shutdown ∧ atEnd then s.unlock w .exited else s.moveTo w (.idleTest atEnd)
  | .idleTest atEnd => s.moveTo w (if !s.shutdown ∧ atEnd then .idleWait else .pauseTest)
  | .idleWait => s.unlock w .idle
  | .idle => s
  | .idleWoken => s.lock w .pauseTest
  | .pauseTest => s.moveTo w (if s.shutdown then .scan else .pauseRead)
  | .pauseRead => s.moveTo w (if s.pause then .pauseWait else .scan)
  | .pauseWait => s.unlock w .paused
  | .paused => s
  | .pauseWoken => s.lock w .scan
  | .scan =>
      match s.queue.find? s.acceptable with
      | none => s.moveTo w (.loop true)
      | some elem => s.take w elem
  | .executing elem => if s.mtx = none then s.finish w elem else s
  | .exited => s

/-- `notify_one` wakes a blocked thread if there is one. -/
def Wakes : Option ℕ → Prop
  | some w => w < s.threads ∧ s.workers w = .idle
  | none => ∀ w < s.threads, s.workers w ≠ .idle

instance : (woken : Option ℕ) → Decidable (s.Wakes woken)
  | some w => inferInstanceAs (Decidable (w < s.threads ∧ s.workers w = .idle))
  | none => inferInstanceAs (Decidable (∀ w < s.threads, s.workers w ≠ .idle))

def wake : Option ℕ → BackgroundWorker
  | some w => s.moveTo w .idleWoken
  | none => s

def notifyOne (woken : Option ℕ) : Option BackgroundWorker :=
  if s.Wakes woken then some (s.wake woken) else none

def testShutdown : BackgroundWorker :=
  if !s.shutdown then { s with enqueuing := s.enqueuing + 1 } else s

def push (sequenceTag : Option ℕ) : BackgroundWorker :=
  let elem : Element := ⟨s.accepted.length, sequenceTag⟩
  { s with
    queue := s.queue ++ [elem]
    accepted := s.accepted ++ [elem]
    enqueuing := s.enqueuing - 1 }

def enqueueTagged (sequenceTag : Option ℕ) (woken : Option ℕ) : BackgroundWorker :=
  if s.enqueuing = 0 ∨ s.mtx ≠ none then s
  else if s.queue.length < s.maxQueueSize then
    if s.autoflush ∧ s.queue.length < s.batchSize then s.push sequenceTag
    else ((s.push sequenceTag).notifyOne woken).getD s
  else { s with enqueuing := s.enqueuing - 1 }

def clearQueue : BackgroundWorker := if s.mtx = none then { s with queue := [] } else s

def onFlush (woken : Option ℕ) : BackgroundWorker :=
  if s.mtx = none ∧ s.queue ≠ [] then (s.notifyOne woken).getD s else s

def setPause : BackgroundWorker := { s with pause := true, resumed := false }

def clearPause : BackgroundWorker := { s with pause := false, unpausing := s.unpausing + 1 }

def notifyAll (blocked woken : Stage) : ℕ → Stage := fun w =>
  if s.workers w = blocked then woken else s.workers w

def notifyPause : BackgroundWorker :=
  if s.unpausing = 0 then s
  else { s with
    workers := s.notifyAll .paused .pauseWoken
    unpausing := s.unpausing - 1
    resumed := s.resumed || !s.pause }

def spuriousWake (w : ℕ) : BackgroundWorker :=
  match s.workers w with
  | .idle => s.moveTo w .idleWoken
  | .paused => s.moveTo w .pauseWoken
  | _ => s

def stop (cancelQueue detachThreads : Bool) : BackgroundWorker :=
  if s.stopper = .absent ∧ 0 < s.threads then
    { s with shutdown := true, stopper := .flagged cancelQueue detachThreads }
  else s

def stopStep : BackgroundWorker :=
  match s.stopper with
  | .absent => s
  | .flagged true detachThreads =>
      if s.mtx = none then { s with queue := [], stopper := .queueDone detachThreads } else s
  | .flagged false detachThreads => { s with stopper := .queueDone detachThreads }
  | .queueDone true =>
      if s.mtx = none then { s with openSequences := ∅, stopper := .sequencesDone true } else s
  | .queueDone false => { s with stopper := .sequencesDone false }
  | .sequencesDone detachThreads =>
      { s with workers := s.notifyAll .idle .idleWoken, stopper := .notified detachThreads }
  | .notified detachThreads =>
      { s with workers := s.notifyAll .paused .pauseWoken, stopper := .joining detachThreads 0 }
  | .joining detachThreads thread =>
      if thread < s.threads then
        if detachThreads ∨ s.workers thread = .exited then
          { s with stopper := .joining detachThreads (thread + 1) }
        else s
      else { s with shutdown := false, stopper := .returned }
  | .returned => s

inductive Event where
  | worker (w : ℕ)
  | testShutdown
  | enqueueTagged (sequenceTag : Option ℕ) (woken : Option ℕ)
  | clearQueue
  | onFlush (woken : Option ℕ)
  | setPause
  | clearPause
  | notifyPause
  | spuriousWake (w : ℕ)
  | stop (cancelQueue detachThreads : Bool)
  | stopStep

def step (s : BackgroundWorker) : Event → BackgroundWorker
  | .worker w => if w < s.threads then s.workerStep w else s
  | .testShutdown => s.testShutdown
  | .enqueueTagged sequenceTag woken => s.enqueueTagged sequenceTag woken
  | .clearQueue => s.clearQueue
  | .onFlush woken => s.onFlush woken
  | .setPause => s.setPause
  | .clearPause => s.clearPause
  | .notifyPause => s.notifyPause
  | .spuriousWake w => s.spuriousWake w
  | .stop cancelQueue detachThreads => s.stop cancelQueue detachThreads
  | .stopStep => s.stopStep

/-- `Start`, with the size of the queue and the autoflush of the constructor. -/
def startWith (threads maxQueueSize : ℕ) (autoflush : Bool) (batchSize : ℕ) : BackgroundWorker where
  threads := threads
  maxQueueSize := maxQueueSize
  autoflush := autoflush
  batchSize := batchSize

end BackgroundWorker

end SpotGridBot.Worker
