import SpotGridBot.Core.Listener
import SpotGridBot.Worker.Fifo

/-!
# From the socket to the handlers

The listener thread of a connection with the message processor it feeds: the listener and the one
thread of the queue take their steps in any order, and `Disconnect` and `Stop` come at any time.
-/

namespace SpotGridBot.Core
open Runs Worker BackgroundWorker

/-- The queue of a message processor. `enqueuing` is the call of `Enqueue` that is past its test of
`m_shutdown`, `arguments` are those of the accepted items. -/
structure HandlerQueue (Document Handler : Type*) where
  worker : BackgroundWorker := startWith 1 100000 false 0
  enqueuing : Option (Document × Handler) := none
  arguments : List (Document × Handler) := []

namespace HandlerQueue
variable {Document Handler : Type*} (handlerOf : Document → Option Handler)
  (q : HandlerQueue Document Handler)

def processMessage (q : HandlerQueue Document Handler) (document : Document) :
    HandlerQueue Document Handler :=
  match handlerOf document with
  | none => q
  | some handler =>
      if !q.worker.shutdown then
        { q with worker := q.worker.testShutdown, enqueuing := some (document, handler) }
      else q

def enqueue (woken : Option ℕ) : HandlerQueue Document Handler :=
  match q.enqueuing with
  | none => q
  | some call =>
      let worker := q.worker.enqueueTagged none woken
      if worker.enqueuing = q.worker.enqueuing then q
      else if worker.accepted.length = q.worker.accepted.length then
        { q with worker := worker, enqueuing := none }
      else { worker := worker, enqueuing := none, arguments := q.arguments ++ [call] }

def handled : List (Document × Handler) :=
  q.worker.started.filterMap fun elem => q.arguments[elem.ticket]?

def waiting : List (Document × Handler) :=
  q.worker.queue.filterMap fun elem => q.arguments[elem.ticket]?

end HandlerQueue

namespace Pipeline
variable {Document Handler : Type*} (parse : String → Option Document)
  (handlerOf : Document → Option Handler)

abbrev Connection (Document Handler : Type*) := Listener Document (HandlerQueue Document Handler)

inductive Event where
  | listener (event : Listener.Event)
  | enqueue (woken : Option ℕ)
  -- The thread of the queue.
  | thread
  | spuriousWake
  -- `MessageProcessor::Stop`.
  | stop
  | stopStep

def work (l : Connection Document Handler) (event : BackgroundWorker.Event) :
    Connection Document Handler :=
  { l with processor := { l.processor with worker := l.processor.worker.step event } }

def step (l : Connection Document Handler) : Event → Connection Document Handler
  | .listener event => l.step parse (HandlerQueue.processMessage handlerOf) event
  | .enqueue woken => { l with processor := l.processor.enqueue woken }
  | .thread => work l (.worker 0)
  | .spuriousWake => work l (.spuriousWake 0)
  | .stop => work l (.stop true false)
  | .stopStep => work l .stopStep

/-- The listener is one thread: it goes round its loop only when it does not enqueue. -/
def Enabled (l : Connection Document Handler) : Event → Prop
  | .listener .test => l.processor.enqueuing = none
  | .listener (.turn _) => l.processor.enqueuing = none
  | _ => True

def listenerEvents (events : List Event) : List Listener.Event :=
  events.filterMap fun event =>
    match event with
    | .listener event => some event
    | _ => none

def call (document : Document) : Option (Document × Handler) :=
  (handlerOf document).map fun handler => (document, handler)

end Pipeline

namespace HandlerQueue
variable {Document Handler : Type*} {handlerOf : Document → Option Handler}
  {q : HandlerQueue Document Handler}

structure Linked (asked : List (Document × Handler)) (q : HandlerQueue Document Handler) :
    Prop where
  sound : q.worker.Sound 100000
  fifo : q.worker.Fifo
  threads : q.worker.threads = 1
  attached : q.worker.stopper.detaches = false
  numbered : q.arguments.length = q.worker.accepted.length
  calls : q.worker.enqueuing = q.enqueuing.toList.length
  inOrder : (q.arguments ++ q.enqueuing.toList).Sublist asked

theorem filterMap_range_getElem? {α : Type*} (as : List α) :
    (List.range as.length).filterMap (fun i => as[i]?) = as := by
  induction as with
  | nil => rfl
  | cons a as ih =>
      have first : (fun i => (a :: as)[i]?) 0 = some a := rfl
      rw [List.length_cons, List.range_succ_eq_map, List.filterMap_cons_some first,
        List.filterMap_map]
      exact congrArg (a :: ·) ih

namespace Linked
variable {asked : List (Document × Handler)}

theorem arguments_eq (linked : q.Linked asked) :
    q.worker.accepted.filterMap (fun elem => q.arguments[elem.ticket]?) = q.arguments := by
  calc q.worker.accepted.filterMap (fun elem => q.arguments[elem.ticket]?)
      = (q.worker.accepted.map Element.ticket).filterMap fun i => q.arguments[i]? := by
        rw [List.filterMap_map]
        rfl
    _ = q.arguments := by
        rw [linked.sound.numbered, ← linked.numbered, filterMap_range_getElem?]

theorem handled_waiting (linked : q.Linked asked) :
    (q.handled ++ q.waiting).Sublist q.arguments := by
  unfold handled waiting
  rw [← List.filterMap_append]
  have sub := linked.fifo.inOrder.filterMap fun elem => q.arguments[elem.ticket]?
  rwa [linked.arguments_eq] at sub

theorem processMessage (linked : q.Linked asked) (idle : q.enqueuing = none) (document : Document) :
    (q.processMessage handlerOf document).Linked
      (asked ++ (Pipeline.call handlerOf document).toList) := by
  have inOrder := linked.inOrder
  rw [idle] at inOrder
  unfold HandlerQueue.processMessage Pipeline.call
  cases handlerOf document with
  | none => simpa using linked
  | some handler =>
      simp only
      split_ifs with running
      · have entered : q.worker.testShutdown =
            { q.worker with enqueuing := q.worker.enqueuing + 1 } := if_pos running
        have plain : Event.Plain .testShutdown := trivial
        have effect := (q.worker.step_spec .testShutdown).effect
        constructor
        · exact linked.sound.effect effect linked.attached
        · exact linked.fifo.effect plain effect linked.attached
        · rw [entered]
          exact linked.threads
        · rw [entered]
          exact linked.attached
        · rw [entered]
          exact linked.numbered
        · rw [entered]
          simp [linked.calls, idle]
        · simpa using inOrder.append (List.Sublist.refl [(document, handler)])
      · exact { linked with
          inOrder := linked.inOrder.trans (List.sublist_append_left asked _) }

theorem enqueueTagged_cases (s : BackgroundWorker) (woken : Option ℕ) :
    s.enqueueTagged none woken = s ∨
    (s.enqueuing ≠ 0 ∧ s.maxQueueSize ≤ s.queue.length ∧
      s.enqueueTagged none woken = { s with enqueuing := s.enqueuing - 1 }) ∨
    (s.enqueuing ≠ 0 ∧ (s.enqueueTagged none woken).enqueuing = s.enqueuing - 1 ∧
      (s.enqueueTagged none woken).threads = s.threads ∧
      (s.enqueueTagged none woken).stopper = s.stopper ∧
      (s.enqueueTagged none woken).shutdown = s.shutdown ∧
      (s.enqueueTagged none woken).accepted = s.accepted ++ [⟨s.accepted.length, none⟩]) := by
  have pushed : ∀ woken, ((s.push none).wake woken).enqueuing = s.enqueuing - 1 ∧
      ((s.push none).wake woken).threads = s.threads ∧
      ((s.push none).wake woken).stopper = s.stopper ∧
      ((s.push none).wake woken).shutdown = s.shutdown ∧
      ((s.push none).wake woken).accepted = s.accepted ++ [⟨s.accepted.length, none⟩] := by
    intro woken
    cases woken <;> exact ⟨rfl, rfl, rfl, rfl, rfl⟩
  unfold BackgroundWorker.enqueueTagged
  split_ifs with disabled room waits
  · exact .inl rfl
  · push Not at disabled
    exact .inr (.inr ⟨disabled.1, pushed none⟩)
  · push Not at disabled
    unfold notifyOne
    split_ifs with wakes
    · exact .inr (.inr ⟨disabled.1, pushed woken⟩)
    · exact .inl rfl
  · push Not at disabled
    exact .inr (.inl ⟨disabled.1, Nat.le_of_not_lt room, rfl⟩)

theorem enqueue_cases (linked : q.Linked asked) (woken : Option ℕ) :
    q.enqueue woken = q ∨
    ∃ call, q.enqueuing = some call ∧
      (100000 ≤ q.worker.queue.length ∧
        q.worker.enqueueTagged none woken = { q.worker with enqueuing := 0 } ∧
        q.enqueue woken =
          { q with worker := { q.worker with enqueuing := 0 }, enqueuing := none } ∨
      (q.worker.enqueueTagged none woken).enqueuing = 0 ∧
        (q.worker.enqueueTagged none woken).threads = q.worker.threads ∧
        (q.worker.enqueueTagged none woken).stopper = q.worker.stopper ∧
        (q.worker.enqueueTagged none woken).shutdown = q.worker.shutdown ∧
        (q.worker.enqueueTagged none woken).accepted =
          q.worker.accepted ++ [⟨q.worker.accepted.length, none⟩] ∧
        q.enqueue woken =
          ⟨q.worker.enqueueTagged none woken, none, q.arguments ++ [call]⟩) := by
  unfold HandlerQueue.enqueue
  cases called : q.enqueuing with
  | none => exact .inl rfl
  | some call =>
      have calls : q.worker.enqueuing = 1 := by
        rw [linked.calls, called]
        rfl
      rcases enqueueTagged_cases q.worker woken with same | ⟨-, full, refused⟩ |
        ⟨-, fewer, threads, stopper, shutdown, accepted⟩
      · exact .inl (by simp [same])
      · rw [calls] at refused
        rw [linked.sound.sameSize] at full
        refine .inr ⟨call, rfl, .inl ⟨full, refused, ?_⟩⟩
        simp [refused, calls]
      · rw [calls] at fewer
        refine .inr ⟨call, rfl, .inr ⟨fewer, threads, stopper, shutdown, accepted, ?_⟩⟩
        simp [fewer, accepted, calls]

theorem enqueue (linked : q.Linked asked) (woken : Option ℕ) : (q.enqueue woken).Linked asked := by
  have effect := (q.worker.step_spec (.enqueueTagged none woken)).effect
  have plain : Event.Plain (.enqueueTagged none woken) := rfl
  have sound := linked.sound.effect effect linked.attached
  have fifo := linked.fifo.effect plain effect linked.attached
  have inOrder := linked.inOrder
  rcases linked.enqueue_cases woken with same | ⟨call, called, ⟨-, refused, enqueued⟩ |
    ⟨fewer, threads, stopper, -, accepted, enqueued⟩⟩
  · rw [same]
    exact linked
  · change Sound 100000 (q.worker.enqueueTagged none woken) at sound
    change Fifo (q.worker.enqueueTagged none woken) at fifo
    rw [refused] at sound fifo
    rw [enqueued]
    exact ⟨sound, fifo, linked.threads, linked.attached, linked.numbered, rfl,
      by simpa using (List.sublist_append_left _ _).trans inOrder⟩
  · rw [called] at inOrder
    rw [enqueued]
    refine ⟨sound, fifo, threads.trans linked.threads,
      (congrArg Stopper.detaches stopper).trans linked.attached, ?_, fewer, ?_⟩
    · simp [accepted, linked.numbered]
    · simpa using inOrder

theorem work (linked : q.Linked asked) {event : BackgroundWorker.Event} (plain : event.Plain)
    (joins : event.detaches = false)
    (accepted : (q.worker.step event).accepted = q.worker.accepted)
    (enqueuing : (q.worker.step event).enqueuing = q.worker.enqueuing)
    (threads : (q.worker.step event).threads = q.worker.threads) :
    Linked asked { q with worker := q.worker.step event } where
  sound := linked.sound.effect (q.worker.step_spec event).effect linked.attached
  fifo := linked.fifo.effect plain (q.worker.step_spec event).effect linked.attached
  threads := threads.trans linked.threads
  attached := (q.worker.step_spec event).attached joins linked.attached
  numbered := linked.numbered.trans (congrArg List.length accepted).symm
  calls := enqueuing.trans linked.calls
  inOrder := linked.inOrder

end Linked

structure Whole (asked : List (Document × Handler)) (q : HandlerQueue Document Handler) : Prop where
  complete : q.worker.Complete
  running : q.worker.shutdown = false
  unstopped : q.worker.stopper = .absent
  all : q.arguments ++ q.enqueuing.toList = asked

namespace Whole
variable {asked : List (Document × Handler)}

theorem processMessage (whole : q.Whole asked) (idle : q.enqueuing = none) (document : Document) :
    (q.processMessage handlerOf document).Whole
      (asked ++ (Pipeline.call handlerOf document).toList) := by
  have all := whole.all
  rw [idle] at all
  unfold HandlerQueue.processMessage Pipeline.call
  cases handlerOf document with
  | none => simpa using whole
  | some handler =>
      have running : (!q.worker.shutdown) = true := by simp [whole.running]
      have entered : q.worker.testShutdown =
          { q.worker with enqueuing := q.worker.enqueuing + 1 } := if_pos running
      simp only
      rw [if_pos running, entered]
      refine ⟨whole.complete, whole.running, whole.unstopped, ?_⟩
      simpa using all

theorem enqueue (whole : q.Whole asked) (linked : q.Linked asked)
    (room : q.worker.queue.length < 100000) (woken : Option ℕ) : (q.enqueue woken).Whole asked := by
  have effect := (q.worker.step_spec (.enqueueTagged none woken)).effect
  have kept : keepsQueue q.worker.stopper = true := by rw [whole.unstopped]; rfl
  have keeps : Event.Keeps (.enqueueTagged none woken) := trivial
  have complete := effect.complete linked.fifo whole.complete keeps kept linked.attached
  have all := whole.all
  rcases linked.enqueue_cases woken with same | ⟨call, called, ⟨full, -, -⟩ |
    ⟨-, -, stopper, shutdown, -, enqueued⟩⟩
  · rw [same]
    exact whole
  · omega
  · rw [called] at all
    rw [enqueued]
    exact ⟨complete, shutdown.trans whole.running, stopper.trans whole.unstopped,
      by simpa using all⟩

end Whole

end HandlerQueue

namespace Pipeline
variable {Document Handler : Type*} (parse : String → Option Document)
  (handlerOf : Document → Option Handler)

structure Frame (s s' : BackgroundWorker) : Prop where
  accepted : s'.accepted = s.accepted
  enqueuing : s'.enqueuing = s.enqueuing
  threads : s'.threads = s.threads

theorem workerStep_frame (s : BackgroundWorker) :
    Frame s (s.step (.worker 0)) ∧ (s.step (.worker 0)).shutdown = s.shutdown ∧
      (s.step (.worker 0)).stopper = s.stopper := by
  change Frame s (if 0 < s.threads then _ else s) ∧ (if 0 < s.threads then _ else s).shutdown = _ ∧
    (if 0 < s.threads then _ else s).stopper = _
  split_ifs with started
  · have moved := s.workerStep_spec 0
    generalize s.workerStep 0 = s' at moved
    cases moved <;> exact ⟨⟨rfl, rfl, rfl⟩, rfl, rfl⟩
  · exact ⟨⟨rfl, rfl, rfl⟩, rfl, rfl⟩

theorem spuriousWake_frame (s : BackgroundWorker) :
    Frame s (s.step (.spuriousWake 0)) ∧ (s.step (.spuriousWake 0)).shutdown = s.shutdown ∧
      (s.step (.spuriousWake 0)).stopper = s.stopper := by
  change Frame s (s.spuriousWake 0) ∧ (s.spuriousWake 0).shutdown = _ ∧
    (s.spuriousWake 0).stopper = _
  unfold spuriousWake
  split <;> exact ⟨⟨rfl, rfl, rfl⟩, rfl, rfl⟩

theorem stop_frame (s : BackgroundWorker) : Frame s (s.step (.stop true false)) := by
  change Frame s (s.stop true false)
  unfold BackgroundWorker.stop
  split_ifs <;> exact ⟨rfl, rfl, rfl⟩

theorem stopStep_frame (s : BackgroundWorker) : Frame s (s.step .stopStep) := by
  change Frame s s.stopStep
  unfold BackgroundWorker.stopStep
  split
  · exact ⟨rfl, rfl, rfl⟩
  · split_ifs <;> exact ⟨rfl, rfl, rfl⟩
  · exact ⟨rfl, rfl, rfl⟩
  · split_ifs <;> exact ⟨rfl, rfl, rfl⟩
  · exact ⟨rfl, rfl, rfl⟩
  · exact ⟨rfl, rfl, rfl⟩
  · exact ⟨rfl, rfl, rfl⟩
  · split_ifs <;> exact ⟨rfl, rfl, rfl⟩
  · exact ⟨rfl, rfl, rfl⟩

def Linked (handlerOf : Document → Option Handler) (l : Connection Document Handler) : Prop :=
  l.processor.Linked (l.handed.filterMap (call handlerOf))

def Whole (handlerOf : Document → Option Handler) (l : Connection Document Handler) : Prop :=
  l.processor.Whole (l.handed.filterMap (call handlerOf))

theorem test_keeps (l : Connection Document Handler) :
    l.test.handed = l.handed ∧ l.test.processor = l.processor := by
  unfold Listener.test
  split_ifs <;> exact ⟨rfl, rfl⟩

theorem turn_cases (l : Connection Document Handler) (t : Turn) :
    ((l.turn parse (HandlerQueue.processMessage handlerOf) t).handed = l.handed ∧
      (l.turn parse (HandlerQueue.processMessage handlerOf) t).processor = l.processor) ∨
    ∃ document,
      (l.turn parse (HandlerQueue.processMessage handlerOf) t).handed = l.handed ++ [document] ∧
      (l.turn parse (HandlerQueue.processMessage handlerOf) t).processor =
        l.processor.processMessage handlerOf document := by
  have caught : ∀ l : Connection Document Handler,
      l.caught.handed = l.handed ∧ l.caught.processor = l.processor := by
    intro l
    unfold Listener.caught
    dsimp only
    split_ifs <;> exact ⟨rfl, rfl⟩
  unfold Listener.turn
  split_ifs with receiving
  · obtain ⟨received, sends⟩ := t
    unfold Listener.handle
    cases received with
    | thrown => exact .inl (caught _)
    | frame flags payload =>
        dsimp only
        split_ifs
        · exact .inl ⟨rfl, rfl⟩
        · exact .inl (caught _)
        · exact .inl ⟨rfl, rfl⟩
        · exact .inl ⟨rfl, rfl⟩
        · exact .inl (caught _)
        · cases parse payload with
          | none => exact .inl (caught _)
          | some document => exact .inr ⟨document, rfl, rfl⟩
        · exact .inl ⟨rfl, rfl⟩
  · exact .inl ⟨rfl, rfl⟩

theorem asked_concat (handed : List Document) (document : Document) :
    (handed ++ [document]).filterMap (call handlerOf) =
      handed.filterMap (call handlerOf) ++ (call handlerOf document).toList := by
  rw [List.filterMap_append]
  cases found : call handlerOf document <;> simp [found]

theorem turn_keeps (Inv : List (Document × Handler) → HandlerQueue Document Handler → Prop)
    (each : ∀ asked q document, Inv asked q → q.enqueuing = none →
      Inv (asked ++ (call handlerOf document).toList) (q.processMessage handlerOf document))
    {l : Connection Document Handler} (inv : Inv (l.handed.filterMap (call handlerOf)) l.processor)
    (idle : l.processor.enqueuing = none) (t : Turn) :
    Inv ((l.turn parse (HandlerQueue.processMessage handlerOf) t).handed.filterMap (call handlerOf))
      (l.turn parse (HandlerQueue.processMessage handlerOf) t).processor := by
  rcases turn_cases parse handlerOf l t with ⟨handed, processor⟩ | ⟨document, handed, processor⟩
  · rwa [handed, processor]
  · rw [handed, processor, asked_concat]
    exact each _ _ document inv idle

theorem Linked.step {l : Connection Document Handler} (linked : Linked handlerOf l) (event : Event)
    (enabled : Enabled l event) : Linked handlerOf (Pipeline.step parse handlerOf l event) := by
  cases event with
  | listener event =>
      cases event with
      | test =>
          obtain ⟨handed, processor⟩ := test_keeps l
          change HandlerQueue.Linked (l.test.handed.filterMap (call handlerOf)) l.test.processor
          rwa [handed, processor]
      | turn t =>
          exact turn_keeps parse handlerOf (fun asked q => q.Linked asked)
            (fun asked q document linked idle => linked.processMessage idle document)
            linked enabled t
      | disconnect => exact linked
  | enqueue woken => exact HandlerQueue.Linked.enqueue linked woken
  | thread =>
      have frame := (workerStep_frame l.processor.worker).1
      exact HandlerQueue.Linked.work linked trivial rfl frame.accepted frame.enqueuing frame.threads
  | spuriousWake =>
      have frame := (spuriousWake_frame l.processor.worker).1
      exact HandlerQueue.Linked.work linked trivial rfl frame.accepted frame.enqueuing frame.threads
  | stop =>
      have frame := stop_frame l.processor.worker
      exact HandlerQueue.Linked.work linked rfl rfl frame.accepted frame.enqueuing frame.threads
  | stopStep =>
      have frame := stopStep_frame l.processor.worker
      exact HandlerQueue.Linked.work linked trivial rfl frame.accepted frame.enqueuing frame.threads

def Unhindered (l : Connection Document Handler) : Event → Prop
  | .enqueue _ => l.processor.worker.queue.length < 100000
  | .stop => False
  | _ => True

theorem Whole.step {l : Connection Document Handler} (whole : Whole handlerOf l)
    (linked : Linked handlerOf l) (event : Event) (enabled : Enabled l event)
    (unhindered : Unhindered l event) : Whole handlerOf (Pipeline.step parse handlerOf l event) := by
  have kept : keepsQueue l.processor.worker.stopper = true := by rw [whole.unstopped]; rfl
  have works : ∀ event : BackgroundWorker.Event, event.Keeps →
      Frame l.processor.worker (l.processor.worker.step event) ∧
        (l.processor.worker.step event).shutdown = l.processor.worker.shutdown ∧
        (l.processor.worker.step event).stopper = l.processor.worker.stopper →
      Whole handlerOf (work l event) := by
    intro event keeps frame
    exact ⟨(l.processor.worker.step_spec event).effect.complete linked.fifo whole.complete keeps
      kept linked.attached, frame.2.1.trans whole.running, frame.2.2.trans whole.unstopped,
      whole.all⟩
  cases event with
  | listener event =>
      cases event with
      | test =>
          obtain ⟨handed, processor⟩ := test_keeps l
          change HandlerQueue.Whole (l.test.handed.filterMap (call handlerOf)) l.test.processor
          rwa [handed, processor]
      | turn t =>
          exact turn_keeps parse handlerOf (fun asked q => q.Whole asked)
            (fun asked q document whole idle => whole.processMessage idle document)
            whole enabled t
      | disconnect => exact whole
  | enqueue woken => exact HandlerQueue.Whole.enqueue whole linked unhindered woken
  | thread => exact works (.worker 0) trivial (workerStep_frame _)
  | spuriousWake => exact works (.spuriousWake 0) trivial (spuriousWake_frame _)
  | stop => exact unhindered.elim
  | stopStep =>
      have still : l.processor.worker.step .stopStep = l.processor.worker := by
        change l.processor.worker.stopStep = _
        unfold BackgroundWorker.stopStep
        rw [whole.unstopped]
      change Whole handlerOf (work l .stopStep)
      unfold work
      rw [still]
      exact whole

def forget (l : Connection Document Handler) : Listener Document Unit where
  connected := l.connected
  receiving := l.receiving
  exceptionCounter := l.exceptionCounter
  returned := l.returned
  processor := ()
  handed := l.handed
  sent := l.sent

theorem forget_handle (processMessage : HandlerQueue Document Handler → Document →
      HandlerQueue Document Handler) (l : Connection Document Handler) (t : Turn) :
    forget (l.handle parse processMessage t) = (forget l).handle parse (fun _ _ => ()) t := by
  have caught : forget l.caught = (forget l).caught := by
    unfold Listener.caught forget
    dsimp only
    split_ifs <;> rfl
  obtain ⟨received, sends⟩ := t
  unfold Listener.handle
  cases received with
  | thrown => exact caught
  | frame flags payload =>
      dsimp only
      split_ifs
      · rfl
      · exact caught
      · rfl
      · rfl
      · exact caught
      · cases parse payload with
        | none => exact caught
        | some document => rfl
      · rfl

theorem forget_step (processMessage : HandlerQueue Document Handler → Document →
      HandlerQueue Document Handler) (l : Connection Document Handler) (event : Listener.Event) :
    forget (l.step parse processMessage event) =
      (forget l).step parse (fun _ _ => ()) event := by
  cases event with
  | disconnect => rfl
  | test =>
      change forget l.test = (forget l).test
      unfold Listener.test
      change forget (if l.returned ∨ l.receiving then _ else _) =
        if l.returned ∨ l.receiving then _ else if l.connected then _ else _
      split_ifs <;> rfl
  | turn t =>
      change forget (l.turn parse processMessage t) = (forget l).turn parse (fun _ _ => ()) t
      unfold Listener.turn
      change forget (if l.receiving then _ else _) = if l.receiving then _ else _
      split_ifs
      · exact forget_handle parse processMessage { l with receiving := false } t
      · rfl

theorem forget_run (l : Connection Document Handler) (events : List Event) :
    forget (run (step parse handlerOf) l events) =
      run (Listener.step parse fun _ _ => ()) (forget l) (listenerEvents events) := by
  induction events generalizing l with
  | nil => rfl
  | cons event events ih =>
      rw [run_cons, ih]
      cases event with
      | listener event =>
          have first : forget (step parse handlerOf l (.listener event)) = _ :=
            forget_step parse (HandlerQueue.processMessage handlerOf) l event
          rw [first]
          rfl
      | _ => rfl

def connected : Connection Document Handler := { processor := {} }

def askedBy (events : List Event) : List (Document × Handler) :=
  ((Listener.turnsRead parse (listenerEvents events)).filterMap
    (Listener.document parse)).filterMap (call handlerOf)

theorem handed_eq (events : List Event) :
    (run (step parse handlerOf) (connected : Connection Document Handler) events).handed.filterMap
      (call handlerOf) = askedBy parse handlerOf events := by
  have handed := congrArg Listener.handed (forget_run parse handlerOf connected events)
  change (run (step parse handlerOf) connected events).handed = _ at handed
  rw [handed, askedBy]
  congr 1
  exact (Listener.run_reads parse (fun _ _ => ()) () (listenerEvents events)).1

theorem always_linked {events : List Event}
    (enabled : Along (step parse handlerOf) Enabled connected events) :
    Always (step parse handlerOf) (Linked handlerOf) connected events := by
  refine always_of_invariant (fun l event enabled linked => linked.step parse handlerOf event enabled)
    ?_ enabled
  exact ⟨startWith_sound 1 100000 false 0, startWith_fifo 1 100000 false 0, rfl, rfl, rfl, rfl,
    List.Sublist.refl _⟩

/-- However the threads interleave and whenever the connection is stopped, the handlers run on the
documents of the frames, in the order of the frames, each at most once and one after the other. -/
theorem handled_inOrder {events : List Event}
    (enabled : Along (step parse handlerOf) Enabled connected events) :
    let q := (run (step parse handlerOf) (connected : Connection Document Handler) events).processor
    (q.handled ++ q.waiting).Sublist (askedBy parse handlerOf events) ∧
      q.worker.started = q.worker.finished ++ (q.worker.workers 0).executed := by
  intro q
  have linked := (always_linked parse handlerOf enabled).last
  constructor
  · rw [← handed_eq]
    exact linked.handled_waiting.trans ((List.sublist_append_left _ _).trans linked.inOrder)
  · exact linked.fifo.oneByOne linked.threads

def tick : List Event :=
  [.listener .test, .listener (.turn ⟨.frame 0x81 "tick", true⟩), .enqueue none, .thread, .thread,
    .thread, .thread, .thread, .thread, .listener .test, .listener .disconnect,
    .listener (.turn ⟨.frame 0x89 "1", true⟩)]

theorem handled_inOrder_tick :
    let events := tick ++ [.stop, .stopStep]
    let q := (run (step some some) (connected : Connection String String) events).processor
    Along (step some some) Enabled (connected : Connection String String) events ∧
      (q.handled ++ q.waiting).Sublist (askedBy some some events) ∧
      q.worker.started = q.worker.finished ++ (q.worker.workers 0).executed := by
  intro events q
  have enabled : Along (step some some) Enabled (connected : Connection String String) events :=
    ⟨rfl, rfl, trivial, trivial, trivial, trivial, trivial, trivial, trivial, rfl, trivial, rfl,
      trivial, trivial, trivial⟩
  exact ⟨enabled, handled_inOrder some some enabled⟩

/-- Where the queue never runs full and is not stopped, no document is lost. -/
theorem handled_all {events : List Event}
    (enabled : Along (step parse handlerOf) Enabled connected events)
    (unhindered : Along (step parse handlerOf) Unhindered connected events) :
    let q := (run (step parse handlerOf) (connected : Connection Document Handler) events).processor
    q.handled ++ q.waiting ++ q.enqueuing.toList = askedBy parse handlerOf events := by
  intro q
  have inv : Always (step parse handlerOf)
      (fun l => Linked handlerOf l ∧ Whole handlerOf l) connected events := by
    refine always_of_invariant (fun l event allowed inv => ?_)
      ⟨(always_linked parse handlerOf enabled).head, rfl, rfl, rfl, rfl⟩ (enabled.and unhindered)
    exact ⟨inv.1.step parse handlerOf event allowed.1,
      inv.2.step parse handlerOf inv.1 event allowed.1 allowed.2⟩
  obtain ⟨linked, whole⟩ := inv.last
  have arguments : q.handled ++ q.waiting = q.arguments := by
    unfold HandlerQueue.handled HandlerQueue.waiting
    rw [← List.filterMap_append, ← whole.complete]
    exact linked.arguments_eq
  rw [arguments, ← handed_eq]
  exact whole.all

theorem handled_all_tick :
    let q := (run (step some some) (connected : Connection String String) tick).processor
    Along (step some some) Enabled (connected : Connection String String) tick ∧
      Along (step some some) Unhindered (connected : Connection String String) tick ∧
      q.handled ++ q.waiting ++ q.enqueuing.toList = askedBy some some tick := by
  intro q
  have enabled : Along (step some some) Enabled (connected : Connection String String) tick :=
    ⟨rfl, rfl, trivial, trivial, trivial, trivial, trivial, trivial, trivial, rfl, trivial, rfl,
      trivial⟩
  have unhindered : Along (step some some) Unhindered (connected : Connection String String) tick :=
    ⟨trivial, trivial, Nat.succ_pos _, trivial, trivial, trivial, trivial, trivial, trivial, trivial,
      trivial, trivial, trivial⟩
  exact ⟨enabled, unhindered, handled_all some some enabled unhindered⟩

end Pipeline

end SpotGridBot.Core
