import SpotGridBot.Worker.BackgroundWorker
import SpotGridBot.Lib.Runs

/-!
# The message processor

A call runs by itself here: the threads of the worker take nothing out of its queue meanwhile.
-/

namespace SpotGridBot.Core
open Worker Runs

abbrev BoolResult := Except String Unit

/-- What `EnqueueTagged` reads and writes of the worker. -/
structure MessageQueue (Document Handler : Type*) where
  queue : List (Document × Handler) := []
  maxQueueSize : ℕ := 100000
  shutdown : Bool := false

structure MessageProcessor (Document Handler : Type*) where
  messageQueue : MessageQueue Document Handler := {}
  messageHandlers : String → Option Handler := fun _ => none
  messageTypeDetector : Option (Document → String) := none

section
variable {Document Handler : Type*}

def MessageQueue.enqueueTagged (q : MessageQueue Document Handler) (message : Document)
    (handler : Handler) : MessageQueue Document Handler × BoolResult :=
  if !q.shutdown then
    if q.queue.length < q.maxQueueSize then
      ({ q with queue := q.queue ++ [(message, handler)] }, .ok ())
    else (q, .error ("Maximum queue size (" ++ toString q.maxQueueSize ++ ") reached"))
  else (q, .error "Background worker is being stopped")

namespace MessageProcessor
variable (p : MessageProcessor Document Handler)

def getMessageType (message : Document) : String :=
  match p.messageTypeDetector with
  | some detect => detect message
  | none => "Message type detector not registered."

def registerDetector (messageTypeDetector : Option (Document → String)) :
    MessageProcessor Document Handler :=
  { p with messageTypeDetector := messageTypeDetector }

/-- A null handler and a second one for a type are ignored. -/
def register (msgType : String) (handler : Option Handler) :
    MessageProcessor Document Handler × BoolResult :=
  match handler with
  | none => (p, .error "NULL message handler ignored")
  | some handler =>
      match p.messageHandlers msgType with
      | some _ => (p, .error
          ("Handler for message '" ++ msgType ++ "' has been already registered. Ignored"))
      | none => ({ p with
          messageHandlers := Function.update p.messageHandlers msgType (some handler) }, .ok ())

def findMessageHandler (msgType : String) : Option Handler := p.messageHandlers msgType

def enqueue (message : Option Document) (handler : Option Handler) :
    MessageProcessor Document Handler × BoolResult :=
  match message, handler with
  | none, _ => (p, .error "NULL message ignored")
  | some _, none => (p, .error "NULL message handler ignored")
  | some message, some handler =>
      let (messageQueue, result) := p.messageQueue.enqueueTagged message handler
      ({ p with messageQueue := messageQueue }, result)

/-- What `Enqueue` returns is dropped. -/
def processMessage (message : Option Document) : MessageProcessor Document Handler × BoolResult :=
  match message with
  | none => (p, .error "NULL message")
  | some document =>
      let msgType := p.getMessageType document
      match p.findMessageHandler msgType with
      | some handler => ((p.enqueue message (some handler)).1, .ok ())
      | none => (p, .error ("Not supported message: '" ++ msgType ++ "'"))

def Added (message : Option Document) (after : MessageProcessor Document Handler) : Prop :=
  ∃ document handler, message = some document ∧
    p.findMessageHandler (p.getMessageType document) = some handler ∧
    after.messageQueue.queue = p.messageQueue.queue ++ [(document, handler)]

def Honest (message : Option Document)
    (after : MessageProcessor Document Handler × BoolResult) : Prop :=
  (after.2 = .ok () ↔ p.Added message after.1) ∧
  (after.2 ≠ .ok () → after.1.messageQueue = p.messageQueue)

def Accepts : Prop :=
  p.messageQueue.shutdown = false ∧ p.messageQueue.queue.length < p.messageQueue.maxQueueSize

variable {p}

theorem enqueueTagged_accepts (accepts : p.Accepts) (message : Document) (handler : Handler) :
    p.messageQueue.enqueueTagged message handler =
      ({ p.messageQueue with queue := p.messageQueue.queue ++ [(message, handler)] }, .ok ()) := by
  unfold MessageQueue.enqueueTagged
  rw [if_pos (by simp [accepts.1]), if_pos accepts.2]

theorem enqueueTagged_refuses (refuses : ¬ p.Accepts) (message : Document) (handler : Handler) :
    (p.messageQueue.enqueueTagged message handler).1 = p.messageQueue ∧
      (p.messageQueue.enqueueTagged message handler).2 ≠ .ok () := by
  unfold MessageQueue.enqueueTagged
  split
  next running =>
    rw [if_neg fun room => refuses ⟨by simpa using running, room⟩]
    exact ⟨rfl, nofun⟩
  next => exact ⟨rfl, nofun⟩

theorem enqueue_honest {message : Document} {handler : Handler}
    (found : p.findMessageHandler (p.getMessageType message) = some handler) :
    p.Honest (some message) (p.enqueue (some message) (some handler)) := by
  by_cases accepts : p.Accepts
  · simp only [enqueue, enqueueTagged_accepts accepts]
    exact ⟨iff_of_true rfl ⟨message, handler, rfl, found, rfl⟩, fun failed => absurd rfl failed⟩
  · obtain ⟨same, failed⟩ := enqueueTagged_refuses accepts message handler
    refine ⟨iff_of_false failed ?_, fun _ => same⟩
    rintro ⟨document, handler', -, -, added⟩
    simp only [enqueue, same] at added
    simp at added

/-- `ProcessMessage` is honest where it finds no handler or the queue takes the message. -/
theorem processMessage_honest_iff (p : MessageProcessor Document Handler)
    (message : Option Document) :
    p.Honest message (p.processMessage message) ↔
      ∀ document handler, message = some document →
        p.findMessageHandler (p.getMessageType document) = some handler → p.Accepts := by
  cases message with
  | none =>
      refine iff_of_true ⟨iff_of_false nofun ?_, fun _ => rfl⟩ nofun
      rintro ⟨document, handler, none, -⟩
      cases none
  | some document =>
      unfold processMessage
      simp only
      cases found : p.findMessageHandler (p.getMessageType document) with
      | none =>
          refine iff_of_true ⟨iff_of_false nofun ?_, fun _ => rfl⟩ ?_
          · rintro ⟨document', handler, same, found', -⟩
            cases same
            rw [found] at found'
            cases found'
          · intro document' handler same found'
            cases same
            rw [found] at found'
            cases found'
      | some handler =>
          by_cases accepts : p.Accepts
          · have honest := enqueue_honest found
            simp only [enqueue, enqueueTagged_accepts accepts] at honest ⊢
            exact iff_of_true honest fun _ _ _ _ => accepts
          · refine iff_of_false ?_ fun all => accepts (all document handler rfl found)
            rintro ⟨exactly, -⟩
            obtain ⟨_, _, -, -, added⟩ := exactly.mp rfl
            obtain ⟨same, -⟩ := enqueueTagged_refuses accepts document handler
            simp only [enqueue, same] at added
            simp at added

def stopping : MessageProcessor String String :=
  { ((({} : MessageProcessor String String).register "ticker" (some "onTicker")).1.registerDetector
      (some fun _ => "ticker")) with
    messageQueue := { shutdown := true } }

theorem stopping_dishonest :
    ¬ ∀ (p : MessageProcessor String String) (message : Option String),
      p.Honest message (p.processMessage message) := by
  intro honest
  have dropped : (stopping.processMessage (some "tick")).1.messageQueue.queue = [] := rfl
  obtain ⟨_, _, -, -, added⟩ := (honest stopping (some "tick")).1.mp rfl
  rw [dropped] at added
  simp at added

end MessageProcessor
end

end SpotGridBot.Core
