import SpotGridBot.Core.MessageProcessor
import SpotGridBot.Lib.Budget

/-!
# The listener thread of a connection

The loop that `ConnectionBase::Connect` starts. A processor is whatever `ProcessMessage` hands the
documents to; `handed` are the documents it was called with and `sent` the frames the thread sent,
and no function of the source reads either.
-/

namespace SpotGridBot.Core
open Runs Budget

namespace WebSocket

def frameFlagFin : ℕ := 0x80
def frameOpBitmask : ℕ := 0x0f
def frameOpClose : ℕ := 0x08
def frameOpPing : ℕ := 0x09
def frameOpPong : ℕ := 0x0a

@[simp] theorem frameOpPong_ne_ping : frameOpPong ≠ frameOpPing := by decide
@[simp] theorem frameOpPong_ne_close : frameOpPong ≠ frameOpClose := by decide
@[simp] theorem frameOpClose_ne_ping : frameOpClose ≠ frameOpPing := by decide
@[simp] theorem frameOpClose_ne_pong : frameOpClose ≠ frameOpPong := by decide

end WebSocket

open WebSocket

def maxNumberOfExceptions : ℕ := 100

inductive Received where
  | frame (flags : ℕ) (payload : String)
  | thrown
deriving DecidableEq

structure Turn where
  received : Received
  sends : Bool
deriving DecidableEq

structure Listener (Document Processor : Type*) where
  connected : Bool := true
  -- Past the test of `m_connected`, in `ReceiveWebSocketData`.
  receiving : Bool := false
  exceptionCounter : ℕ := 0
  returned : Bool := false
  processor : Processor
  handed : List Document := []
  sent : List (ℕ × String) := []

namespace Listener
variable {Document Processor : Type*} (parse : String → Option Document)
  (processMessage : Processor → Document → Processor)

section Turns
variable (l : Listener Document Processor)

def sendFrame (payload : String) (flags : ℕ) : Listener Document Processor :=
  { l with sent := l.sent ++ [(flags, payload)] }

def leave : Listener Document Processor := { l with connected := false, returned := true }

def caught : Listener Document Processor :=
  let l := { l with exceptionCounter := l.exceptionCounter + 1 }
  if l.exceptionCounter > maxNumberOfExceptions then l.leave else l

/-- The condition of the loop. -/
def test : Listener Document Processor :=
  if l.returned ∨ l.receiving then l
  else if l.connected then { l with receiving := true }
  else l.leave

def handle (l : Listener Document Processor) (t : Turn) : Listener Document Processor :=
  match t.received with
  | .thrown => l.caught
  | .frame flags payload =>
      if flags &&& frameOpBitmask = frameOpPing then
        if t.sends then l.sendFrame payload (frameFlagFin ||| frameOpPong) else l.caught
      else if flags &&& frameOpBitmask = frameOpPong then l
      else if flags &&& frameOpBitmask = frameOpClose then
        if t.sends then (l.sendFrame "" (frameFlagFin ||| frameOpClose)).leave else l.caught
      else if payload ≠ "" then
        match parse payload with
        | none => l.caught
        | some document =>
            { l with
              processor := processMessage l.processor document
              handed := l.handed ++ [document]
              exceptionCounter := 0 }
      else l.leave

/-- The rest of the turn, from the return of `ReceiveWebSocketData` on. -/
def turn (l : Listener Document Processor) (t : Turn) : Listener Document Processor :=
  if l.receiving then { l with receiving := false }.handle parse processMessage t else l

end Turns

inductive Event where
  | test
  | turn (t : Turn)
  -- `Disconnect`, on another thread.
  | disconnect

def step (l : Listener Document Processor) : Event → Listener Document Processor
  | .test => l.test
  | .turn t => l.turn parse processMessage t
  | .disconnect => { l with connected := false }

section Meaning

def isData (flags : ℕ) : Bool :=
  flags &&& frameOpBitmask ∉ [frameOpPing, frameOpPong, frameOpClose]

def document (t : Turn) : Option Document :=
  match t.received with
  | .thrown => none
  | .frame flags payload => if isData flags ∧ payload ≠ "" then parse payload else none

def answer (t : Turn) : Option (ℕ × String) :=
  match t.received with
  | .thrown => none
  | .frame flags payload =>
      if t.sends then
        if flags &&& frameOpBitmask = frameOpPing then
          some (frameFlagFin ||| frameOpPong, payload)
        else if flags &&& frameOpBitmask = frameOpClose then
          some (frameFlagFin ||| frameOpClose, "")
        else none
      else none

def verdict (t : Turn) : Verdict :=
  match t.received with
  | .thrown => .failure
  | .frame flags payload =>
      if flags &&& frameOpBitmask = frameOpPing then if t.sends then .neutral else .failure
      else if flags &&& frameOpBitmask = frameOpPong then .neutral
      else if flags &&& frameOpBitmask = frameOpClose then if t.sends then .stop else .failure
      else if payload = "" then .stop
      else if (parse payload).isSome then .success else .failure

end Meaning

variable {l : Listener Document Processor}

def Running (l : Listener Document Processor) : Prop := l.connected = true ∧ l.returned = false

structure Turned (parse : String → Option Document)
    (processMessage : Processor → Document → Processor) (l : Listener Document Processor)
    (t : Turn) (l' : Listener Document Processor) : Prop where
  handed : l'.handed = l.handed ++ (document parse t).toList
  sent : l'.sent = l.sent ++ (answer t).toList
  processor : l'.processor = (document parse t).toList.foldl processMessage l.processor
  loop : match verdict parse t with
    | .success => l'.returned = false ∧ l'.exceptionCounter = 0
    | .neutral => l'.returned = false ∧ l'.exceptionCounter = l.exceptionCounter
    | .failure => l'.returned = false ∧ l.exceptionCounter < maxNumberOfExceptions ∧
          l'.exceptionCounter = l.exceptionCounter + 1 ∨
        maxNumberOfExceptions ≤ l.exceptionCounter ∧ l'.returned = true
    | .stop => l'.returned = true

theorem caught_turned (running : l.returned = false) {t : Turn} (noDocument : document parse t = none)
    (noAnswer : answer t = none) (failure : verdict parse t = .failure) :
    Turned parse processMessage l t l.caught := by
  unfold caught
  dsimp only
  split
  next spent =>
    refine ⟨by simp [leave, noDocument], by simp [leave, noAnswer], by simp [leave, noDocument], ?_⟩
    rw [failure]
    exact .inr ⟨Nat.le_of_lt_succ spent, rfl⟩
  next room =>
    refine ⟨by simp [noDocument], by simp [noAnswer], by simp [noDocument], ?_⟩
    rw [failure]
    exact .inl ⟨running, by omega, rfl⟩

theorem handle_turned (running : l.returned = false) (t : Turn) :
    Turned parse processMessage l t (l.handle parse processMessage t) := by
  unfold handle
  obtain ⟨received, sends⟩ := t
  cases received with
  | thrown => exact caught_turned parse processMessage running rfl rfl rfl
  | frame flags payload =>
      dsimp only
      by_cases ping : flags &&& frameOpBitmask = frameOpPing
      · rw [if_pos ping]
        cases sends with
        | false =>
            apply caught_turned parse processMessage running
            · simp [document, isData, ping]
            · simp [answer]
            · simp [verdict, ping]
        | true =>
            rw [if_pos rfl]
            constructor
            · simp [sendFrame, document, isData, ping]
            · simp [sendFrame, answer, ping]
            · simp [sendFrame, document, isData, ping]
            · simpa [verdict, ping, sendFrame] using running
      · rw [if_neg ping]
        by_cases pong : flags &&& frameOpBitmask = frameOpPong
        · rw [if_pos pong]
          constructor
          · simp [document, isData, pong]
          · simp [answer, pong]
          · simp [document, isData, pong]
          · simpa [verdict, pong] using running
        · rw [if_neg pong]
          by_cases close : flags &&& frameOpBitmask = frameOpClose
          · rw [if_pos close]
            cases sends with
            | false =>
                apply caught_turned parse processMessage running
                · simp [document, isData, close]
                · simp [answer]
                · simp [verdict, close]
            | true =>
                rw [if_pos rfl]
                constructor
                · simp [sendFrame, leave, document, isData, close]
                · simp [sendFrame, leave, answer, close]
                · simp [sendFrame, leave, document, isData, close]
                · simp [verdict, close, sendFrame, leave]
          · rw [if_neg close]
            have data : isData flags = true := by simp [isData, ping, pong, close]
            have noAnswer : answer ⟨.frame flags payload, sends⟩ = none := by
              simp [answer, ping, close]
            by_cases empty : payload = ""
            · rw [if_neg (not_not_intro empty)]
              constructor
              · simp [leave, document, empty]
              · simp [leave, noAnswer]
              · simp [leave, document, empty]
              · simp [verdict, ping, pong, close, empty, leave]
            · rw [if_pos empty]
              cases parsed : parse payload with
              | none =>
                  apply caught_turned parse processMessage running
                  · simp [document, data, empty, parsed]
                  · exact noAnswer
                  · simp [verdict, ping, pong, close, empty, parsed]
              | some found =>
                  constructor
                  · simp [document, data, empty, parsed]
                  · simp [noAnswer]
                  · simp [document, data, empty, parsed]
                  · simpa [verdict, ping, pong, close, empty, parsed] using running

def read (l : Listener Document Processor) (t : Turn) : Listener Document Processor :=
  if l.returned then l else l.handle parse processMessage t

theorem read_turned (running : l.returned = false) (t : Turn) :
    Turned parse processMessage l t (l.read parse processMessage t) := by
  unfold read
  rw [if_neg (by simp [running])]
  exact handle_turned parse processMessage running t

theorem loop : Loop (read parse processMessage) (verdict parse) maxNumberOfExceptions
    (fun l => l.returned = false) (fun l => l.returned = true) exceptionCounter where
  rests l t returned := if_pos returned
  apart l running returned := absurd (running.symm.trans returned) (by simp)
  success l t running said := by
    have turned := (read_turned parse processMessage running t).loop
    rwa [said] at turned
  neutral l t running said := by
    have turned := (read_turned parse processMessage running t).loop
    rwa [said] at turned
  tolerated l t running said room := by
    have turned := (read_turned parse processMessage running t).loop
    rw [said] at turned
    rcases turned with ⟨running', -, counts⟩ | ⟨spent, -⟩
    · exact ⟨running', counts⟩
    · omega
  givesUp l t running said spent := by
    have turned := (read_turned parse processMessage running t).loop
    rw [said] at turned
    rcases turned with ⟨-, room, -⟩ | ⟨-, returned⟩
    · omega
    · exact returned
  stop l t running said := by
    have turned := (read_turned parse processMessage running t).loop
    rwa [said] at turned

/-- The turns of the thread, unless it leaves the loop by itself. The flags are `m_connected` and
whether it is past its test. -/
def turnsTaken : Bool → Bool → List Event → List Turn
  | _, _, [] => []
  | connected, receiving, .test :: events => turnsTaken connected (receiving || connected) events
  | connected, true, .turn t :: events => t :: turnsTaken connected false events
  | connected, false, .turn _ :: events => turnsTaken connected false events
  | _, receiving, .disconnect :: events => turnsTaken false receiving events

def turnsRead (parse : String → Option Document) (events : List Event) : List Turn :=
  readFrom (verdict parse) maxNumberOfExceptions [] (turnsTaken true false events)

theorem turnsTaken_closed (events : List Event) : turnsTaken false false events = [] := by
  induction events with
  | nil => rfl
  | cons event events ih => cases event <;> exact ih

theorem turnsTaken_disconnect (connected receiving : Bool) (before after : List Event) :
    ∃ last, turnsTaken connected receiving (before ++ .disconnect :: after) =
      turnsTaken connected receiving before ++ last ∧ last.length ≤ 1 := by
  induction before generalizing connected receiving with
  | nil =>
      refine ⟨turnsTaken false receiving after, rfl, ?_⟩
      induction after generalizing receiving with
      | nil => exact Nat.zero_le 1
      | cons event after ih =>
          cases event with
          | test => simpa [turnsTaken] using ih (receiving || false)
          | disconnect => exact ih receiving
          | turn t =>
              cases receiving with
              | false => exact ih false
              | true => simp [turnsTaken, turnsTaken_closed]
  | cons event before ih =>
      cases event with
      | test => exact ih connected (receiving || connected)
      | disconnect => exact ih false receiving
      | turn t =>
          cases receiving with
          | false => exact ih connected false
          | true =>
              obtain ⟨last, appended, short⟩ := ih connected false
              exact ⟨last, congrArg (t :: ·) appended, short⟩

def seen (l : Listener Document Processor) : ℕ × Bool × Processor × List Document ×
    List (ℕ × String) :=
  (l.exceptionCounter, l.returned, l.processor, l.handed, l.sent)

theorem seen_handle {l l' : Listener Document Processor} (same : l.seen = l'.seen) (t : Turn) :
    (l.handle parse processMessage t).seen = (l'.handle parse processMessage t).seen := by
  obtain ⟨counter, returned, processor, handed, sent⟩ :
      l.exceptionCounter = l'.exceptionCounter ∧ l.returned = l'.returned ∧
        l.processor = l'.processor ∧ l.handed = l'.handed ∧ l.sent = l'.sent := by
    simpa [seen] using same
  have caught : l.caught.seen = l'.caught.seen := by
    unfold caught
    rw [counter]
    dsimp only
    split_ifs
    · simp [seen, leave, processor, handed, sent]
    · simp [seen, returned, processor, handed, sent]
  obtain ⟨received, sends⟩ := t
  unfold handle
  cases received with
  | thrown => exact caught
  | frame flags payload =>
      dsimp only
      split_ifs
      · simp [seen, sendFrame, returned, processor, handed, sent, counter]
      · exact caught
      · exact same
      · simp [seen, sendFrame, leave, processor, handed, sent, counter]
      · exact caught
      · cases parse payload with
        | none => exact caught
        | some document => simp [seen, returned, processor, handed, sent]
      · simp [seen, leave, processor, handed, sent, counter]

theorem receiving_handle (l : Listener Document Processor) (t : Turn) :
    (l.handle parse processMessage t).receiving = l.receiving ∧
    ((l.handle parse processMessage t).returned = false →
      (l.handle parse processMessage t).connected = l.connected) := by
  have caught : l.caught.receiving = l.receiving ∧
      (l.caught.returned = false → l.caught.connected = l.connected) := by
    unfold caught
    dsimp only
    split_ifs
    · exact ⟨rfl, nofun⟩
    · exact ⟨rfl, fun _ => rfl⟩
  obtain ⟨received, sends⟩ := t
  unfold handle
  cases received with
  | thrown => exact caught
  | frame flags payload =>
      dsimp only
      split_ifs
      · exact ⟨rfl, fun _ => rfl⟩
      · exact caught
      · exact ⟨rfl, fun _ => rfl⟩
      · exact ⟨rfl, nofun⟩
      · exact caught
      · cases parse payload with
        | none => exact caught
        | some document => exact ⟨rfl, fun _ => rfl⟩
      · exact ⟨rfl, nofun⟩

theorem run_left (returned : l.returned = true) (idle : l.receiving = false)
    (events : List Event) : (run (step parse processMessage) l events).seen = l.seen := by
  induction events generalizing l with
  | nil => rfl
  | cons event events ih =>
      rw [run_cons]
      cases event with
      | test =>
          have stays : l.test = l := if_pos (.inl returned)
          rw [step, stays]
          exact ih returned idle
      | turn t =>
          have stays : l.turn parse processMessage t = l := if_neg (by simp [idle])
          rw [step, stays]
          exact ih returned idle
      | disconnect => exact ih returned idle

def outcome (l : Listener Document Processor) : List Document × List (ℕ × String) × Processor :=
  (l.handed, l.sent, l.processor)

theorem outcome_of_seen {l l' : Listener Document Processor} (same : l.seen = l'.seen) :
    l.outcome = l'.outcome ∧ l.returned = l'.returned := by
  simp only [seen, Prod.mk.injEq] at same
  obtain ⟨-, returned, processor, handed, sent⟩ := same
  exact ⟨by rw [outcome, handed, sent, processor, outcome], returned⟩

theorem not_running_of_left (returned : l.returned = true) (idle : l.receiving = false)
    (events : List Event) : ¬ (run (step parse processMessage) l events).Running := by
  have left := (outcome_of_seen (run_left parse processMessage returned idle events)).2
  intro running
  exact absurd (running.2.symm.trans (left.trans returned)) (by simp)

theorem run_taken {l l' : Listener Document Processor} {connected receiving : Bool}
    (same : l.seen = l'.seen) (running : l.returned = false) (isOpen : l.connected = connected)
    (past : l.receiving = receiving) (events : List Event) :
    (run (step parse processMessage) l events).outcome =
      (run (read parse processMessage) l' (turnsTaken connected receiving events)).outcome ∧
    ((run (step parse processMessage) l events).Running ↔
      (connected = true ∧ .disconnect ∉ events) ∧
        (run (read parse processMessage) l' (turnsTaken connected receiving events)).returned =
          false) := by
  induction events generalizing l l' connected receiving with
  | nil =>
      obtain ⟨outcome, returned⟩ := outcome_of_seen same
      refine ⟨outcome, ?_⟩
      change l.connected = true ∧ l.returned = false ↔ (connected = true ∧ _) ∧ l'.returned = false
      simp [isOpen, returned]
  | cons event events ih =>
      rw [run_cons]
      cases event with
      | test =>
          have kept : Event.disconnect ∉ Event.test :: events ↔ .disconnect ∉ events := by simp
          rw [kept, turnsTaken]
          cases receiving with
          | true =>
              have stays : l.test = l := if_pos (.inr past)
              rw [step, stays]
              exact ih same running isOpen past
          | false =>
              have idle : ¬ (l.returned = true ∨ l.receiving = true) := by simp [running, past]
              cases connected with
              | true =>
                  have tested : l.test = { l with receiving := true } := by
                    rw [test, if_neg idle, if_pos isOpen]
                  rw [step, tested]
                  exact ih same running isOpen rfl
              | false =>
                  have tested : l.test = l.leave := by
                    rw [test, if_neg idle, if_neg (by simp [isOpen])]
                  have left := run_left parse processMessage (l := l.leave) rfl past events
                  rw [step, tested, Bool.or_false, turnsTaken_closed]
                  refine ⟨(outcome_of_seen left).1.trans (outcome_of_seen same).1, ?_⟩
                  exact iff_of_false (not_running_of_left parse processMessage (l := l.leave) rfl
                    past events) (by simp)
      | turn t =>
          have kept : Event.disconnect ∉ Event.turn t :: events ↔ .disconnect ∉ events := by simp
          rw [kept]
          cases receiving with
          | false =>
              have stays : l.turn parse processMessage t = l := if_neg (by simp [past])
              rw [step, stays]
              exact ih same running isOpen past
          | true =>
              have taken : l.turn parse processMessage t =
                  { l with receiving := false }.handle parse processMessage t := if_pos past
              have reads : l'.read parse processMessage t = l'.handle parse processMessage t :=
                if_neg (by simp [← (outcome_of_seen same).2, running])
              have next := seen_handle parse processMessage
                (show seen { l with receiving := false } = l'.seen from same) t
              obtain ⟨idle, goesOn⟩ :=
                receiving_handle parse processMessage { l with receiving := false } t
              rw [step, taken, turnsTaken, run_cons, reads]
              generalize { l with receiving := false }.handle parse processMessage t = l₁
                at next idle goesOn
              cases returned : l₁.returned with
              | false => exact ih next returned ((goesOn returned).trans isOpen) idle
              | true =>
                  have returned' := (outcome_of_seen next).2.symm.trans returned
                  rw [(loop parse processMessage).run_ended returned']
                  refine ⟨?_, ?_⟩
                  · have left := run_left parse processMessage returned idle events
                    exact (outcome_of_seen left).1.trans (outcome_of_seen next).1
                  · exact iff_of_false (not_running_of_left parse processMessage returned idle events)
                      (by simp [returned'])
      | disconnect =>
          obtain ⟨outcome, goesOn⟩ := ih (l := { l with connected := false }) same running rfl past
          exact ⟨outcome, goesOn.trans (by simp)⟩

/-- The listener hands on the documents of the frames it reads, in their order and each once, and
answers every ping it reads with the payload of the ping. It reads up to a close that is answered,
an empty frame, the hundred and first exception since the last document, or a `Disconnect`, after
which it may still take the turn whose test it was past. -/
theorem run_reads (processor : Processor) (events : List Event) :
    (run (step parse processMessage) { processor } events).handed =
      (turnsRead parse events).filterMap (document parse) ∧
    (run (step parse processMessage) { processor } events).sent =
      (turnsRead parse events).filterMap answer ∧
    (run (step parse processMessage) { processor } events).processor =
      ((turnsRead parse events).filterMap (document parse)).foldl processMessage processor ∧
    ((run (step parse processMessage) { processor } events).Running ↔
      .disconnect ∉ events ∧
        ¬ Stopped (verdict parse) maxNumberOfExceptions [] (turnsTaken true false events)) ∧
    ∀ before after, events = before ++ .disconnect :: after → ∃ last,
      turnsRead parse events = turnsRead parse before ++ last ∧ last.length ≤ 1 := by
  have counts : exceptionCounter ({ processor } : Listener Document Processor) =
      failures (verdict parse) [] := rfl
  have turned := fun l t (running : returned l = false) =>
    read_turned parse processMessage running t
  have same : seen ({ processor } : Listener Document Processor) = seen { processor } := rfl
  obtain ⟨outcome, running⟩ := run_taken parse processMessage same rfl rfl rfl events
  simp only [Listener.outcome, Prod.mk.injEq] at outcome
  obtain ⟨handed, sent, processed⟩ := outcome
  refine ⟨?_, ?_, ?_, ?_, ?_⟩
  · exact handed.trans ((loop parse processMessage).appended_read Listener.handed (document parse)
      (fun l t running => (turned l t running).handed) rfl counts (turnsTaken true false events))
  · exact sent.trans ((loop parse processMessage).appended_read Listener.sent answer
      (fun l t running => (turned l t running).sent) rfl counts (turnsTaken true false events))
  · rw [processed, (loop parse processMessage).view_read Listener.processor
      (fun processor t => (document parse t).toList.foldl processMessage processor)
      (fun l t running => (turned l t running).processor) rfl counts,
      List.filterMap_eq_flatMap_toList, List.foldl_flatMap]
    rfl
  · rw [running, and_iff_right rfl]
    apply and_congr_right
    intro _
    rcases (loop parse processMessage).run_cases (s := { processor }) rfl counts
        (turnsTaken true false events) with ⟨stopped, finished⟩ | ⟨goesOn, runs, -⟩
    · exact iff_of_false (by simp [finished]) (not_not_intro stopped)
    · exact iff_of_true runs goesOn
  · rintro before after rfl
    obtain ⟨last, taken, short⟩ := turnsTaken_disconnect true false before after
    unfold turnsRead
    rw [taken, readFrom_append]
    refine ⟨_, rfl, ?_⟩
    split
    · exact Nat.zero_le 1
    · exact (readFrom_isPrefix _ _ _ _).length_le.trans short

end Listener

end SpotGridBot.Core
