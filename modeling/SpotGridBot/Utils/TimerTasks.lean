import SpotGridBot.Utils.Timer
import SpotGridBot.Lib.Runs

namespace SpotGridBot.Utils
open Runs

namespace TaskMap
variable {taskMap : TaskMap}

theorem getUnusedScheduleTime_spec (taskMap : TaskMap) (proposedTime : ℤ) :
    taskMap.getUnusedScheduleTime proposedTime ∉ taskMap.keys ∧
      proposedTime ≤ taskMap.getUnusedScheduleTime proposedTime ∧
      ∀ time, proposedTime ≤ time → time < taskMap.getUnusedScheduleTime proposedTime →
        time ∈ taskMap.keys := by
  refine ⟨Probing.probe_length_free taskMap.keys proposedTime,
    Probing.le_probe taskMap.keys _ proposedTime, fun time above below => ?_⟩
  exact Probing.mem_of_lt_probe above below

theorem ids_insertBefore (p : ℤ × Task → Bool) (key : ℤ) (task : Task) (taskMap : TaskMap) :
    (ids (Ordered.insertBefore p (key, task) taskMap)).Perm (task.id :: taskMap.ids) :=
  (Ordered.insertBefore_perm p (key, task) taskMap).map fun entry : ℤ × Task => entry.2.id

theorem ids_find_eraseP {p : ℤ × Task → Bool} {key : ℤ} {task : Task}
    (found : taskMap.find? p = some (key, task)) :
    taskMap.ids.Perm (task.id :: ids (taskMap.eraseP p)) := by
  have perm := Ordered.find?_append_eraseP_perm p taskMap
  rw [found] at perm
  exact perm.map fun entry => entry.2.id

end TaskMap

namespace Timer
variable {timer : Timer}

def NotAfterCancel (before after : TimerRecord) : Prop :=
  ∀ taskId, before = .cancelled taskId → after ≠ .started taskId

structure Tidy (timer : Timer) : Prop where
  once : timer.taskMap.ids.Nodup
  apart : ∀ id ∈ timer.taskMap.ids, id ∉ timer.pendingTasks
  keyed : ∀ entry ∈ timer.taskMap, entry.1 = entry.2.scheduledTime
  kept : timer.dropped = []
  cancelled : timer.history.Pairwise NotAfterCancel

structure Free (timer : Timer) (id : ℤ) : Prop where
  created : id ∈ timer.created
  waiting : id ∉ timer.taskMap.ids
  pending : id ∉ timer.pendingTasks
  executing : ∀ thread task, timer.executing thread = some task → task.id ≠ id
  cancelled : .cancelled id ∉ timer.history

structure Sound (timer : Timer) : Prop extends timer.Tidy where
  waitingCreated : ∀ id ∈ timer.taskMap.ids, id ∈ timer.created
  pendingCreated : ∀ id ∈ timer.pendingTasks, id ∈ timer.created
  executingCreated : ∀ thread task, timer.executing thread = some task → task.id ∈ timer.created
  executingApart : ∀ thread task, timer.executing thread = some task →
    task.id ∉ timer.taskMap.ids
  executingOnce : ∀ thread thread' task task', timer.executing thread = some task →
    timer.executing thread' = some task' → task.id = task'.id → thread = thread'
  gone : ∀ id, .cancelled id ∈ timer.history →
    id ∈ timer.created ∧ id ∉ timer.taskMap.ids ∧ id ∉ timer.pendingTasks

def Event.makes : Event → Option ℤ
  | .scheduleAt _ _ taskId _ _ _ _ _ _ => some taskId
  | .schedule _ _ taskId _ _ _ _ _ _ _ => some taskId
  | _ => none

variable (timer) in
theorem reschedule_cases (tests : Tests) (taskId nextEventTime clock : ℤ) :
    (timer.reschedule tests taskId nextEventTime clock).2 = timer ∨
    (timer.reschedule tests taskId nextEventTime clock).2 =
      (timer.moveTask (fun task => task.id == taskId) (max nextEventTime clock)).2 := by
  unfold reschedule
  cases tests.error with
  | some message => exact .inl rfl
  | none =>
      simp only
      split
      next found => exact .inr (congrArg Prod.snd found).symm
      next missing => exact .inr (congrArg Prod.snd missing).symm

variable (timer) in
theorem executeDelayed_cases (tests : Tests) (hasAction : Bool) (uniqueName : String)
    (delay clock : ℤ) :
    (timer.executeDelayed tests hasAction uniqueName delay clock).2 = timer ∨
    (timer.executeDelayed tests hasAction uniqueName delay clock).2 =
      (timer.moveTask (fun task => task.name == uniqueName) (clock + delay)).2 := by
  unfold executeDelayed
  split_ifs with unnamed noAction
  · exact .inl rfl
  · exact .inl rfl
  · cases tests.error with
    | some message => exact .inl rfl
    | none =>
        simp only
        split
        next found => exact .inr (congrArg Prod.snd found).symm
        next missing => exact .inr (congrArg Prod.snd missing).symm

namespace Sound

theorem remove (sound : timer.Sound) {taskMap : TaskMap} {pendingTasks : Finset ℤ}
    (sub : taskMap.Sublist timer.taskMap) (sub' : pendingTasks ⊆ timer.pendingTasks) :
    Sound { timer with taskMap := taskMap, pendingTasks := pendingTasks } := by
  have ids : taskMap.ids.Sublist timer.taskMap.ids := sub.map _
  exact
    { once := sound.once.sublist ids
      apart := fun id member pending => sound.apart id (ids.subset member) (sub' pending)
      keyed := fun entry member => sound.keyed entry (sub.subset member)
      kept := sound.kept
      cancelled := sound.cancelled
      waitingCreated := fun id member => sound.waitingCreated id (ids.subset member)
      pendingCreated := fun id member => sound.pendingCreated id (sub' member)
      executingCreated := sound.executingCreated
      executingApart := fun thread task runs member =>
        sound.executingApart thread task runs (ids.subset member)
      executingOnce := sound.executingOnce
      gone := fun id cancelled =>
        have ⟨created, waiting, pending⟩ := sound.gone id cancelled
        ⟨created, fun member => waiting (ids.subset member), fun member => pending (sub' member)⟩ }

theorem insertTask (sound : timer.Sound) (task : Task) (free : timer.Free task.id)
    (unused : task.scheduledTime ∉ timer.taskMap.keys) :
    (timer.insertTask task.scheduledTime task).2.Sound := by
  unfold Timer.insertTask TaskMap.insert
  rw [if_neg unused]
  generalize scheduled : task.scheduledTime = key
  simp only
  have ids := TaskMap.ids_insertBefore (fun entry => key < entry.1) key task timer.taskMap
  have isNew : ∀ {id}, id ∈ TaskMap.ids (Ordered.insertBefore (fun entry => key < entry.1)
      (key, task) timer.taskMap) → id = task.id ∨ id ∈ timer.taskMap.ids := fun member =>
    List.mem_cons.mp (ids.mem_iff.mp member)
  refine
    { once := ids.nodup_iff.mpr (List.nodup_cons.mpr ⟨free.waiting, sound.once⟩)
      apart := ?_
      keyed := ?_
      kept := sound.kept
      cancelled := sound.cancelled
      waitingCreated := ?_
      pendingCreated := sound.pendingCreated
      executingCreated := sound.executingCreated
      executingApart := ?_
      executingOnce := sound.executingOnce
      gone := ?_ }
  · intro id member
    cases isNew member with
    | inl new => exact new ▸ free.pending
    | inr old => exact sound.apart id old
  · intro entry member
    cases Ordered.mem_insertBefore.mp member with
    | inl new => exact new ▸ scheduled.symm
    | inr old => exact sound.keyed entry old
  · intro id member
    cases isNew member with
    | inl new => exact new ▸ free.created
    | inr old => exact sound.waitingCreated id old
  · intro thread other runs member
    cases isNew member with
    | inl new => exact free.executing thread other runs new
    | inr old => exact sound.executingApart thread other runs old
  · intro id cancelled
    obtain ⟨created, waiting, pending⟩ := sound.gone id cancelled
    refine ⟨created, fun member => ?_, pending⟩
    cases isNew member with
    | inl new => exact free.cancelled (new ▸ cancelled)
    | inr old => exact waiting old

theorem record (sound : timer.Sound) (cancelled : List ℤ)
    (gone : ∀ id ∈ cancelled, id ∈ timer.created ∧ id ∉ timer.taskMap.ids ∧
      id ∉ timer.pendingTasks) :
    Sound { timer with history := timer.history ++ cancelled.map .cancelled } := by
  refine { sound with cancelled := ?_, gone := ?_ }
  · rw [List.pairwise_append]
    refine ⟨sound.cancelled, ?_, ?_⟩
    · rw [List.pairwise_map]
      exact List.pairwise_of_forall (by simp [NotAfterCancel])
    · intro before _ after member
      obtain ⟨id, -, rfl⟩ := List.mem_map.mp member
      simp [NotAfterCancel]
  · intro id member
    cases List.mem_append.mp member with
    | inl old => exact sound.gone id old
    | inr new =>
        obtain ⟨id', member, same⟩ := List.mem_map.mp new
        exact TimerRecord.cancelled.inj same ▸ gone id' member

theorem scheduleAt (sound : timer.Sound) (tests : Tests) (hasAction : Bool) {taskId : ℤ}
    (new : taskId ∉ timer.created) (name : String)
    (firstEventTime repeatedInterval random clock clock' : ℤ) :
    (timer.scheduleAt tests hasAction taskId name firstEventTime repeatedInterval random clock
      clock').2.Sound := by
  unfold Timer.scheduleAt
  cases hasAction with
  | false => exact sound
  | true =>
      cases tests.error with
      | some message => exact sound
      | none =>
          have grown : Sound { timer with created := timer.created ++ [taskId] } :=
            { sound with
              waitingCreated := fun id member =>
                List.mem_append_left _ (sound.waitingCreated id member)
              pendingCreated := fun id member =>
                List.mem_append_left _ (sound.pendingCreated id member)
              executingCreated := fun thread task runs =>
                List.mem_append_left _ (sound.executingCreated thread task runs)
              gone := fun id cancelled =>
                have ⟨created, apart⟩ := sound.gone id cancelled
                ⟨List.mem_append_left _ created, apart⟩ }
          have free : Free { timer with created := timer.created ++ [taskId] } taskId :=
            { created := by simp
              waiting := fun member => new (sound.waitingCreated taskId member)
              pending := fun member => new (sound.pendingCreated taskId member)
              executing := fun thread task runs same =>
                new (same ▸ sound.executingCreated thread task runs)
              cancelled := fun member => new (sound.gone taskId member).1 }
          have inserted := fun proposedTime => grown.insertTask
            ⟨taskId, name, timer.taskMap.getUnusedScheduleTime proposedTime, repeatedInterval⟩
            free (timer.taskMap.getUnusedScheduleTime_spec proposedTime).1
          simp only [Bool.not_true, Bool.false_eq_true, if_false]
          split
          next success => exact congrArg Prod.snd success ▸ inserted _
          next failure => exact congrArg Prod.snd failure ▸ inserted _

theorem cancel (sound : timer.Sound) (tests : Tests) (taskId : ℤ) :
    (timer.cancel tests taskId).2.Sound := by
  unfold Timer.cancel
  cases tests.error with
  | some message => exact sound
  | none =>
      simp only
      split_ifs with waiting pending
      · obtain ⟨entry, found⟩ : ∃ entry, timer.taskMap.find?
            (fun entry => entry.2.id == taskId) = some entry := by
          rw [← Option.isSome_iff_exists, List.find?_isSome]
          obtain ⟨entry, member, same⟩ := List.mem_map.mp waiting
          exact ⟨entry, member, beq_iff_eq.mpr same⟩
        obtain rfl : entry.2.id = taskId := by simpa using List.find?_some found
        have ids := TaskMap.ids_find_eraseP found
        have sub := List.eraseP_sublist (p := fun other => other.2.id == entry.2.id)
          (l := timer.taskMap)
        have removed := sound.remove sub (Finset.Subset.refl _)
        refine removed.record [entry.2.id] ?_
        simp only [List.mem_singleton, forall_eq]
        exact ⟨sound.waitingCreated _ waiting,
          (List.nodup_cons.mp (ids.nodup_iff.mp sound.once)).1, sound.apart _ waiting⟩
      · have removed := sound.remove (List.Sublist.refl _) (Finset.erase_subset taskId _)
        refine removed.record [taskId] ?_
        simp only [List.mem_singleton, forall_eq]
        exact ⟨sound.pendingCreated _ pending, waiting, Finset.notMem_erase _ _⟩
      · exact sound

theorem cancelAll (sound : timer.Sound) (tests : Tests) :
    (timer.cancelAll tests).2.Sound := by
  unfold Timer.cancelAll
  cases tests.error with
  | some message => exact sound
  | none =>
      have removed := sound.remove (List.nil_sublist _) (Finset.empty_subset _)
      refine removed.record _ fun id member => ⟨(List.mem_filter.mp member).1, ?_, ?_⟩
      · exact List.not_mem_nil
      · exact Finset.notMem_empty id

theorem moveTask (sound : timer.Sound) (fits : Task → Bool) (proposedTime : ℤ) :
    (timer.moveTask fits proposedTime).2.Sound := by
  unfold Timer.moveTask
  cases found : timer.taskMap.find? (fun entry => fits entry.2) with
  | none => exact sound
  | some entry =>
      obtain ⟨key, task⟩ := entry
      have sub := List.eraseP_sublist (p := fun entry => fits entry.2) (l := timer.taskMap)
      have removed := sound.remove sub (Finset.Subset.refl _)
      have ids := TaskMap.ids_find_eraseP found
      have waiting : task.id ∈ timer.taskMap.ids := ids.mem_iff.mpr List.mem_cons_self
      refine removed.insertTask { task with
          scheduledTime := timer.taskMap.getUnusedScheduleTime proposedTime }
        { created := sound.waitingCreated _ waiting
          waiting := (List.nodup_cons.mp (ids.nodup_iff.mp sound.once)).1
          pending := sound.apart _ waiting
          executing := fun thread other runs same =>
            sound.executingApart thread other runs (same ▸ waiting)
          cancelled := fun cancelled => (sound.gone _ cancelled).2.1 waiting } ?_
      have free := (timer.taskMap.getUnusedScheduleTime_spec proposedTime).1
      exact fun member => free ((sub.map Prod.fst).subset member)

section Start
variable (sound : timer.Sound) {key : ℤ} {task : Task} {taskMap : TaskMap}
  (first : timer.taskMap = (key, task) :: taskMap)
include sound first

theorem first_waits : task.id ∈ timer.taskMap.ids ∧ task.id ∉ TaskMap.ids taskMap := by
  have ids : timer.taskMap.ids = task.id :: TaskMap.ids taskMap := congrArg TaskMap.ids first
  constructor
  · rw [ids]
    exact List.mem_cons_self
  · exact (List.nodup_cons.mp (ids ▸ sound.once)).1

theorem first_notCancelled : .cancelled task.id ∉ timer.history := fun cancelled =>
  (sound.gone _ cancelled).2.1 (sound.first_waits first).1

omit sound first in
theorem executing_start {P : Task → Prop} (thread : ℕ) (new : P task)
    (old : ∀ other task', timer.executing other = some task' → P task') :
    ∀ other task', Function.update timer.executing thread (some task) other = some task' →
      P task' := by
  intro other task' runs
  rw [Function.update_apply, ite_eq_iff] at runs
  cases runs with
  | inl here =>
      cases here.2
      exact new
  | inr there => exact old other task' there.2

theorem executingOnce_start (thread : ℕ) :
    ∀ other other' task' task'',
      Function.update timer.executing thread (some task) other = some task' →
      Function.update timer.executing thread (some task) other' = some task'' →
      task'.id = task''.id → other = other' := by
  have waiting := (sound.first_waits first).1
  intro other other' task' task'' runs runs' same
  rw [Function.update_apply, ite_eq_iff] at runs runs'
  cases runs with
  | inl here =>
      cases runs' with
      | inl here' => exact here.1.trans here'.1.symm
      | inr there' =>
          cases here.2
          exact absurd (same ▸ waiting) (sound.executingApart _ _ there'.2)
  | inr there =>
      cases runs' with
      | inl here' =>
          cases here'.2
          exact absurd (same ▸ waiting) (sound.executingApart _ _ there.2)
      | inr there' => exact sound.executingOnce _ _ _ _ there.2 there'.2 same

theorem start (thread : ℕ) :
    Sound { timer with
      taskMap := taskMap
      pendingTasks := insert task.id timer.pendingTasks
      executing := Function.update timer.executing thread (some task)
      history := timer.history ++ [.started task.id] } := by
  have rest : taskMap.Sublist timer.taskMap := first ▸ List.sublist_cons_self _ _
  have removed := sound.remove rest (Finset.Subset.refl _)
  obtain ⟨waiting, apart⟩ := sound.first_waits first
  have notCancelled := sound.first_notCancelled first
  have created := sound.waitingCreated _ waiting
  refine { removed with
    apart := ?_
    cancelled := ?_
    pendingCreated := ?_
    executingCreated := executing_start thread created sound.executingCreated
    executingApart := executing_start thread apart removed.executingApart
    executingOnce := sound.executingOnce_start first thread
    gone := ?_ }
  · intro id member pending
    cases Finset.mem_insert.mp pending with
    | inl new => exact apart (new ▸ member)
    | inr old => exact removed.apart id member old
  · rw [List.pairwise_append]
    refine ⟨sound.cancelled, List.pairwise_singleton .., ?_⟩
    intro before earlier after new
    obtain rfl := List.mem_singleton.mp new
    rintro taskId rfl same
    exact notCancelled (TimerRecord.started.inj same ▸ earlier)
  · intro id pending
    cases Finset.mem_insert.mp pending with
    | inl new => exact new ▸ created
    | inr old => exact sound.pendingCreated id old
  · intro id member
    have cancelled : .cancelled id ∈ timer.history := by
      cases List.mem_append.mp member with
      | inl old => exact old
      | inr new => exact absurd (List.mem_singleton.mp new) (by simp)
    obtain ⟨created, gone, pending⟩ := removed.gone id cancelled
    refine ⟨created, gone, fun member => ?_⟩
    cases Finset.mem_insert.mp member with
    | inl new => exact notCancelled (new ▸ cancelled)
    | inr old => exact pending old

end Start

theorem takeTask (sound : timer.Sound) (thread : ℕ) (shuttingDown : Bool) (clock : ℤ) :
    (timer.takeTask thread shuttingDown clock).Sound := by
  unfold Timer.takeTask
  split
  next key task taskMap idle first =>
    split_ifs with due
    · exact sound.start first thread
    · exact sound
  next => exact sound

theorem finishTask (sound : timer.Sound) (thread : ℕ) (scheduledTime interval clock : ℤ) :
    (timer.finishTask thread scheduledTime interval clock).Sound := by
  unfold Timer.finishTask
  cases runs : timer.executing thread with
  | none => exact sound
  | some task =>
      have others : ∀ {other task'},
          Function.update timer.executing thread none other = some task' →
          other ≠ thread ∧ timer.executing other = some task' := by
        intro other task' runs'
        by_cases same : other = thread
        · rw [same, Function.update_self] at runs'
          contradiction
        · rw [Function.update_of_ne same] at runs'
          exact ⟨same, runs'⟩
      have removed := sound.remove (List.Sublist.refl _) (Finset.erase_subset task.id _)
      have finished : Sound { timer with
          pendingTasks := timer.pendingTasks.erase task.id
          executing := Function.update timer.executing thread none } :=
        { removed with
          executingCreated := fun other task' runs' =>
            sound.executingCreated other task' (others runs').2
          executingApart := fun other task' runs' =>
            sound.executingApart other task' (others runs').2
          executingOnce := fun other other' task' task'' runs' runs'' =>
            sound.executingOnce other other' task' task'' (others runs').2 (others runs'').2 }
      simp only
      split_ifs with repeats
      · refine finished.insertTask { task with
            scheduledTime := timer.taskMap.getUnusedScheduleTime
              (max (scheduledTime + interval) clock)
            interval := interval }
          { created := sound.executingCreated thread task runs
            waiting := sound.executingApart thread task runs
            pending := Finset.notMem_erase _ _
            executing := fun other task' runs' same =>
              (others runs').1 (sound.executingOnce other thread task' task (others runs').2 runs
                same)
            cancelled := fun cancelled => (sound.gone _ cancelled).2.2 repeats.1 } ?_
        exact (timer.taskMap.getUnusedScheduleTime_spec _).1
      · exact finished

theorem step (sound : timer.Sound) (event : Event)
    (new : ∀ taskId, event.makes = some taskId → taskId ∉ timer.created) :
    (timer.step event).Sound := by
  cases event with
  | scheduleAt tests hasAction taskId name firstEventTime repeatedInterval random clock clock' =>
      exact sound.scheduleAt tests hasAction (new taskId rfl) name _ _ _ _ _
  | schedule tests hasAction taskId name firstInterval repeatedInterval random clock clock'
      clock'' =>
      exact sound.scheduleAt tests hasAction (new taskId rfl) name _ _ _ _ _
  | cancel tests taskId => exact sound.cancel tests taskId
  | cancelAll tests => exact sound.cancelAll tests
  | reschedule tests taskId nextEventTime clock =>
      change (timer.reschedule tests taskId nextEventTime clock).2.Sound
      obtain same | moved := timer.reschedule_cases tests taskId nextEventTime clock
      · rw [same]
        exact sound
      · rw [moved]
        exact sound.moveTask _ _
  | executeDelayed tests hasAction uniqueName delay clock =>
      change (timer.executeDelayed tests hasAction uniqueName delay clock).2.Sound
      obtain same | moved := timer.executeDelayed_cases tests hasAction uniqueName delay clock
      · rw [same]
        exact sound
      · rw [moved]
        exact sound.moveTask _ _
  | takeTask thread shuttingDown clock => exact sound.takeTask thread shuttingDown clock
  | finishTask thread scheduledTime interval clock =>
      exact sound.finishTask thread scheduledTime interval clock

end Sound

theorem sound_empty : Sound {} where
  once := List.nodup_nil
  apart := fun _ member => absurd member List.not_mem_nil
  keyed := fun _ member => absurd member List.not_mem_nil
  kept := rfl
  cancelled := List.Pairwise.nil
  waitingCreated := fun _ member => absurd member List.not_mem_nil
  pendingCreated := fun _ member => absurd member (Finset.notMem_empty _)
  executingCreated := fun _ _ runs => by contradiction
  executingApart := fun _ _ runs => by contradiction
  executingOnce := fun _ _ _ _ runs => by contradiction
  gone := fun _ cancelled => absurd cancelled List.not_mem_nil

def NewId (timer : Timer) (event : Event) : Prop :=
  ∀ taskId ∈ event.makes, taskId ∉ timer.created

/-- Every task is in one place, no insertion loses one, and a cancelled task is not started. -/
theorem always_tidy (events : List Event) (newIds : Along Timer.step NewId {} events) :
    Always Timer.step Tidy {} events := by
  have sound : Always Timer.step Sound {} events :=
    always_of_invariant (fun timer event new sound => sound.step event new) sound_empty newIds
  exact sound.mono fun timer sound => sound.toTidy

instance (timer : Timer) (event : Event) : Decidable (timer.NewId event) :=
  inferInstanceAs (Decidable (∀ taskId ∈ event.makes, _))

def up : Tests := ⟨true, false⟩

def cancelledWhileRunning : List Event :=
  [.scheduleAt up true 1 "poll" 100 50 0 0 0, .scheduleAt up true 2 "" 100 0 0 0 0,
    .takeTask 0 false 100, .takeTask 1 false 101, .finishTask 1 101 0 130,
    .executeDelayed up true "poll" 20 110, .cancel up 1, .finishTask 0 100 50 160,
    .schedule up true 3 "poll" 20 0 0 160 160 160, .reschedule up 3 170 165, .cancelAll up]

theorem always_tidy_cancelledWhileRunning : Always Timer.step Tidy {} cancelledWhileRunning :=
  always_tidy cancelledWhileRunning (by decide +kernel)

end Timer

end SpotGridBot.Utils
