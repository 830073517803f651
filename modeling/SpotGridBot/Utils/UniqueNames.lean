import SpotGridBot.Utils.TimerTasks
import SpotGridBot.Utils.FixTypes

namespace SpotGridBot.Utils
open Runs

theorem lt_newInt64Key (lastKey : ℤ) : lastKey < newInt64Key lastKey := by
  unfold newInt64Key
  split <;> omega

namespace TaskMap

def tags (taskMap : TaskMap) : List (ℤ × String) :=
  taskMap.map fun entry => (entry.2.id, entry.2.name)

end TaskMap

/-- What a call of `ExecuteDelayed` that found no task has still to schedule. -/
structure DelayedCall where
  uniqueName : String
  delay : ℤ
deriving DecidableEq

structure DelayedTimer where
  timer : Timer := {}
  lastKey : ℤ := 0
  calls : ℕ → Option DelayedCall := fun _ => none
  -- The tasks that `ExecuteDelayed` made, which nothing in the source tells apart.
  delayed : List ℤ := []

namespace DelayedTimer
variable (s : DelayedTimer)

def search (caller : ℕ) (tests : Tests) (hasAction : Bool) (uniqueName : String)
    (delay clock : ℤ) : DelayedTimer :=
  match s.calls caller, s.timer.executeDelayed tests hasAction uniqueName delay clock with
  | some _, _ => s
  | none, (some _, timer) => { s with timer := timer }
  | none, (none, timer) =>
      { s with
        timer := timer
        calls := Function.update s.calls caller (some ⟨uniqueName, delay⟩) }

def schedule (caller : ℕ) (tests : Tests) (random clock clock' clock'' : ℤ) : DelayedTimer :=
  match s.calls caller with
  | none => s
  | some call =>
      let key := newInt64Key s.lastKey
      let made := tests.error = none
      { timer := (s.timer.schedule tests true key call.uniqueName call.delay 0 random clock clock'
          clock'').2
        lastKey := if made then key else s.lastKey
        calls := Function.update s.calls caller none
        delayed := if made then key :: s.delayed else s.delayed }

/-- Another call, or a step of a timer thread. The id is the one that `NewInt64Key` gives, whatever
the event has in its place. -/
def other (event : Timer.Event) : DelayedTimer :=
  match event with
  | .executeDelayed .. => s
  | .scheduleAt tests hasAction _ name firstEventTime repeatedInterval random clock clock' =>
      let key := newInt64Key s.lastKey
      { s with
        timer := (s.timer.scheduleAt tests hasAction key name firstEventTime repeatedInterval random
          clock clock').2
        lastKey := if hasAction ∧ tests.error = none then key else s.lastKey }
  | .schedule tests hasAction _ name firstInterval repeatedInterval random clock clock'
      clock'' =>
      let key := newInt64Key s.lastKey
      { s with
        timer := (s.timer.schedule tests hasAction key name firstInterval repeatedInterval random
          clock clock' clock'').2
        lastKey := if hasAction ∧ tests.error = none then key else s.lastKey }
  | event => { s with timer := s.timer.step event }

inductive Event where
  | search (caller : ℕ) (tests : Tests) (hasAction : Bool) (uniqueName : String) (delay clock : ℤ)
  | schedule (caller : ℕ) (tests : Tests) (random clock clock' clock'' : ℤ)
  | other (event : Timer.Event)

def step (s : DelayedTimer) : Event → DelayedTimer
  | .search caller tests hasAction uniqueName delay clock =>
      s.search caller tests hasAction uniqueName delay clock
  | .schedule caller tests random clock clock' clock'' =>
      s.schedule caller tests random clock clock' clock''
  | .other event => s.other event

def namesOf (delayed : List ℤ) (tags : List (ℤ × String)) : List String :=
  (tags.filter fun tag => tag.1 ∈ delayed).map Prod.snd

def delayedNames : List String := namesOf s.delayed s.timer.taskMap.tags

def Unique (s : DelayedTimer) : Prop := s.delayedNames.Nodup

instance (s : DelayedTimer) : Decidable s.Unique :=
  inferInstanceAs (Decidable s.delayedNames.Nodup)

/-- The name under which a task of `ExecuteDelayed` gets into the map: a call makes it, or a thread
puts back the one that it ran. -/
def insertedName (s : DelayedTimer) : Event → Option String
  | .schedule caller tests _ _ _ _ =>
      if tests.error = none then (s.calls caller).map DelayedCall.uniqueName else none
  | .other (.finishTask thread _ interval _) =>
      match s.timer.executing thread with
      | some task =>
          if (task.id ∈ s.timer.pendingTasks ∧ interval > 0) ∧ task.id ∈ s.delayed then
            some task.name
          else none
      | none => none
  | _ => none

end DelayedTimer

structure WatchedTimer where
  timer : DelayedTimer := {}
  sinceSearch : ℕ → List String := fun _ => []
  sinceTaken : ℕ → List String := fun _ => []

namespace WatchedTimer
open DelayedTimer
variable (w : WatchedTimer)

def step (w : WatchedTimer) (event : DelayedTimer.Event) : WatchedTimer :=
  let inserted := (w.timer.insertedName event).toList
  { timer := w.timer.step event
    sinceSearch := fun caller =>
      if w.timer.calls caller = none then [] else w.sinceSearch caller ++ inserted
    sinceTaken := fun thread =>
      if w.timer.timer.executing thread = none then [] else w.sinceTaken thread ++ inserted }

def since : DelayedTimer.Event → List String
  | .schedule caller _ _ _ _ _ => w.sinceSearch caller
  | .other (.finishTask thread _ _ _) => w.sinceTaken thread
  | _ => []

def Undisturbed (w : WatchedTimer) (event : DelayedTimer.Event) : Prop :=
  ∀ name ∈ w.timer.insertedName event, name ∉ w.since event

instance (event : DelayedTimer.Event) : Decidable (w.Undisturbed event) :=
  inferInstanceAs (Decidable (∀ name ∈ w.timer.insertedName event, name ∉ w.since event))

end WatchedTimer

/-! ## What the calls do to the map -/

namespace Timer
variable {timer : Timer}

theorem tags_insertTask {key : ℤ} (unused : key ∉ timer.taskMap.keys) (task : Task) :
    (timer.insertTask key task).2.taskMap.tags.Perm
      ((task.id, task.name) :: timer.taskMap.tags) := by
  unfold insertTask TaskMap.insert
  rw [if_neg unused]
  exact (Ordered.insertBefore_perm _ (key, task) timer.taskMap).map fun entry : ℤ × Task =>
    (entry.2.id, entry.2.name)

variable (timer) in
theorem tags_moveTask (fits : Task → Bool) (proposedTime : ℤ) :
    (timer.moveTask fits proposedTime).2.taskMap.tags.Perm timer.taskMap.tags := by
  unfold moveTask
  cases found : timer.taskMap.find? (fun entry => fits entry.2) with
  | none => exact List.Perm.refl _
  | some entry =>
      obtain ⟨key, task⟩ := entry
      have sub := List.eraseP_sublist (p := fun entry => fits entry.2) (l := timer.taskMap)
      have free := (timer.taskMap.getUnusedScheduleTime_spec proposedTime).1
      have parts := Ordered.find?_append_eraseP_perm (fun entry => fits entry.2) timer.taskMap
      rw [found] at parts
      refine (tags_insertTask (fun member => free ((sub.map Prod.fst).subset member)) _).trans ?_
      exact (parts.map fun entry : ℤ × Task => (entry.2.id, entry.2.name)).symm

variable (timer) in
theorem executing_insertTask (key : ℤ) (task : Task) :
    (timer.insertTask key task).2.executing = timer.executing := by
  unfold insertTask
  split <;> rfl

variable (timer) in
theorem executing_moveTask (fits : Task → Bool) (proposedTime : ℤ) :
    (timer.moveTask fits proposedTime).2.executing = timer.executing := by
  unfold moveTask
  split
  · rfl
  · exact Timer.executing_insertTask _ _ _

variable (timer) in
theorem tags_scheduleAt (tests : Tests) (hasAction : Bool) (taskId : ℤ) (name : String)
    (firstEventTime repeatedInterval random clock clock' : ℤ) :
    (timer.scheduleAt tests hasAction taskId name firstEventTime repeatedInterval random clock
        clock').2.taskMap.tags.Perm
      (if hasAction ∧ tests.error = none then (taskId, name) :: timer.taskMap.tags
      else timer.taskMap.tags) ∧
    (timer.scheduleAt tests hasAction taskId name firstEventTime repeatedInterval random clock
        clock').2.executing = timer.executing := by
  unfold scheduleAt
  cases hasAction with
  | false => simp
  | true =>
      cases error : tests.error with
      | some message => simp
      | none =>
          simp only [Bool.not_true, Bool.false_eq_true, if_false, true_and, if_true]
          generalize max (if firstEventTime ≤ 0 then clock + random else firstEventTime) clock' =
            proposedTime
          generalize grown : ({ timer with created := timer.created ++ [taskId] } : Timer) = timer'
          have map : timer'.taskMap = timer.taskMap := grown ▸ rfl
          have runs : timer'.executing = timer.executing := grown ▸ rfl
          have free := (timer'.taskMap.getUnusedScheduleTime_spec proposedTime).1
          rw [← map, ← runs]
          have tags := tags_insertTask free
            ⟨taskId, name, timer'.taskMap.getUnusedScheduleTime proposedTime, repeatedInterval⟩
          have executing := timer'.executing_insertTask
            (timer'.taskMap.getUnusedScheduleTime proposedTime)
            ⟨taskId, name, timer'.taskMap.getUnusedScheduleTime proposedTime, repeatedInterval⟩
          split
          next success => exact congrArg Prod.snd success ▸ ⟨tags, executing⟩
          next failure => exact congrArg Prod.snd failure ▸ ⟨tags, executing⟩

theorem tags_finishTask {thread : ℕ} {task : Task} (runs : timer.executing thread = some task)
    (scheduledTime interval clock : ℤ) :
    (timer.finishTask thread scheduledTime interval clock).taskMap.tags.Perm
      (if task.id ∈ timer.pendingTasks ∧ interval > 0 then
        (task.id, task.name) :: timer.taskMap.tags
      else timer.taskMap.tags) ∧
    (timer.finishTask thread scheduledTime interval clock).executing =
      Function.update timer.executing thread none := by
  unfold finishTask
  rw [runs]
  simp only
  split_ifs with repeats
  · generalize max (scheduledTime + interval) clock = proposedTime
    generalize finished : ({ timer with
        pendingTasks := timer.pendingTasks.erase task.id
        executing := Function.update timer.executing thread none } : Timer) = timer'
    have map : timer'.taskMap = timer.taskMap := finished ▸ rfl
    have executing : timer'.executing = Function.update timer.executing thread none :=
      finished ▸ rfl
    have free := (timer'.taskMap.getUnusedScheduleTime_spec proposedTime).1
    rw [← map, ← executing]
    exact ⟨tags_insertTask free _, timer'.executing_insertTask _ _⟩
  · exact ⟨List.Perm.refl _, rfl⟩

end Timer

namespace DelayedTimer
variable {s : DelayedTimer}

structure Sound (s : DelayedTimer) : Prop where
  waiting : ∀ tag ∈ s.timer.taskMap.tags, tag.1 ≤ s.lastKey
  executing : ∀ thread task, s.timer.executing thread = some task → task.id ≤ s.lastKey
  delayed : ∀ id ∈ s.delayed, id ≤ s.lastKey

theorem namesOf_cons (delayed : List ℤ) (tag : ℤ × String) (tags : List (ℤ × String)) :
    namesOf delayed (tag :: tags) =
      if tag.1 ∈ delayed then tag.2 :: namesOf delayed tags else namesOf delayed tags := by
  unfold namesOf
  rw [List.filter_cons]
  simp only [decide_eq_true_eq]
  split <;> rfl

theorem namesOf_perm {delayed : List ℤ} {tags tags' : List (ℤ × String)} (perm : tags'.Perm tags) :
    (namesOf delayed tags').Perm (namesOf delayed tags) :=
  (perm.filter _).map _

theorem namesOf_new {delayed : List ℤ} {tags : List (ℤ × String)} {key : ℤ}
    (new : ∀ tag ∈ tags, tag.1 ≠ key) : namesOf (key :: delayed) tags = namesOf delayed tags := by
  unfold namesOf
  congr 1
  refine List.filter_congr fun tag member => ?_
  simp [new tag member]

structure NoMore (s s' : DelayedTimer) : Prop where
  tags : ∃ tags, s'.timer.taskMap.tags.Perm tags ∧ tags.Sublist s.timer.taskMap.tags
  executing : ∀ thread task, s'.timer.executing thread = some task →
    s.timer.executing thread = some task ∨
    s.timer.executing thread = none ∧ ∃ key, s.timer.taskMap = (key, task) :: s'.timer.taskMap
  lastKey : s'.lastKey = s.lastKey
  delayed : s'.delayed = s.delayed

theorem NoMore.sound {s' : DelayedTimer} (noMore : NoMore s s') (sound : s.Sound) : s'.Sound := by
  obtain ⟨tags, perm, sub⟩ := noMore.tags
  refine ⟨?_, ?_, ?_⟩
  · intro tag member
    rw [noMore.lastKey]
    exact sound.waiting tag (sub.subset (perm.mem_iff.mp member))
  · intro thread task runs
    rw [noMore.lastKey]
    rcases noMore.executing thread task runs with before | ⟨-, key, waited⟩
    · exact sound.executing thread task before
    · apply sound.waiting (task.id, task.name)
      rw [TaskMap.tags, waited]
      exact List.mem_cons_self
  · rw [noMore.lastKey, noMore.delayed]
    exact sound.delayed

theorem noMore_of_perm {s' : DelayedTimer}
    (perm : s'.timer.taskMap.tags.Perm s.timer.taskMap.tags)
    (executing : s'.timer.executing = s.timer.executing) (lastKey : s'.lastKey = s.lastKey)
    (delayed : s'.delayed = s.delayed) : NoMore s s' :=
  ⟨⟨_, perm, List.Sublist.refl _⟩, fun _ _ runs => .inl (executing ▸ runs), lastKey, delayed⟩

theorem noMore_of_sublist {s' : DelayedTimer}
    (sub : s'.timer.taskMap.Sublist s.timer.taskMap)
    (executing : s'.timer.executing = s.timer.executing) (lastKey : s'.lastKey = s.lastKey)
    (delayed : s'.delayed = s.delayed) : NoMore s s' :=
  ⟨⟨_, List.Perm.refl _, sub.map _⟩, fun _ _ runs => .inl (executing ▸ runs), lastKey, delayed⟩

theorem noMore_moveTask (fits : Task → Bool) (proposedTime : ℤ) :
    NoMore s { s with timer := (s.timer.moveTask fits proposedTime).2 } :=
  noMore_of_perm (s.timer.tags_moveTask fits proposedTime)
    (s.timer.executing_moveTask fits proposedTime) rfl rfl

theorem noMore_search (caller : ℕ) (tests : Tests) (hasAction : Bool) (uniqueName : String)
    (delay clock : ℤ) :
    NoMore s (s.search caller tests hasAction uniqueName delay clock) := by
  have kept : NoMore s
      { s with timer := (s.timer.executeDelayed tests hasAction uniqueName delay clock).2 } := by
    obtain same | moved := s.timer.executeDelayed_cases tests hasAction uniqueName delay clock
    · rw [same]
      exact noMore_of_perm (List.Perm.refl _) rfl rfl rfl
    · rw [moved]
      exact noMore_moveTask _ _
  unfold search
  split
  next => exact noMore_of_perm (List.Perm.refl _) rfl rfl rfl
  next found =>
    rw [found] at kept
    exact kept
  next missing =>
    rw [missing] at kept
    exact ⟨kept.tags, kept.executing, rfl, rfl⟩

theorem noMore_takeTask (thread : ℕ) (shuttingDown : Bool) (clock : ℤ) :
    NoMore s { s with timer := s.timer.takeTask thread shuttingDown clock } := by
  unfold Timer.takeTask
  split
  next key task taskMap idle first =>
    split_ifs with due
    · have rest : taskMap.Sublist s.timer.taskMap := first ▸ List.sublist_cons_self _ _
      refine ⟨⟨_, List.Perm.refl _, rest.map _⟩, ?_, rfl, rfl⟩
      intro other task' runs
      dsimp only at runs
      rw [Function.update_apply] at runs
      split at runs
      next same =>
        obtain rfl := Option.some.inj runs
        exact .inr ⟨same ▸ idle, key, first⟩
      next => exact .inl runs
    · exact noMore_of_perm (List.Perm.refl _) rfl rfl rfl
  next => exact noMore_of_perm (List.Perm.refl _) rfl rfl rfl

theorem noMore_finishTask {thread : ℕ} {interval : ℤ}
    (done : ∀ task ∈ s.timer.executing thread,
      ¬ (task.id ∈ s.timer.pendingTasks ∧ interval > 0)) (scheduledTime clock : ℤ) :
    NoMore s { s with timer := s.timer.finishTask thread scheduledTime interval clock } := by
  cases runs : s.timer.executing thread with
  | none =>
      have same : s.timer.finishTask thread scheduledTime interval clock = s.timer := by
        simp [Timer.finishTask, runs]
      rw [same]
      exact noMore_of_perm (List.Perm.refl _) rfl rfl rfl
  | some task =>
      obtain ⟨tags, executing⟩ := Timer.tags_finishTask runs scheduledTime interval clock
      rw [if_neg (done task runs)] at tags
      refine ⟨⟨_, tags, List.Sublist.refl _⟩, ?_, rfl, rfl⟩
      intro other task' runs'
      dsimp only at runs'
      rw [executing, Function.update_apply] at runs'
      split at runs'
      · cases runs'
      · exact .inl runs'

theorem noMore_call (event : Timer.Event) (makes : event.makes = none)
    (ends : ∀ thread scheduledTime interval clock,
      event ≠ .finishTask thread scheduledTime interval clock) : NoMore s (s.other event) := by
  cases event with
  | scheduleAt => cases makes
  | schedule => cases makes
  | finishTask thread scheduledTime interval clock => exact absurd rfl (ends _ _ _ _)
  | executeDelayed => exact noMore_of_perm (List.Perm.refl _) rfl rfl rfl
  | takeTask thread shuttingDown clock => exact noMore_takeTask thread shuttingDown clock
  | cancel tests taskId =>
      change NoMore s { s with timer := (s.timer.cancel tests taskId).2 }
      unfold Timer.cancel
      cases tests.error with
      | some message => exact noMore_of_perm (List.Perm.refl _) rfl rfl rfl
      | none =>
          dsimp only
          split_ifs
          · exact noMore_of_sublist List.eraseP_sublist rfl rfl rfl
          · exact noMore_of_perm (List.Perm.refl _) rfl rfl rfl
          · exact noMore_of_perm (List.Perm.refl _) rfl rfl rfl
  | cancelAll tests =>
      change NoMore s { s with timer := (s.timer.cancelAll tests).2 }
      unfold Timer.cancelAll
      cases tests.error with
      | some message => exact noMore_of_perm (List.Perm.refl _) rfl rfl rfl
      | none => exact noMore_of_sublist (List.nil_sublist _) rfl rfl rfl
  | reschedule tests taskId nextEventTime clock =>
      change NoMore s { s with timer := (s.timer.reschedule tests taskId nextEventTime clock).2 }
      obtain same | moved := s.timer.reschedule_cases tests taskId nextEventTime clock
      · rw [same]
        exact noMore_of_perm (List.Perm.refl _) rfl rfl rfl
      · rw [moved]
        exact noMore_moveTask _ _

/-! ## A task gets into the map -/

structure Makes (s s' : DelayedTimer) (name : String) : Prop where
  tags : s'.timer.taskMap.tags.Perm ((s'.lastKey, name) :: s.timer.taskMap.tags)
  executing : s'.timer.executing = s.timer.executing
  new : s.lastKey < s'.lastKey
  delayed : s'.delayed = s.delayed ∨ s'.delayed = s'.lastKey :: s.delayed

variable {s' : DelayedTimer} {name : String}

theorem Makes.sound (makes : Makes s s' name) (sound : s.Sound) : s'.Sound := by
  refine ⟨?_, ?_, ?_⟩
  · intro tag member
    rcases List.mem_cons.mp (makes.tags.mem_iff.mp member) with rfl | old
    · exact le_rfl
    · exact (sound.waiting tag old).trans makes.new.le
  · intro thread task runs
    rw [makes.executing] at runs
    exact (sound.executing thread task runs).trans makes.new.le
  · intro id member
    rcases makes.delayed with same | grown
    · exact (sound.delayed id (same ▸ member)).trans makes.new.le
    · rw [grown] at member
      rcases List.mem_cons.mp member with rfl | old
      · exact le_rfl
      · exact (sound.delayed id old).trans makes.new.le

theorem Makes.kept (makes : Makes s s' name) (sound : s.Sound)
    (notDelayed : s'.delayed = s.delayed) : s'.delayedNames.Perm s.delayedNames := by
  have outside : s'.lastKey ∉ s.delayed := fun member =>
    absurd (sound.delayed _ member) (not_le.mpr makes.new)
  unfold delayedNames
  rw [notDelayed]
  refine (namesOf_perm makes.tags).trans ?_
  rw [namesOf_cons, if_neg outside]

theorem Makes.names (makes : Makes s s' name) (sound : s.Sound)
    (isDelayed : s'.delayed = s'.lastKey :: s.delayed) :
    s'.delayedNames.Perm (name :: s.delayedNames) := by
  have new : ∀ tag ∈ s.timer.taskMap.tags, tag.1 ≠ s'.lastKey := fun tag member same =>
    absurd (sound.waiting tag member) (not_le.mpr (same ▸ makes.new))
  unfold delayedNames
  rw [isDelayed]
  refine (namesOf_perm makes.tags).trans ?_
  rw [namesOf_cons, if_pos List.mem_cons_self, namesOf_new new]

theorem makes_schedule {caller : ℕ} {call : DelayedCall} (goesOn : s.calls caller = some call)
    {tests : Tests} (up : tests.error = none) (random clock clock' clock'' : ℤ) :
    Makes s (s.schedule caller tests random clock clock' clock'') call.uniqueName ∧
      (s.schedule caller tests random clock clock' clock'').delayed =
        (s.schedule caller tests random clock clock' clock'').lastKey :: s.delayed := by
  obtain ⟨tags, executing⟩ := s.timer.tags_scheduleAt tests true
    (newInt64Key s.lastKey) call.uniqueName (clock + call.delay) 0 random clock' clock''
  unfold schedule
  rw [goesOn]
  simp only [up, if_true]
  rw [if_pos ⟨rfl, up⟩] at tags
  exact ⟨⟨tags, executing, lt_newInt64Key _, .inr rfl⟩, trivial⟩

theorem noMore_schedule {caller : ℕ} {tests : Tests}
    (refused : s.calls caller = none ∨ tests.error ≠ none) (random clock clock' clock'' : ℤ) :
    NoMore s (s.schedule caller tests random clock clock' clock'') := by
  unfold schedule
  cases goesOn : s.calls caller with
  | none => exact noMore_of_perm (List.Perm.refl _) rfl rfl rfl
  | some call =>
      have down : tests.error ≠ none := by simpa [goesOn] using refused
      obtain ⟨tags, executing⟩ := s.timer.tags_scheduleAt tests true
        (newInt64Key s.lastKey) call.uniqueName (clock + call.delay) 0 random clock' clock''
      rw [if_neg fun up => down up.2] at tags
      simp only [down, if_false]
      exact noMore_of_perm tags executing rfl rfl

section Back
variable {thread : ℕ} {task : Task} (runs : s.timer.executing thread = some task)
  (pending : task.id ∈ s.timer.pendingTasks) {interval : ℤ} (repeats : interval > 0)
  (scheduledTime clock : ℤ)
include runs pending repeats

theorem sound_back (sound : s.Sound) :
    (s.other (.finishTask thread scheduledTime interval clock)).Sound := by
  obtain ⟨tags, executing⟩ := Timer.tags_finishTask runs scheduledTime interval clock
  rw [if_pos ⟨pending, repeats⟩] at tags
  refine ⟨?_, ?_, sound.delayed⟩
  · intro tag member
    rcases List.mem_cons.mp (tags.mem_iff.mp member) with rfl | old
    · exact sound.executing thread task runs
    · exact sound.waiting tag old
  · intro other task' runs'
    change (s.timer.finishTask thread scheduledTime interval clock).executing other = _ at runs'
    rw [executing, Function.update_apply] at runs'
    split at runs'
    · cases runs'
    · exact sound.executing other task' runs'

omit pending repeats in
theorem executing_back {other : ℕ} {task' : Task}
    (runs' : (s.other (.finishTask thread scheduledTime interval clock)).timer.executing other =
      some task') : s.timer.executing other = some task' := by
  obtain ⟨-, executing⟩ := Timer.tags_finishTask runs scheduledTime interval clock
  change (s.timer.finishTask thread scheduledTime interval clock).executing other = _ at runs'
  rw [executing, Function.update_apply] at runs'
  split at runs'
  · contradiction
  · exact runs'

theorem names_back :
    (s.other (.finishTask thread scheduledTime interval clock)).delayedNames.Perm
      (if task.id ∈ s.delayed then task.name :: s.delayedNames else s.delayedNames) := by
  obtain ⟨tags, -⟩ := Timer.tags_finishTask runs scheduledTime interval clock
  rw [if_pos ⟨pending, repeats⟩] at tags
  refine (namesOf_perm tags).trans ?_
  rw [namesOf_cons]
  exact List.Perm.refl _

end Back

/-! ## Steps -/

theorem NoMore.names (noMore : NoMore s s') :
    ∃ names, s'.delayedNames.Perm names ∧ names.Sublist s.delayedNames := by
  obtain ⟨tags, perm, sub⟩ := noMore.tags
  unfold delayedNames
  rw [noMore.delayed]
  exact ⟨_, namesOf_perm perm, (sub.filter _).map _⟩

structure Naming (s s' : DelayedTimer) (inserted : Option String) : Prop where
  sound : s'.Sound
  names : ∃ names, s'.delayedNames.Perm (inserted.toList ++ names) ∧
    names.Sublist s.delayedNames
  executing : ∀ thread task, s'.timer.executing thread = some task →
    s.timer.executing thread = some task ∨
    s.timer.executing thread = none ∧ ∃ key, s.timer.taskMap = (key, task) :: s'.timer.taskMap
  delayed : ∀ id ∈ s'.delayed, id ≤ s.lastKey → id ∈ s.delayed

theorem NoMore.toNaming (noMore : NoMore s s') (sound : s.Sound) : Naming s s' none :=
  ⟨noMore.sound sound, noMore.names, noMore.executing, fun _ member _ => noMore.delayed ▸ member⟩

theorem Makes.toNaming (makes : Makes s s' name) (sound : s.Sound) {inserted : Option String}
    (names : s'.delayedNames.Perm (inserted.toList ++ s.delayedNames)) : Naming s s' inserted := by
  refine ⟨makes.sound sound, ⟨s.delayedNames, names, List.Sublist.refl _⟩,
    fun thread task runs => .inl (makes.executing ▸ runs), ?_⟩
  intro id member old
  rcases makes.delayed with same | grown
  · exact same ▸ member
  · rw [grown] at member
    rcases List.mem_cons.mp member with rfl | member
    · exact absurd old (not_le.mpr makes.new)
    · exact member

theorem names_scheduleAt (sound : s.Sound) (tests : Tests) (hasAction : Bool) (id : ℤ)
    (name : String) (firstEventTime repeatedInterval random clock clock' : ℤ) :
    Naming s (s.other (.scheduleAt tests hasAction id name firstEventTime repeatedInterval random
      clock clock')) none := by
  set after := s.other (.scheduleAt tests hasAction id name firstEventTime repeatedInterval random
    clock clock') with called
  obtain ⟨tags, executing⟩ : after.timer.taskMap.tags.Perm
        (if hasAction ∧ tests.error = none then
          (newInt64Key s.lastKey, name) :: s.timer.taskMap.tags
        else s.timer.taskMap.tags) ∧
      after.timer.executing = s.timer.executing :=
    s.timer.tags_scheduleAt tests hasAction (newInt64Key s.lastKey) name firstEventTime
      repeatedInterval random clock clock'
  by_cases made : hasAction ∧ tests.error = none
  · have lastKey : after.lastKey = newInt64Key s.lastKey := if_pos made
    rw [if_pos made, ← lastKey] at tags
    have makes : Makes s after name :=
      ⟨tags, executing, lastKey ▸ lt_newInt64Key s.lastKey, .inl rfl⟩
    exact makes.toNaming sound (makes.kept sound rfl)
  · rw [if_neg made] at tags
    have noMore : NoMore s after := noMore_of_perm tags executing (if_neg made) rfl
    exact noMore.toNaming sound

theorem names_step (sound : s.Sound) (event : Event) :
    Naming s (s.step event) (s.insertedName event) := by
  cases event with
  | search caller tests hasAction uniqueName delay clock =>
      exact (noMore_search caller tests hasAction uniqueName delay clock).toNaming sound
  | schedule caller tests random clock clock' clock'' =>
      by_cases refused : s.calls caller = none ∨ tests.error ≠ none
      · have nothing : s.insertedName (.schedule caller tests random clock clock' clock'') =
            none := by
          rcases refused with idle | down
          · simp [insertedName, idle]
          · simp [insertedName, down]
        rw [nothing]
        exact (noMore_schedule refused random clock clock' clock'').toNaming sound
      · obtain ⟨goesOn, up⟩ := not_or.mp refused
        obtain ⟨call, goesOn⟩ := Option.ne_none_iff_exists'.mp goesOn
        obtain ⟨makes, isDelayed⟩ :=
          makes_schedule goesOn (not_not.mp up) random clock clock' clock''
        have name : s.insertedName (.schedule caller tests random clock clock' clock'') =
            some call.uniqueName := by
          simp [insertedName, goesOn, not_not.mp up]
        rw [name]
        exact makes.toNaming sound (makes.names sound isDelayed)
  | other event =>
      cases event with
      | scheduleAt tests hasAction id name firstEventTime repeatedInterval random clock clock' =>
          exact names_scheduleAt sound tests hasAction id name firstEventTime repeatedInterval
            random clock clock'
      | schedule tests hasAction id name firstInterval repeatedInterval random clock clock'
          clock'' =>
          exact names_scheduleAt sound tests hasAction id name (clock + firstInterval)
            repeatedInterval random clock' clock''
      | finishTask thread scheduledTime interval clock =>
          by_cases back : ∃ task ∈ s.timer.executing thread,
              task.id ∈ s.timer.pendingTasks ∧ interval > 0
          · obtain ⟨task, runs, pending, repeats⟩ := back
            have runs : s.timer.executing thread = some task := runs
            have names := names_back runs pending repeats scheduledTime clock
            refine ⟨sound_back runs pending repeats scheduledTime clock sound,
              ⟨s.delayedNames, ?_, List.Sublist.refl _⟩, ?_, fun id member _ => member⟩
            swap
            · exact fun other task' runs' =>
                .inl (executing_back runs scheduledTime clock runs')
            simp only [insertedName, runs, pending, repeats, and_self, true_and]
            by_cases isDelayed : task.id ∈ s.delayed
            · rw [if_pos isDelayed] at names ⊢
              exact names
            · rw [if_neg isDelayed] at names ⊢
              exact names
          · push Not at back
            have nothing : s.insertedName (.other (.finishTask thread scheduledTime interval
                clock)) = none := by
              cases runs : s.timer.executing thread with
              | none => simp [insertedName, runs]
              | some task =>
                  have stays := back task runs
                  simp only [insertedName, runs]
                  exact if_neg fun all => absurd all.1.2 (not_lt.mpr (stays all.1.1))
            rw [nothing]
            exact (noMore_finishTask (fun task runs both =>
              absurd both.2 (not_lt.mpr (back task runs both.1))) scheduledTime clock).toNaming sound
      | cancel tests taskId =>
          exact (noMore_call (.cancel tests taskId) rfl (by simp)).toNaming sound
      | cancelAll tests => exact (noMore_call (.cancelAll tests) rfl (by simp)).toNaming sound
      | reschedule tests taskId nextEventTime clock =>
          exact (noMore_call (.reschedule tests taskId nextEventTime clock) rfl
            (by simp)).toNaming sound
      | executeDelayed tests hasAction uniqueName delay clock =>
          exact (noMore_call (.executeDelayed tests hasAction uniqueName delay clock) rfl
            (by simp)).toNaming sound
      | takeTask thread shuttingDown clock =>
          exact (noMore_takeTask thread shuttingDown clock).toNaming sound

/-! ## Calls and threads under way -/

theorem notMem_delayedNames (absent : ∀ entry ∈ s.timer.taskMap, entry.2.name ≠ name) :
    name ∉ s.delayedNames := by
  intro member
  obtain ⟨tag, listed, rfl⟩ := List.mem_map.mp member
  obtain ⟨entry, waits, rfl⟩ := List.mem_map.mp (List.mem_of_mem_filter listed)
  exact absent entry waits rfl

theorem calls_search {caller : ℕ} {tests : Tests} {hasAction : Bool} {uniqueName : String}
    {delay clock : ℤ} (idle : s.calls caller = none) {call : DelayedCall}
    (goesOn : (s.search caller tests hasAction uniqueName delay clock).calls caller = some call) :
    call.uniqueName ∉ (s.search caller tests hasAction uniqueName delay clock).delayedNames := by
  unfold search at goesOn ⊢
  rw [idle] at goesOn ⊢
  cases found : s.timer.executeDelayed tests hasAction uniqueName delay clock with
  | mk result timer =>
      cases result with
      | some result => simp [found, idle] at goesOn
      | none =>
          simp only [found, Function.update_self, Option.some.injEq] at goesOn ⊢
          obtain rfl := goesOn
          apply notMem_delayedNames
          dsimp only
          unfold Timer.executeDelayed at found
          split_ifs at found
          · simp at found
          · simp at found
          · cases up : tests.error with
            | some message => simp [up] at found
            | none =>
                simp only [up] at found
                unfold Timer.moveTask at found
                cases first : s.timer.taskMap.find? fun entry => entry.2.name == uniqueName with
                | some entry => simp [first] at found
                | none =>
                    simp only [first, Prod.mk.injEq, true_and] at found
                    obtain rfl := found
                    intro entry waits
                    simpa using List.find?_eq_none.mp first entry waits

theorem calls_step {event : Event} {caller : ℕ} {call : DelayedCall}
    (goesOn : (s.step event).calls caller = some call) :
    s.calls caller = some call ∨
    s.calls caller = none ∧ call.uniqueName ∉ (s.step event).delayedNames := by
  cases event with
  | search other tests hasAction uniqueName delay clock =>
      by_cases here : s.calls caller = none ∧ caller = other
      · obtain ⟨idle, rfl⟩ := here
        exact .inr ⟨idle, calls_search idle goesOn⟩
      · left
        change (s.search other tests hasAction uniqueName delay clock).calls caller = _ at goesOn
        unfold search at goesOn
        split at goesOn
        next => exact goesOn
        next => exact goesOn
        next idle _ =>
          have elsewhere : caller ≠ other := fun same => here ⟨same ▸ idle, same⟩
          dsimp only at goesOn
          rwa [Function.update_of_ne elsewhere] at goesOn
  | schedule other tests random clock clock' clock'' =>
      left
      change (s.schedule other tests random clock clock' clock'').calls caller = _ at goesOn
      unfold schedule at goesOn
      split at goesOn
      next => exact goesOn
      next =>
        dsimp only at goesOn
        rw [Function.update_apply] at goesOn
        split at goesOn
        · contradiction
        · exact goesOn
  | other event => cases event <;> exact .inl goesOn

end DelayedTimer

/-! ## Watched runs -/

namespace WatchedTimer
open DelayedTimer
variable {w : WatchedTimer}

structure Clear (w : WatchedTimer) : Prop where
  sound : w.timer.Sound
  unique : w.timer.Unique
  searched : ∀ caller call, w.timer.calls caller = some call →
    call.uniqueName ∉ w.sinceSearch caller → call.uniqueName ∉ w.timer.delayedNames
  taken : ∀ thread task, w.timer.timer.executing thread = some task → task.id ∈ w.timer.delayed →
    task.name ∉ w.sinceTaken thread → task.name ∉ w.timer.delayedNames

theorem Clear.free (clear : w.Clear) {event : DelayedTimer.Event}
    (undisturbed : w.Undisturbed event) :
    ∀ name ∈ w.timer.insertedName event, name ∉ w.timer.delayedNames := by
  intro name inserted
  have apart := undisturbed name inserted
  unfold insertedName at inserted
  split at inserted
  next caller tests _ _ _ _ =>
    split at inserted
    · obtain ⟨call, goesOn, rfl⟩ := Option.map_eq_some_iff.mp inserted
      exact clear.searched caller call goesOn apart
    · contradiction
  next thread _ interval _ =>
    split at inserted
    next task runs =>
      split at inserted
      next back =>
        obtain rfl := Option.some.inj inserted
        exact clear.taken thread task runs back.2 apart
      next => contradiction
    next => contradiction
  next => contradiction

theorem notMem_step {s s' : DelayedTimer} {inserted : Option String} (names : Naming s s' inserted)
    {name : String} (absent : name ∉ s.delayedNames) (other : name ∉ inserted.toList) :
    name ∉ s'.delayedNames := by
  obtain ⟨kept, perm, sub⟩ := names.names
  intro member
  rcases List.mem_append.mp (perm.mem_iff.mp member) with new | old
  · exact other new
  · exact absent (sub.subset old)

theorem notMem_taken {s s' : DelayedTimer} {inserted : Option String} (names : Naming s s' inserted)
    (sound : s.Sound) (unique : s.Unique) {key : ℤ} {task : Task}
    (first : s.timer.taskMap = (key, task) :: s'.timer.taskMap) (isDelayed : task.id ∈ s'.delayed) :
    task.name ∉ s'.delayedNames := by
  have tags : s.timer.taskMap.tags = (task.id, task.name) :: s'.timer.taskMap.tags := by
    rw [TaskMap.tags, first]
    rfl
  have old : ∀ tag ∈ s'.timer.taskMap.tags, tag.1 ≤ s.lastKey := fun tag member =>
    sound.waiting tag (tags ▸ List.mem_cons_of_mem _ member)
  have own : task.id ∈ s.delayed :=
    names.delayed _ isDelayed (sound.waiting _ (tags ▸ List.mem_cons_self))
  change s.delayedNames.Nodup at unique
  unfold delayedNames at unique
  rw [tags, namesOf_cons, if_pos own] at unique
  intro member
  apply (List.nodup_cons.mp unique).1
  obtain ⟨tag, listed, name⟩ := List.mem_map.mp member
  obtain ⟨waits, made⟩ := List.mem_filter.mp listed
  have before := names.delayed tag.1 (by simpa using made) (old tag waits)
  exact List.mem_map.mpr ⟨tag, List.mem_filter.mpr ⟨waits, by simpa using before⟩, name⟩

theorem Clear.step (clear : w.Clear) {event : DelayedTimer.Event}
    (undisturbed : w.Undisturbed event) : (w.step event).Clear := by
  have names := names_step clear.sound event
  have free := clear.free undisturbed
  refine ⟨names.sound, ?_, ?_, ?_⟩
  · obtain ⟨kept, perm, sub⟩ := names.names
    change (w.timer.step event).delayedNames.Nodup
    rw [perm.nodup_iff]
    cases inserted : w.timer.insertedName event with
    | none => exact clear.unique.sublist sub
    | some name =>
        exact List.nodup_cons.mpr
          ⟨fun member => free name inserted (sub.subset member), clear.unique.sublist sub⟩
  · intro caller call goesOn apart
    rcases calls_step goesOn with before | ⟨-, absent⟩
    · have kept : call.uniqueName ∉ w.sinceSearch caller ++
          (w.timer.insertedName event).toList := by
        have since : (w.step event).sinceSearch caller =
            w.sinceSearch caller ++ (w.timer.insertedName event).toList :=
          if_neg (by simp [before])
        rwa [since] at apart
      rw [List.mem_append, not_or] at kept
      exact notMem_step names (clear.searched caller call before kept.1) kept.2
    · exact absent
  · intro thread task runs isDelayed apart
    rcases names.executing thread task runs with before | ⟨-, key, first⟩
    · have kept : task.name ∉ w.sinceTaken thread ++ (w.timer.insertedName event).toList := by
        have since : (w.step event).sinceTaken thread =
            w.sinceTaken thread ++ (w.timer.insertedName event).toList :=
          if_neg (by simp [before])
        rwa [since] at apart
      rw [List.mem_append, not_or] at kept
      have old := names.delayed task.id isDelayed (clear.sound.executing thread task before)
      exact notMem_step names (clear.taken thread task before old kept.1) kept.2
    · exact notMem_taken names clear.sound clear.unique first isDelayed

theorem always_unique (clear : w.Clear) {events : List DelayedTimer.Event}
    (undisturbed : Along step Undisturbed w events) :
    Always DelayedTimer.step Unique w.timer events := by
  induction events generalizing w with
  | nil => exact clear.unique
  | cons event events ih => exact ⟨clear.unique, ih (clear.step undisturbed.1) undisturbed.2⟩

end WatchedTimer

namespace DelayedTimer

/-- Names stay unique as long as nobody puts a task of the name into the map between the search of a
call and the task it makes, or while a task that goes back is out of it. -/
theorem unique_of_undisturbed {events : List Event}
    (undisturbed : Along WatchedTimer.step WatchedTimer.Undisturbed {} events) :
    Always step Unique {} events := by
  have start : WatchedTimer.Clear {} := by
    refine ⟨⟨by simp [TaskMap.tags], by simp, by simp⟩, List.nodup_nil, ?_, ?_⟩
    · intro caller call goesOn
      contradiction
    · intro thread task runs
      contradiction
  exact WatchedTimer.always_unique start undisturbed

theorem unique_of_undisturbed_inTurn :
    Always step Unique {}
      [.search 0 ⟨true, false⟩ true "poll" 5 10, .schedule 0 ⟨true, false⟩ 0 12 12 12,
        .other (.takeTask 0 false 100), .search 1 ⟨true, false⟩ true "poll" 5 101,
        .schedule 1 ⟨true, false⟩ 0 102 102 102, .search 0 ⟨true, false⟩ true "poll" 5 103,
        .other (.finishTask 0 12 0 104)] :=
  unique_of_undisturbed (by decide +kernel)

theorem two_tasks_of_one_name : ¬ ∀ events, Always step Unique {} events := by
  intro always
  have last := (always [.search 0 ⟨true, false⟩ true "poll" 5 10,
    .search 1 ⟨true, false⟩ true "poll" 5 11, .schedule 0 ⟨true, false⟩ 0 12 12 12,
    .schedule 1 ⟨true, false⟩ 0 13 13 13]).last
  exact absurd last (by decide +kernel)

end DelayedTimer

end SpotGridBot.Utils
