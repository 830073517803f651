import Mathlib.Algebra.BigOperators.Group.List.Basic
import Mathlib.Algebra.Order.Field.Rat
import Mathlib.Data.List.Chain
import Mathlib.Tactic.Linarith
import Mathlib.Tactic.Ring
import Mathlib.Tactic.Positivity

namespace SpotGridBot.Utils.BgwMonitor

/-- `std::map<size_t, int64_t>`, in key order. -/
abbrev QueueSizeMap := List (ℕ × ℤ)

structure Result where
  totalDuration : ℤ := 0
  durations : List ℤ := []
  queueSizeMap : QueueSizeMap := []
deriving DecidableEq

structure Task where
  active : Bool
  firstStart : ℤ
  latestStart : ℤ
  currentBusy : ℕ
  durations : List ℤ
  monitorQueueSize : Bool
  latestQueueSizeUpdate : ℤ
  currentQueueSize : ℕ
  queueSizeMap : QueueSizeMap

def divide (a b : ℚ) : Option ℚ := if b = 0 then none else some (a / b)

namespace Result
variable (result : Result)

def valid : Bool := result.totalDuration > 0 && result.durations.length > 1

def front : ℤ := result.durations.headD 0

def back : ℤ := result.durations.getLastD 0

def busyRate : Option ℚ :=
  if !result.valid then some 0
  else (divide result.front result.totalDuration).map (1 - ·)

def fullyOccupiedRate : Option ℚ :=
  if !result.valid then some 0
  else divide result.back result.totalDuration

/-- The loop of `AverageUtilization`, from index `ix` on. -/
def weightedDurationSum : ℕ → List ℤ → ℤ
  | _, [] => 0
  | ix, duration :: durations => ix * duration + weightedDurationSum (ix + 1) durations

def averageUtilization : Option ℚ :=
  if !result.valid || result.totalDuration ≤ result.front then some 0
  else
    divide (weightedDurationSum 1 result.durations.tail)
      ((result.durations.length - 1 : ℕ) * (result.totalDuration - result.front))

end Result

def QueueSizeMap.update (queueSize : ℕ) (duration : ℤ) : QueueSizeMap → QueueSizeMap
  | [] => [(queueSize, duration)]
  | (size, total) :: queueSizeMap =>
      if queueSize = size then (size, total + duration) :: queueSizeMap
      else if queueSize < size then (queueSize, duration) :: (size, total) :: queueSizeMap
      else (size, total) :: QueueSizeMap.update queueSize duration queueSizeMap

def stamp (timestamp clock : ℤ) : ℤ := if timestamp ≠ 0 then timestamp else clock

namespace Task

def new (maxThreads busyThreads : ℕ) (queueSize : Option ℕ) (timestamp clock : ℤ) : Task :=
  let active : Bool := maxThreads > 0 && busyThreads ≤ maxThreads
  let firstStart := if active then stamp timestamp clock else 0
  { active := active
    firstStart := firstStart
    latestStart := firstStart
    currentBusy := if active then busyThreads else 0
    durations := if active then List.replicate (maxThreads + 1) 0 else []
    monitorQueueSize := queueSize.isSome
    latestQueueSizeUpdate := if queueSize.isSome then firstStart else 0
    currentQueueSize := queueSize.getD 0
    queueSizeMap := [] }

variable (task : Task)

def updateBusyThreads (busyThreads : ℕ) (timestamp clock : ℤ) : Bool × Task :=
  if !task.active || busyThreads ≥ task.durations.length then (false, task)
  else if busyThreads = task.currentBusy then (true, task)
  else
    let ts := stamp timestamp clock
    (true, { task with
      durations := task.durations.modify task.currentBusy (· + (ts - task.latestStart))
      currentBusy := busyThreads
      latestStart := ts })

def updateQueueSize (queueSize : ℕ) (timestamp clock : ℤ) : Bool × Task :=
  if !task.monitorQueueSize then (false, task)
  else if !task.active then (false, task)
  else if queueSize = task.currentQueueSize then (true, task)
  else
    let ts := stamp timestamp clock
    (true, { task with
      queueSizeMap := task.queueSizeMap.update task.currentQueueSize
        (ts - task.latestQueueSizeUpdate)
      currentQueueSize := queueSize
      latestQueueSizeUpdate := ts })

def getResultAndReset (timestamp clock : ℤ) : Result × Task :=
  if !task.active then ({}, task)
  else
    let ts := stamp timestamp clock
    let durations := task.durations.modify task.currentBusy (· + (ts - task.latestStart))
    let queueSizeMap :=
      if task.monitorQueueSize then
        task.queueSizeMap.update task.currentQueueSize (ts - task.latestQueueSizeUpdate)
      else task.queueSizeMap
    ({ totalDuration := ts - task.firstStart
       durations := durations
       queueSizeMap := if task.monitorQueueSize then queueSizeMap else [] },
      { task with
        latestStart := ts
        firstStart := ts
        durations := List.replicate task.durations.length 0
        latestQueueSizeUpdate := if task.monitorQueueSize then ts else task.latestQueueSizeUpdate
        queueSizeMap := if task.monitorQueueSize then [] else queueSizeMap })

end Task

inductive Call where
  | updateBusyThreads (busyThreads : ℕ) (timestamp clock : ℤ)
  | updateQueueSize (queueSize : ℕ) (timestamp clock : ℤ)
  | getResultAndReset (timestamp clock : ℤ)

def Call.time : Call → ℤ
  | .updateBusyThreads _ timestamp clock => stamp timestamp clock
  | .updateQueueSize _ timestamp clock => stamp timestamp clock
  | .getResultAndReset timestamp clock => stamp timestamp clock

def Task.results : Task → List Call → List (ℤ × Result)
  | _, [] => []
  | task, .updateBusyThreads busyThreads timestamp clock :: calls =>
      (task.updateBusyThreads busyThreads timestamp clock).2.results calls
  | task, .updateQueueSize queueSize timestamp clock :: calls =>
      (task.updateQueueSize queueSize timestamp clock).2.results calls
  | task, .getResultAndReset timestamp clock :: calls =>
      let (result, task) := task.getResultAndReset timestamp clock
      (stamp timestamp clock, result) :: task.results calls

theorem sum_modify {durations : List ℤ} {ix : ℕ} (inside : ix < durations.length) (duration : ℤ) :
    (durations.modify ix (· + duration)).sum = durations.sum + duration := by
  induction durations generalizing ix with
  | nil => exact absurd inside (Nat.not_lt_zero ix)
  | cons d durations ih =>
      cases ix with
      | zero =>
          rw [List.modify_zero_cons, List.sum_cons, List.sum_cons]
          ring
      | succ ix =>
          rw [List.modify_succ_cons, List.sum_cons, List.sum_cons,
            ih (Nat.lt_of_succ_lt_succ inside), add_assoc]

theorem nonneg_modify {durations : List ℤ} (nonneg : ∀ d ∈ durations, 0 ≤ d) (ix : ℕ)
    {duration : ℤ} (more : 0 ≤ duration) : ∀ d ∈ durations.modify ix (· + duration), 0 ≤ d := by
  induction durations generalizing ix with
  | nil => simp
  | cons d durations ih =>
      obtain ⟨first, rest⟩ := List.forall_mem_cons.mp nonneg
      cases ix with
      | zero =>
          rw [List.modify_zero_cons]
          exact List.forall_mem_cons.mpr ⟨add_nonneg first more, rest⟩
      | succ ix =>
          rw [List.modify_succ_cons]
          exact List.forall_mem_cons.mpr ⟨first, ih rest ix⟩

namespace QueueSizeMap

def total (queueSizeMap : QueueSizeMap) : ℤ := (queueSizeMap.map Prod.snd).sum

theorem total_update (queueSize : ℕ) (duration : ℤ) (queueSizeMap : QueueSizeMap) :
    (queueSizeMap.update queueSize duration).total = queueSizeMap.total + duration := by
  induction queueSizeMap with
  | nil => simp [update, total]
  | cons entry queueSizeMap ih =>
      simp only [total, List.map_cons, List.sum_cons] at ih ⊢
      unfold update
      split_ifs with here before
      · simp only [List.map_cons, List.sum_cons]
        ring
      · simp only [List.map_cons, List.sum_cons]
        ring
      · simp only [List.map_cons, List.sum_cons, ih]
        ring

theorem nonneg_update (queueSize : ℕ) {duration : ℤ} (more : 0 ≤ duration)
    {queueSizeMap : QueueSizeMap} (nonneg : ∀ entry ∈ queueSizeMap, 0 ≤ entry.2) :
    ∀ entry ∈ queueSizeMap.update queueSize duration, 0 ≤ entry.2 := by
  induction queueSizeMap with
  | nil => simpa [update] using more
  | cons entry queueSizeMap ih =>
      obtain ⟨first, rest⟩ := List.forall_mem_cons.mp nonneg
      unfold update
      split_ifs with here before
      · exact List.forall_mem_cons.mpr ⟨add_nonneg first more, rest⟩
      · exact List.forall_mem_cons.mpr ⟨more, nonneg⟩
      · exact List.forall_mem_cons.mpr ⟨first, ih rest⟩

end QueueSizeMap

structure Task.Sound (task : Task) (now : ℤ) : Prop where
  active : task.active = true
  busy : task.currentBusy < task.durations.length
  nonneg : ∀ duration ∈ task.durations, 0 ≤ duration
  sum : task.durations.sum = task.latestStart - task.firstStart
  latest : task.latestStart ≤ now
  queueNonneg : ∀ entry ∈ task.queueSizeMap, 0 ≤ entry.2
  queueSum : task.monitorQueueSize = true →
    task.queueSizeMap.total = task.latestQueueSizeUpdate - task.firstStart
  queueLatest : task.monitorQueueSize = true → task.latestQueueSizeUpdate ≤ now

structure Result.Accounts (result : Result) (monitored : Bool) : Prop where
  nonneg : ∀ duration ∈ result.durations, 0 ≤ duration
  sum : result.durations.sum = result.totalDuration
  queueNonneg : ∀ entry ∈ result.queueSizeMap, 0 ≤ entry.2
  queueSum : monitored = true → result.queueSizeMap.total = result.totalDuration

def Fraction (rate : Option ℚ) : Prop := ∃ q, rate = some q ∧ 0 ≤ q ∧ q ≤ 1

def Adjacent : ℤ → List (ℤ × Result) → Prop
  | _, [] => True
  | start, (ts, result) :: results => result.totalDuration = ts - start ∧ Adjacent ts results

namespace Task.Sound
variable {task : Task} {now : ℤ}

theorem later (sound : task.Sound now) {timestamp : ℤ} (after : now ≤ timestamp) :
    task.Sound timestamp :=
  { sound with
    latest := sound.latest.trans after
    queueLatest := fun monitored => (sound.queueLatest monitored).trans after }

theorem updateBusyThreads (sound : task.Sound now) (busyThreads : ℕ) (timestamp clock : ℤ)
    (after : now ≤ stamp timestamp clock) :
    (task.updateBusyThreads busyThreads timestamp clock).2.Sound (stamp timestamp clock) := by
  have elapsed := sub_nonneg.mpr (sound.latest.trans after)
  unfold Task.updateBusyThreads
  split_ifs with refused same
  · exact sound.later after
  · exact sound.later after
  · refine
      { sound.later after with
        busy := ?_
        nonneg := nonneg_modify sound.nonneg _ elapsed
        sum := ?_
        latest := le_rfl }
    · simp only [Bool.or_eq_true, decide_eq_true_eq, not_or, ge_iff_le, not_le] at refused
      rw [List.length_modify]
      exact refused.2
    · rw [sum_modify sound.busy, sound.sum]
      ring

theorem updateQueueSize (sound : task.Sound now) (queueSize : ℕ) (timestamp clock : ℤ)
    (after : now ≤ stamp timestamp clock) :
    (task.updateQueueSize queueSize timestamp clock).2.Sound (stamp timestamp clock) := by
  unfold Task.updateQueueSize
  split_ifs with unmonitored inactive same
  · exact sound.later after
  · exact sound.later after
  · exact sound.later after
  · have monitored : task.monitorQueueSize = true := by simpa using unmonitored
    have elapsed := sub_nonneg.mpr ((sound.queueLatest monitored).trans after)
    refine
      { sound.later after with
        queueNonneg := QueueSizeMap.nonneg_update _ elapsed sound.queueNonneg
        queueSum := fun _ => ?_
        queueLatest := fun _ => le_rfl }
    rw [QueueSizeMap.total_update, sound.queueSum monitored]
    ring

theorem getResultAndReset (sound : task.Sound now) (timestamp clock : ℤ)
    (after : now ≤ stamp timestamp clock) :
    (task.getResultAndReset timestamp clock).1.Accounts task.monitorQueueSize ∧
      (task.getResultAndReset timestamp clock).1.totalDuration =
        stamp timestamp clock - task.firstStart ∧
      (task.getResultAndReset timestamp clock).2.Sound (stamp timestamp clock) := by
  have elapsed := sub_nonneg.mpr (sound.latest.trans after)
  have active : ¬ (!task.active) = true := by simp [sound.active]
  unfold Task.getResultAndReset
  rw [if_neg active]
  refine ⟨?_, rfl, ?_⟩
  · refine
      { nonneg := nonneg_modify sound.nonneg _ elapsed
        sum := ?_
        queueNonneg := ?_
        queueSum := fun monitored => ?_ }
    · rw [sum_modify sound.busy, sound.sum]
      ring
    · dsimp only
      split_ifs with monitored
      · have elapsed := sub_nonneg.mpr ((sound.queueLatest monitored).trans after)
        exact QueueSizeMap.nonneg_update _ elapsed sound.queueNonneg
      · exact fun _ member => absurd member List.not_mem_nil
    · simp only [monitored, if_true]
      rw [QueueSizeMap.total_update, sound.queueSum monitored]
      ring
  · refine
      { active := sound.active
        busy := by simpa using sound.busy
        nonneg := fun _ member => (List.eq_of_mem_replicate member).ge
        sum := by simp
        latest := le_rfl
        queueNonneg := ?_
        queueSum := ?_
        queueLatest := ?_ }
    · dsimp only
      split_ifs with monitored
      · exact fun _ member => absurd member List.not_mem_nil
      · exact sound.queueNonneg
    · intro (monitored : task.monitorQueueSize = true)
      simp [monitored, QueueSizeMap.total]
    · intro (monitored : task.monitorQueueSize = true)
      simp [monitored]

end Task.Sound

theorem fraction_divide {a b : ℚ} (nonneg : 0 ≤ a) (positive : 0 < b) (le : a ≤ b) :
    Fraction (divide a b) :=
  ⟨a / b, if_neg positive.ne', div_nonneg nonneg positive.le, (div_le_one positive).mpr le⟩

theorem fraction_zero : Fraction (some 0) := ⟨0, rfl, le_rfl, zero_le_one⟩

theorem weightedDurationSum_bounds {durations : List ℤ} (nonneg : ∀ d ∈ durations, 0 ≤ d) (ix : ℕ) :
    0 ≤ Result.weightedDurationSum (ix + 1) durations ∧
      Result.weightedDurationSum (ix + 1) durations ≤ (ix + durations.length) * durations.sum := by
  induction durations generalizing ix with
  | nil => simp [Result.weightedDurationSum]
  | cons d durations ih =>
      obtain ⟨first, rest⟩ := List.forall_mem_cons.mp nonneg
      obtain ⟨lower, upper⟩ := ih rest (ix + 1)
      have sum : 0 ≤ durations.sum := List.sum_nonneg rest
      simp only [Result.weightedDurationSum, List.sum_cons, List.length_cons]
      push_cast at upper ⊢
      constructor
      · positivity
      · have weight : (ix + 1 : ℤ) * d ≤ (ix + (durations.length + 1)) * d :=
          mul_le_mul_of_nonneg_right (by linarith [Int.natCast_nonneg durations.length]) first
        calc (ix + 1 : ℤ) * d + Result.weightedDurationSum (ix + 1 + 1) durations
            ≤ (ix + (durations.length + 1)) * d + (ix + 1 + durations.length) * durations.sum :=
              add_le_add weight upper
          _ = (ix + (durations.length + 1)) * (d + durations.sum) := by ring

namespace Result.Accounts
variable {result : Result} {monitored : Bool} (accounts : result.Accounts monitored)
include accounts

theorem parts (valid : result.valid = true) : 0 < result.totalDuration ∧ ∃ front rest,
    result.durations = front :: rest ∧ rest ≠ [] ∧ 0 ≤ front ∧ (∀ d ∈ rest, 0 ≤ d) ∧
      front + rest.sum = result.totalDuration := by
  simp only [Result.valid, Bool.and_eq_true, decide_eq_true_eq] at valid
  obtain ⟨positive, long⟩ := valid
  have nonneg := accounts.nonneg
  have sum := accounts.sum
  cases durations : result.durations with
  | nil => simp [durations] at long
  | cons front rest =>
      rw [durations] at long nonneg sum
      obtain ⟨first, others⟩ := List.forall_mem_cons.mp nonneg
      refine ⟨positive, front, rest, rfl, ?_, first, others, sum⟩
      rintro rfl
      simp at long

theorem busyRate : Fraction result.busyRate := by
  unfold Result.busyRate
  split_ifs with invalid
  · exact fraction_zero
  · have valid : result.valid = true := by simpa using invalid
    obtain ⟨positive, front, rest, durations, -, first, others, sum⟩ := accounts.parts valid
    have below : front ≤ result.totalDuration := by linarith [List.sum_nonneg others]
    have idle : result.front = front := by rw [Result.front, durations, List.headD_cons]
    obtain ⟨q, quotient, lower, upper⟩ := fraction_divide (a := (front : ℚ))
      (b := result.totalDuration) (by exact_mod_cast first) (by exact_mod_cast positive)
      (by exact_mod_cast below)
    rw [idle, quotient]
    exact ⟨1 - q, rfl, by linarith, by linarith⟩

theorem fullyOccupiedRate : Fraction result.fullyOccupiedRate := by
  unfold Result.fullyOccupiedRate
  split_ifs with invalid
  · exact fraction_zero
  · have valid : result.valid = true := by simpa using invalid
    obtain ⟨positive, front, rest, durations, nonempty, first, others, sum⟩ :=
      accounts.parts valid
    have last : result.back ∈ rest := by
      rw [Result.back, durations, List.getLastD_cons, List.getLastD_eq_getLast?,
        List.getLast?_eq_some_getLast nonempty]
      exact List.getLast_mem nonempty
    have below : result.back ≤ result.totalDuration := by
      linarith [List.single_le_sum others _ last]
    exact fraction_divide (by exact_mod_cast others _ last) (by exact_mod_cast positive)
      (by exact_mod_cast below)

theorem averageUtilization : Fraction result.averageUtilization := by
  unfold Result.averageUtilization
  split_ifs with unused
  · exact fraction_zero
  · simp only [Bool.or_eq_true, Bool.not_eq_true', decide_eq_true_eq, not_or,
      Bool.not_eq_false, not_le] at unused
    obtain ⟨valid, used⟩ := unused
    obtain ⟨positive, front, rest, durations, nonempty, first, others, sum⟩ :=
      accounts.parts valid
    have idle : result.front = front := by rw [Result.front, durations, List.headD_cons]
    have busy : result.totalDuration - front = rest.sum := by linarith
    rw [idle] at used
    have worked : 0 < rest.sum := by linarith
    have threads : 0 < (rest.length : ℤ) := by
      exact_mod_cast List.length_pos_iff.mpr nonempty
    obtain ⟨lower, upper⟩ := weightedDurationSum_bounds others 0
    rw [idle, durations, List.tail_cons, List.length_cons, Nat.add_sub_cancel, ← Int.cast_sub,
      busy]
    have divisor : (0 : ℚ) < rest.length * rest.sum := by exact_mod_cast mul_pos threads worked
    refine fraction_divide (by exact_mod_cast lower) divisor ?_
    have bound : Result.weightedDurationSum 1 rest ≤ rest.length * rest.sum := by
      simpa using upper
    exact_mod_cast bound

end Result.Accounts

theorem Result.accounts_empty (monitored : Bool) : ({} : Result).Accounts monitored where
  nonneg := fun _ member => absurd member List.not_mem_nil
  sum := rfl
  queueNonneg := fun _ member => absurd member List.not_mem_nil
  queueSum := fun _ => rfl

namespace Task

theorem results_of_inactive {task : Task} (inactive : task.active = false) (calls : List Call) :
    ∀ entry ∈ task.results calls, entry.2 = {} := by
  induction calls with
  | nil => exact fun _ member => absurd member List.not_mem_nil
  | cons call calls ih =>
      cases call with
      | updateBusyThreads busyThreads timestamp clock =>
          have same : (task.updateBusyThreads busyThreads timestamp clock).2 = task := by
            simp [Task.updateBusyThreads, inactive]
          simpa only [results, same] using ih
      | updateQueueSize queueSize timestamp clock =>
          have same : (task.updateQueueSize queueSize timestamp clock).2 = task := by
            simp [Task.updateQueueSize, inactive]
          simpa only [results, same] using ih
      | getResultAndReset timestamp clock =>
          have same : task.getResultAndReset timestamp clock = ({}, task) := by
            simp [Task.getResultAndReset, inactive]
          simp only [results, same]
          exact List.forall_mem_cons.mpr ⟨rfl, ih⟩

theorem updateBusyThreads_frame (task : Task) (busyThreads : ℕ) (timestamp clock : ℤ) :
    (task.updateBusyThreads busyThreads timestamp clock).2.firstStart = task.firstStart ∧
      (task.updateBusyThreads busyThreads timestamp clock).2.monitorQueueSize =
        task.monitorQueueSize := by
  unfold updateBusyThreads
  split_ifs <;> exact ⟨rfl, rfl⟩

theorem updateQueueSize_frame (task : Task) (queueSize : ℕ) (timestamp clock : ℤ) :
    (task.updateQueueSize queueSize timestamp clock).2.firstStart = task.firstStart ∧
      (task.updateQueueSize queueSize timestamp clock).2.monitorQueueSize =
        task.monitorQueueSize := by
  unfold updateQueueSize
  split_ifs <;> exact ⟨rfl, rfl⟩

theorem getResultAndReset_frame (task : Task) (active : task.active = true)
    (timestamp clock : ℤ) :
    (task.getResultAndReset timestamp clock).2.firstStart = stamp timestamp clock ∧
      (task.getResultAndReset timestamp clock).2.monitorQueueSize = task.monitorQueueSize := by
  simp [getResultAndReset, active]

theorem Sound.results {task : Task} {now : ℤ} (sound : task.Sound now) {calls : List Call}
    (ordered : (now :: calls.map Call.time).IsChain (· ≤ ·)) :
    (∀ entry ∈ task.results calls, entry.2.Accounts task.monitorQueueSize) ∧
      Adjacent task.firstStart (task.results calls) := by
  induction calls generalizing task now with
  | nil => exact ⟨fun _ member => absurd member List.not_mem_nil, trivial⟩
  | cons call calls ih =>
      rw [List.map_cons, List.isChain_cons_cons] at ordered
      obtain ⟨after, ordered⟩ := ordered
      cases call with
      | updateBusyThreads busyThreads timestamp clock =>
          obtain ⟨interval, monitored⟩ :=
            task.updateBusyThreads_frame busyThreads timestamp clock
          have rest := ih (sound.updateBusyThreads busyThreads timestamp clock after) ordered
          rwa [interval, monitored] at rest
      | updateQueueSize queueSize timestamp clock =>
          obtain ⟨interval, monitored⟩ := task.updateQueueSize_frame queueSize timestamp clock
          have rest := ih (sound.updateQueueSize queueSize timestamp clock after) ordered
          rwa [interval, monitored] at rest
      | getResultAndReset timestamp clock =>
          obtain ⟨accounts, duration, next⟩ := sound.getResultAndReset timestamp clock after
          obtain ⟨interval, monitored⟩ :=
            task.getResultAndReset_frame sound.active timestamp clock
          have rest := ih next ordered
          rw [interval, monitored] at rest
          exact ⟨List.forall_mem_cons.mpr ⟨accounts, rest.1⟩, duration, rest.2⟩

theorem sound_new {maxThreads busyThreads : ℕ} {queueSize : Option ℕ} {timestamp clock : ℤ}
    (active : (new maxThreads busyThreads queueSize timestamp clock).active = true) :
    (new maxThreads busyThreads queueSize timestamp clock).Sound (stamp timestamp clock) := by
  have enabled : (decide (maxThreads > 0) && decide (busyThreads ≤ maxThreads)) = true := active
  obtain ⟨-, busy⟩ : 0 < maxThreads ∧ busyThreads ≤ maxThreads := by simpa using enabled
  exact
    { active := active
      busy := by simpa [new, enabled] using Nat.lt_succ_of_le busy
      nonneg := by
        intro duration member
        simp only [new, enabled, if_true] at member
        exact (List.eq_of_mem_replicate member).ge
      sum := by simp [new, enabled]
      latest := by simp [new, enabled]
      queueNonneg := fun _ member => absurd member List.not_mem_nil
      queueSum := by
        intro (monitored : queueSize.isSome = true)
        simp [new, enabled, monitored, QueueSizeMap.total]
      queueLatest := by
        intro (monitored : queueSize.isSome = true)
        simp [new, enabled, monitored] }

end Task

/-- Whatever is monitored, every result accounts for all the time of its interval in both ledgers,
the rates are fractions, and the intervals of an active task follow one another from its start. -/
theorem results_account (maxThreads busyThreads : ℕ) (queueSize : Option ℕ) (timestamp clock : ℤ)
    (calls : List Call)
    (ordered : (stamp timestamp clock :: calls.map Call.time).IsChain (· ≤ ·)) :
    (∀ entry ∈ (Task.new maxThreads busyThreads queueSize timestamp clock).results calls,
      entry.2.Accounts queueSize.isSome ∧ Fraction entry.2.busyRate ∧
        Fraction entry.2.fullyOccupiedRate ∧ Fraction entry.2.averageUtilization) ∧
      if 0 < maxThreads ∧ busyThreads ≤ maxThreads then
        Adjacent (stamp timestamp clock)
          ((Task.new maxThreads busyThreads queueSize timestamp clock).results calls)
      else
        ∀ entry ∈ (Task.new maxThreads busyThreads queueSize timestamp clock).results calls,
          entry.2 = {} := by
  set task := Task.new maxThreads busyThreads queueSize timestamp clock with created
  have enabled : task.active = true ↔ 0 < maxThreads ∧ busyThreads ≤ maxThreads := by
    simp [created, Task.new]
  suffices (∀ entry ∈ task.results calls, entry.2.Accounts queueSize.isSome) ∧
      if 0 < maxThreads ∧ busyThreads ≤ maxThreads then
        Adjacent (stamp timestamp clock) (task.results calls)
      else ∀ entry ∈ task.results calls, entry.2 = {} from
    ⟨fun entry member =>
      have accounts := this.1 entry member
      ⟨accounts, accounts.busyRate, accounts.fullyOccupiedRate, accounts.averageUtilization⟩,
      this.2⟩
  by_cases active : task.active = true
  · have start : task.firstStart = stamp timestamp clock := by
      simp [created, Task.new, enabled.mp active]
    have all := (Task.sound_new active).results ordered
    rw [← created, start] at all
    rw [if_pos (enabled.mp active)]
    exact all
  · have empty := Task.results_of_inactive (Bool.eq_false_of_not_eq_true active) calls
    rw [if_neg fun threads => active (enabled.mpr threads)]
    exact ⟨fun entry member => empty entry member ▸ Result.accounts_empty _, empty⟩

theorem results_account_two_threads :
    (Task.new 2 0 (some 3) 1 0).results
        [.updateBusyThreads 2 5 0, .updateQueueSize 0 6 0, .getResultAndReset 11 0] =
      [(11, ⟨10, [4, 0, 6], [(0, 5), (3, 5)]⟩)] ∧
    ∀ entry ∈ (Task.new 2 0 (some 3) 1 0).results
        [.updateBusyThreads 2 5 0, .updateQueueSize 0 6 0, .getResultAndReset 11 0],
      entry.2.Accounts true ∧ Fraction entry.2.busyRate ∧ Fraction entry.2.fullyOccupiedRate ∧
        Fraction entry.2.averageUtilization := by
  refine ⟨by decide, (results_account 2 0 (some 3) 1 0
    [.updateBusyThreads 2 5 0, .updateQueueSize 0 6 0, .getResultAndReset 11 0] ?_).1⟩
  decide

end SpotGridBot.Utils.BgwMonitor
