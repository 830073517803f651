import SpotGridBot.Lib.Runs
import Mathlib.Data.List.DropRight
import Mathlib.Data.List.Basic

/-!
# Loops that give up

A loop reads one item after another and counts its failures since the last success. It ends at an
item that stops it, and at a failure that comes after `limit` others. `Stops` says this of the items
read so far, without the counter; `run_read` is that the loop reads up to the first item that stops
it and no further.
-/

namespace SpotGridBot.Budget
open Runs

inductive Verdict where
  | success
  | neutral
  | failure
  | stop
deriving DecidableEq

variable {α σ : Type*}

section Counter
variable (verdict : α → Verdict) (limit : ℕ)

def isFailure (a : α) : Bool := verdict a = .failure

def isSuccess (a : α) : Bool := verdict a = .success

def failures (read : List α) : ℕ :=
  (read.rtakeWhile fun a => !isSuccess verdict a).countP (isFailure verdict)

def Stops (read : List α) (a : α) : Prop :=
  verdict a = .stop ∨ verdict a = .failure ∧ limit ≤ failures verdict read

instance (read : List α) (a : α) : Decidable (Stops verdict limit read a) :=
  inferInstanceAs (Decidable (_ ∨ _ ∧ _))

def readFrom : List α → List α → List α
  | _, [] => []
  | earlier, a :: as =>
      if Stops verdict limit earlier a then [a] else a :: readFrom (earlier ++ [a]) as

def Stopped (earlier as : List α) : Prop :=
  ∃ before a, before ++ [a] <+: as ∧ Stops verdict limit (earlier ++ before) a

@[simp] theorem failures_nil : failures verdict [] = 0 := rfl

theorem failures_concat (read : List α) (a : α) :
    failures verdict (read ++ [a]) = match verdict a with
      | .success => 0
      | .failure => failures verdict read + 1
      | _ => failures verdict read := by
  unfold failures
  cases said : verdict a with
  | success => rw [List.rtakeWhile_concat_neg _ _ _ (by simp [isSuccess, said])]; rfl
  | neutral =>
      rw [List.rtakeWhile_concat_pos _ _ _ (by simp [isSuccess, said]), List.countP_append]
      simp [isFailure, said]
  | failure =>
      rw [List.rtakeWhile_concat_pos _ _ _ (by simp [isSuccess, said]), List.countP_append]
      simp [isFailure, said]
  | stop =>
      rw [List.rtakeWhile_concat_pos _ _ _ (by simp [isSuccess, said]), List.countP_append]
      simp [isFailure, said]

theorem readFrom_isPrefix (earlier as : List α) : readFrom verdict limit earlier as <+: as := by
  induction as generalizing earlier with
  | nil => exact List.nil_prefix
  | cons a as ih =>
      rw [readFrom]
      split
      · exact ⟨as, rfl⟩
      · exact List.cons_prefix_cons.mpr ⟨rfl, ih (earlier ++ [a])⟩

theorem not_stopped_nil (earlier : List α) : ¬ Stopped verdict limit earlier [] := by
  rintro ⟨before, a, isPrefix, -⟩
  simp at isPrefix

theorem stopped_cons (earlier as : List α) (a : α) :
    Stopped verdict limit earlier (a :: as) ↔
      Stops verdict limit earlier a ∨ Stopped verdict limit (earlier ++ [a]) as := by
  constructor
  · rintro ⟨before, b, isPrefix, stops⟩
    cases before with
    | nil =>
        obtain ⟨rfl, -⟩ := List.cons_prefix_cons.mp isPrefix
        exact .inl (by simpa using stops)
    | cons c before =>
        obtain ⟨rfl, within⟩ := List.cons_prefix_cons.mp isPrefix
        exact .inr ⟨before, b, within, by simpa using stops⟩
  · rintro (stops | ⟨before, b, isPrefix, stops⟩)
    · exact ⟨[], a, ⟨as, rfl⟩, by simpa using stops⟩
    · exact ⟨a :: before, b, List.cons_prefix_cons.mpr ⟨rfl, isPrefix⟩, by simpa using stops⟩

open Classical in
theorem readFrom_append (earlier as bs : List α) :
    readFrom verdict limit earlier (as ++ bs) = readFrom verdict limit earlier as ++
      if Stopped verdict limit earlier as then [] else readFrom verdict limit (earlier ++ as) bs := by
  induction as generalizing earlier with
  | nil =>
      rw [if_neg (not_stopped_nil verdict limit earlier), List.append_nil]
      rfl
  | cons a as ih =>
      rw [List.cons_append, readFrom, readFrom, stopped_cons]
      by_cases stops : Stops verdict limit earlier a
      · simp [stops]
      · simp [stops, ih]

end Counter

structure Loop (step : σ → α → σ) (verdict : α → Verdict) (limit : ℕ) (running ended : σ → Prop)
    (counter : σ → ℕ) : Prop where
  rests : ∀ s a, ended s → step s a = s
  apart : ∀ s, running s → ¬ ended s
  success : ∀ s a, running s → verdict a = .success → running (step s a) ∧ counter (step s a) = 0
  neutral : ∀ s a, running s → verdict a = .neutral →
    running (step s a) ∧ counter (step s a) = counter s
  tolerated : ∀ s a, running s → verdict a = .failure → counter s < limit →
    running (step s a) ∧ counter (step s a) = counter s + 1
  givesUp : ∀ s a, running s → verdict a = .failure → limit ≤ counter s → ended (step s a)
  stop : ∀ s a, running s → verdict a = .stop → ended (step s a)

namespace Loop
variable {step : σ → α → σ} {verdict : α → Verdict} {limit : ℕ} {running ended : σ → Prop}
  {counter : σ → ℕ} {s : σ}

theorem run_ended (loop : Loop step verdict limit running ended counter) (finished : ended s)
    (as : List α) : run step s as = s := by
  induction as with
  | nil => rfl
  | cons a as ih => rw [run_cons, loop.rests s a finished, ih]

theorem step_cases (loop : Loop step verdict limit running ended counter) {earlier : List α}
    (runs : running s) (counts : counter s = failures verdict earlier) (a : α) :
    (Stops verdict limit earlier a ∧ ended (step s a)) ∨
    (¬ Stops verdict limit earlier a ∧ running (step s a) ∧
      counter (step s a) = failures verdict (earlier ++ [a])) := by
  rw [failures_concat]
  cases said : verdict a with
  | success => exact .inr ⟨by simp [Stops, said], loop.success s a runs said⟩
  | neutral =>
      have next := loop.neutral s a runs said
      exact .inr ⟨by simp [Stops, said], next.1, next.2.trans counts⟩
  | failure =>
      by_cases room : counter s < limit
      · have next := loop.tolerated s a runs said room
        refine .inr ⟨?_, next.1, by rw [next.2, counts]⟩
        rintro (stop | ⟨-, spent⟩)
        · exact absurd (said.symm.trans stop) (by simp)
        · omega
      · exact .inl ⟨.inr ⟨said, by omega⟩, loop.givesUp s a runs said (by omega)⟩
  | stop => exact .inl ⟨.inl said, loop.stop s a runs said⟩

theorem run_cases (loop : Loop step verdict limit running ended counter) {earlier : List α}
    (runs : running s) (counts : counter s = failures verdict earlier) (as : List α) :
    (Stopped verdict limit earlier as ∧ ended (run step s as)) ∨
    (¬ Stopped verdict limit earlier as ∧ running (run step s as) ∧
      counter (run step s as) = failures verdict (earlier ++ as)) := by
  induction as generalizing s earlier with
  | nil => exact .inr ⟨not_stopped_nil verdict limit earlier, runs, by simpa using counts⟩
  | cons a as ih =>
      rw [stopped_cons, run_cons]
      rcases loop.step_cases runs counts a with ⟨stops, finished⟩ | ⟨goesOn, runs', counts'⟩
      · rw [loop.run_ended finished]
        exact .inl ⟨.inl stops, finished⟩
      · rw [or_iff_right goesOn]
        simpa using ih runs' counts'

theorem view_read (loop : Loop step verdict limit running ended counter) {τ : Type*} (view : σ → τ)
    (effect : τ → α → τ) (each : ∀ s a, running s → view (step s a) = effect (view s) a)
    {earlier : List α} (runs : running s) (counts : counter s = failures verdict earlier)
    (as : List α) :
    view (run step s as) = (readFrom verdict limit earlier as).foldl effect (view s) := by
  induction as generalizing s earlier with
  | nil => rfl
  | cons a as ih =>
      rw [readFrom, run_cons]
      rcases loop.step_cases runs counts a with ⟨stops, finished⟩ | ⟨goesOn, runs', counts'⟩
      · rw [if_pos stops, loop.run_ended finished, each s a runs]
        rfl
      · rw [if_neg goesOn, ih runs' counts', each s a runs]
        rfl

theorem appended_read (loop : Loop step verdict limit running ended counter) {β : Type*}
    (view : σ → List β) (entry : α → Option β)
    (each : ∀ s a, running s → view (step s a) = view s ++ (entry a).toList)
    {earlier : List α} (runs : running s) (counts : counter s = failures verdict earlier)
    (as : List α) :
    view (run step s as) = view s ++ (readFrom verdict limit earlier as).filterMap entry := by
  rw [loop.view_read view (fun bs a => bs ++ (entry a).toList) each runs counts,
    List.foldl_append_eq_append, List.filterMap_eq_flatMap_toList, List.flatMap_def]

end Loop

end SpotGridBot.Budget
