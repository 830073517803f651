import SpotGridBot.Lib.Outcome
import SpotGridBot.Lib.Runs

namespace SpotGridBot.Flushing
open Runs

variable {σ α : Type*}

structure Unread (next : σ → α → σ) (queue : σ → List α) (withQueue : σ → List α → σ) : Prop where
  set_set : ∀ s as bs, withQueue (withQueue s as) bs = withQueue s bs
  set_get : ∀ s, withQueue s (queue s) = s
  get_set : ∀ s as, queue (withQueue s as) = as
  frame : ∀ s as a, next (withQueue s as) a = withQueue (next s a) as

variable {next : σ → α → σ} {queue : σ → List α} {withQueue : σ → List α → σ}

theorem Unread.kept (unread : Unread next queue withQueue) (s : σ) (a : α) :
    queue (next s a) = queue s := by
  have same := unread.frame s (queue s) a
  rw [unread.set_get] at same
  rw [same, unread.get_set]

theorem Unread.run (unread : Unread next queue withQueue) (s : σ) (queued as : List α) :
    run next (withQueue s queued) as = withQueue (run next s as) queued := by
  induction as generalizing s with
  | nil => rfl
  | cons a as ih => rw [run_cons, run_cons, unread.frame, ih]

theorem Unread.loop (unread : Unread next queue withQueue) {handle : σ → α → Outcome σ}
    (handles : ∀ s a, handle s a = .done (next s a)) (s : σ) (as : List α) :
    Outcome.forEach
        (fun s a => (handle s a).bind fun s => .done (withQueue s (queue s).tail)) s as =
      .done (withQueue (Runs.run next s as) ((queue s).drop as.length)) := by
  induction as generalizing s with
  | nil => exact congrArg Outcome.done (unread.set_get s).symm
  | cons a as ih =>
      rw [Outcome.forEach_cons, handles, Outcome.bind_done, Outcome.bind_done, ih, unread.run,
        unread.set_set, unread.get_set, unread.kept, List.drop_tail]
      rfl

theorem Unread.flush (unread : Unread next queue withQueue) {handle : σ → α → Outcome σ}
    (handles : ∀ s a, handle s a = .done (next s a)) (s : σ) :
    Outcome.forEach
        (fun s a => (handle s a).bind fun s => .done (withQueue s (queue s).tail)) s (queue s) =
      .done (withQueue (Runs.run next s (queue s)) []) := by
  rw [unread.loop handles, List.drop_length]

end SpotGridBot.Flushing
