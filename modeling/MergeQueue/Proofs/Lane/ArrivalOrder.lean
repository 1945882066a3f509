import MergeQueue.Lane.Run
import MergeQueue.Proofs.Lane.Cases

/-!
# Changes are classified in the order of their arrival

What a call takes in joins the end of the lane, and what it classifies leaves from the front. So
after every run the changes that were classified, followed by those still in the lane, are those
that were taken in, in the same order. A change that has left may be taken in again; it then counts
anew.
-/
namespace MergeQueue.Lane

variable {C : Type}

namespace Step

def accepted (s : Step C) : List C :=
  match s.action, s.answer with
  | .enqueue c, .enqueued true => [c]
  | _, _ => []

/-- The changes that a step classifies, the passed ones first. -/
def classified (s : Step C) : List C :=
  match s.answer with
  | .reported o => o.passed ++ o.failed
  | _ => []

end Step

def acceptedIn (steps : List (Step C)) : List C := steps.flatMap Step.accepted

def classifiedIn (steps : List (Step C)) : List C := steps.flatMap Step.classified

theorem acceptedIn_cons (s : Step C) (steps : List (Step C)) :
    acceptedIn (s :: steps) = s.accepted ++ acceptedIn steps := List.flatMap_cons

theorem classifiedIn_cons (s : Step C) (steps : List (Step C)) :
    classifiedIn (s :: steps) = s.classified ++ classifiedIn steps := List.flatMap_cons

variable [DecidableEq C]

theorem accepted_step_enqueue (c : C) (l : Lane C) :
    (l.step (.enqueue c)).accepted = if c ∈ l.changes then [] else [c] := by
  by_cases hc : c ∈ l.changes
  · simp [step, act, Step.accepted, enqueue_of_mem hc, hc]
  · simp [step, act, Step.accepted, enqueue_of_not_mem hc, hc]

/-- A call moves changes from the front of the lane, or to its end. -/
theorem classified_append_changes_step (l : Lane C) (call : Call C) :
    (l.step call.action).classified ++ (l.step call.action).after.changes =
      l.changes ++ (l.step call.action).accepted := by
  cases call with
  | enqueue c =>
    change (l.enqueue c).2.changes = l.changes ++ (l.step (.enqueue c)).accepted
    rw [changes_enqueue, accepted_step_enqueue]
    split
    · rw [List.append_nil]
    · rfl
  | dispatch =>
    change l.dispatch.2.changes = l.changes ++ []
    rw [changes_dispatch, List.append_nil]
  | report verdict key =>
    change (l.report verdict key).1.passed ++ (l.report verdict key).1.failed ++
      (l.report verdict key).2.changes = l.changes ++ []
    rw [changes_report, List.append_nil]

/-- From any lane on, what was classified and what is left are what was there and what was taken
in. -/
theorem classifiedIn_append_changes (l : Lane C) (calls : List (Call C)) :
    classifiedIn (l.run (calls.map Call.action)) ++ (l.afterRun (calls.map Call.action)).changes =
      l.changes ++ acceptedIn (l.run (calls.map Call.action)) := by
  induction calls generalizing l with
  | nil => simp [run, afterRun, classifiedIn, acceptedIn]
  | cons call calls ih =>
    have hstep := classified_append_changes_step l call
    have hrest := ih (l.act call.action).2
    rw [List.map_cons, run, classifiedIn_cons, acceptedIn_cons, ← List.append_assoc l.changes,
      ← hstep, List.append_assoc, List.append_assoc]
    exact congrArg ((l.step call.action).classified ++ ·) hrest

/-- After every run from the empty lane, whatever its verdicts and keys, the changes that were
classified, in the order of their reports, and after them those in the lane are the changes that
were taken in, in the order of their arrival. -/
theorem run_first_in_first_out (calls : List (Call C)) :
    classifiedIn (run .empty (calls.map Call.action)) ++
        (afterRun .empty (calls.map Call.action)).changes =
      acceptedIn (run .empty (calls.map Call.action)) :=
  classifiedIn_append_changes .empty calls

/-- The first of three changes fails alone while a fourth arrives, and then comes back. -/
example :
    let calls : List (Call ℕ) := [.enqueue 1, .enqueue 2, .enqueue 3, .dispatch, .report .fail ⟨0⟩,
      .dispatch, .enqueue 4, .report .fail ⟨1⟩, .enqueue 1, .dispatch, .report .pass ⟨7⟩]
    classifiedIn (run .empty (calls.map Call.action)) = [1] ∧
      (afterRun .empty (calls.map Call.action)).batches = [[2, 3, 4, 1], []] := by
  decide

end MergeQueue.Lane
