import MergeQueue.Change
import MergeQueue.Proofs.Queue.Conservation
import MergeQueue.Proofs.Requirement.Subpool

/-!
# The live changes never require themselves

Only a submission adds a change, and a cycle that was not there before leads through the added one.
A submitted change that would require itself is turned away, so acyclic queues stay acyclic: also
where a change comes back after it passed and now requires what required it.
-/
namespace MergeQueue.Queue

variable {C I : Type} [Change C I] [DecidableEq I] [DecidableEq C] {q : Queue C I}

theorem pool_act_subset (a : Action C) (hnd : (q.pool.map ident).Nodup) :
    (q.act a).2.pool ⊆ q.pool ++ (q.step a).accepted :=
  fun _ hc => (conserves_step a hnd).subset (List.mem_append_left _ hc)

theorem acyclic_submit (c : C) (hnd : (q.pool.map ident).Nodup) (h : Acyclic q.pool) :
    Acyclic (q.submit c).2.pool := by
  rcases submit_cases c q with ⟨-, hsub⟩ | ⟨-, -, hsub⟩ | ⟨hnew, hfree, -⟩
  · rw [hsub]
    exact h
  · rw [hsub, pool_without]
    exact h.mono (List.filter_subset_self _)
  · have hpool := pool_act_subset (.submit c) hnd
    rw [accepted_of_not_holds hnew] at hpool
    rw [mem_dependantsOf] at hfree
    exact (h.concat hfree).mono hpool

theorem acyclic_act (a : Action C) (hnd : (q.pool.map ident).Nodup) (h : Acyclic q.pool) :
    Acyclic (q.act a).2.pool := by
  cases a with
  | submit c => exact acyclic_submit c hnd h
  | dispatch | report | reopen =>
    rw [← List.append_nil q.pool] at h
    exact h.mono (pool_act_subset _ hnd)

/-- Every run keeps a queue acyclic. -/
theorem acyclic_afterRun (as : List (Action C)) (hnd : (q.pool.map ident).Nodup)
    (h : Acyclic q.pool) : Acyclic (q.afterRun as).pool := by
  induction as generalizing q with
  | nil => exact h
  | cons a as ih => exact ih (nodup_act a hnd) (acyclic_act a hnd h)

/-- After every run from the empty queue, no live change requires its own identity through live
changes. -/
theorem run_closes_no_cycle (as : List (Action C)) :
    ∀ c ∈ (afterRun (.empty : Queue C I) as).pool,
      ¬Requires (afterRun (.empty : Queue C I) as).pool (ident c) (ident c) :=
  acyclic_afterRun as .nil acyclic_nil

/-- A change passes while another that requires it is in the lane and a third waits for that one.
Then it comes back, once with a requirement on the third and once with another requirement. -/
def resubmitted : List (Action ChangeRecord) :=
  [.submit ⟨⟨"a"⟩, .empty⟩, .dispatch, .submit ⟨⟨"b"⟩, .ofList [⟨"a"⟩]⟩,
    .submit ⟨⟨"c"⟩, .ofList [⟨"b"⟩, ⟨"z"⟩]⟩, .submit ⟨⟨"d"⟩, .ofList [⟨"z"⟩]⟩, .report .pass ⟨0⟩,
    .submit ⟨⟨"a"⟩, .ofList [⟨"c"⟩]⟩, .submit ⟨⟨"a"⟩, .ofList [⟨"d"⟩]⟩]

/-- The cycle that the change would close is turned away, through the lane and what waits. -/
theorem resubmitted_closes_no_cycle :
    (run (.empty : Queue ChangeRecord ChangeId) resubmitted).flatMap Step.rejected =
        [⟨⟨"a"⟩, .ofList [⟨"c"⟩]⟩, ⟨⟨"b"⟩, .ofList [⟨"a"⟩]⟩, ⟨⟨"c"⟩, .ofList [⟨"b"⟩, ⟨"z"⟩]⟩] ∧
      ⟨⟨"a"⟩, .ofList [⟨"d"⟩]⟩ ∈
        (afterRun (.empty : Queue ChangeRecord ChangeId) resubmitted).pool ∧
      ¬Requires (afterRun (.empty : Queue ChangeRecord ChangeId) resubmitted).pool
        (⟨"a"⟩ : ChangeId) ⟨"a"⟩ := by
  have hlive : ⟨⟨"a"⟩, .ofList [⟨"d"⟩]⟩ ∈
      (afterRun (.empty : Queue ChangeRecord ChangeId) resubmitted).pool := by decide +kernel
  exact ⟨by decide +kernel, hlive, run_closes_no_cycle resubmitted _ hlive⟩

end MergeQueue.Queue
