import MergeQueue.Proofs.Queue.Settled
import MergeQueue.Proofs.Queue.Keys
import MergeQueue.Snapshot

/-!
# Reopening makes no difference

What a change that waits was parked for is shown, but decides nothing: two queues with the same
lane and the same waiting changes answer every action alike and stay alike. A settled queue that is
reopened has its own lane and waiting changes again.
-/
namespace MergeQueue.Queue

open Lane

variable {C I : Type}

structure SameParts (q q' : Queue C I) : Prop where
  lane : q.lane = q'.lane
  awaiting : q.awaiting = q'.awaiting

namespace SameParts

variable {q q' q'' : Queue C I}

theorem refl (q : Queue C I) : q.SameParts q := ⟨rfl, rfl⟩

theorem trans (h : q.SameParts q') (h' : q'.SameParts q'') : q.SameParts q'' :=
  ⟨h.lane.trans h'.lane, h.awaiting.trans h'.awaiting⟩

theorem pool (h : q.SameParts q') : q.pool = q'.pool := by
  rw [Queue.pool, Queue.pool, h.lane, h.awaiting]

theorem without (h : q.SameParts q') (p : C → Bool) : (q.without p).SameParts (q'.without p) := by
  refine ⟨congrArg (fun l => (l.withdraw p).2) h.lane, ?_⟩
  rw [awaiting_without, awaiting_without, h.awaiting]

theorem displace (h : q.SameParts q') (p : C → Bool) :
    (q.displace p).1 = (q'.displace p).1 ∧ (q.displace p).2.SameParts (q'.displace p).2 := by
  refine ⟨congrArg (List.filter p) h.awaiting, h.lane, ?_⟩
  rw [awaiting_displace, awaiting_displace, h.awaiting]

theorem afterFailure (h : q.SameParts q') (bs : List (List C)) :
    (q.afterFailure bs).SameParts (q'.afterFailure bs) :=
  ⟨congrArg (fun l : Lane C => (⟨[bs.flatten], none, l.nextKey⟩ : Lane C)) h.lane, h.awaiting⟩

theorem dispatch (h : q.SameParts q') :
    q.dispatch.1 = q'.dispatch.1 ∧ q.dispatch.2.SameParts q'.dispatch.2 :=
  ⟨congrArg (fun l => l.dispatch.1) h.lane, congrArg (fun l => l.dispatch.2) h.lane, h.awaiting⟩

variable [DecidableEq I] [Change C I]

theorem report (h : q.SameParts q') (verdict : Verdict) (key : TestKey) :
    (q.report verdict key).1 = (q'.report verdict key).1 ∧
      (q.report verdict key).2.SameParts (q'.report verdict key).2 := by
  rcases report_cases verdict key q with ⟨hnil, hreport⟩ | ⟨rfl, hk, c, bs, hb, hreport⟩
  · rw [hreport, report_of_nil (h.lane ▸ hnil), h.lane]
    exact ⟨rfl, rfl, h.awaiting⟩
  · have hafter := h.afterFailure bs
    have hrequiring : (q.afterFailure bs).requiring c = (q'.afterFailure bs).requiring c := by
      unfold requiring
      rw [hafter.pool]
    rw [hreport, report_of_single (h.lane ▸ hk) (h.lane ▸ hb), hrequiring, hafter.pool]
    exact ⟨rfl, hafter.without _⟩

variable [DecidableEq C]

theorem settle (h : q.SameParts q') (cs : List C) :
    (q.settle cs).1 = (q'.settle cs).1 ∧ (q.settle cs).2.SameParts (q'.settle cs).2 := by
  have hleft : q.leftOver cs = q'.leftOver cs := by
    rw [leftOver, leftOver, h.lane]
  refine ⟨congrArg (fun l : Lane C => (admitAll (l.changes.map ident) cs).1) h.lane, ?_, ?_⟩
  · exact congrArg (fun l => enqueueAll (admitAll (l.changes.map ident) cs).1 l) h.lane
  · rw [awaiting_settle, awaiting_settle, hleft, h.awaiting]

theorem submit (h : q.SameParts q') (c : C) :
    (q.submit c).1 = (q'.submit c).1 ∧ (q.submit c).2.SameParts (q'.submit c).2 := by
  have hdependants : q.dependantsOf c = q'.dependantsOf c := by
    rw [dependantsOf, dependantsOf, h.pool]
  have hdepends : q.dependsOn c = q'.dependsOn c := by
    unfold dependsOn
    rw [hdependants]
  rcases submit_cases c q with ⟨hlive, hsub⟩ | ⟨hnew, hcycle, hsub⟩ | ⟨hnew, hcycle, hsub⟩
  · rw [hsub, submit_of_holds (h.pool ▸ hlive)]
    exact ⟨rfl, h⟩
  · rw [hsub, submit_of_cycle (h.pool ▸ hnew) (hdependants ▸ hcycle), hdepends, h.pool]
    exact ⟨rfl, h.without _⟩
  · rw [hsub, submit_of_not_cycle (h.pool ▸ hnew) (hdependants ▸ hcycle), hdepends]
    obtain ⟨hout, hrest⟩ := h.displace (q'.dependsOn c)
    rw [hout]
    obtain ⟨hadded, hsettled⟩ := hrest.settle (c :: (q'.displace (q'.dependsOn c)).1)
    exact ⟨by rw [hadded], hsettled⟩

theorem reopen (h : q.SameParts q') : q.reopen = q'.reopen := by
  rw [Queue.reopen, Queue.reopen, h.lane, h.awaiting]

/-- Queues with the same parts answer alike and keep the same parts. -/
theorem act (h : q.SameParts q') (a : Action C) :
    (q.act a).1 = (q'.act a).1 ∧ (q.act a).2.SameParts (q'.act a).2 := by
  cases a with
  | submit c =>
    obtain ⟨hanswer, hafter⟩ := h.submit c
    exact ⟨congrArg Answer.admission hanswer, hafter⟩
  | dispatch =>
    obtain ⟨hanswer, hafter⟩ := h.dispatch
    exact ⟨congrArg Answer.dispatched hanswer, hafter⟩
  | report verdict key =>
    obtain ⟨hanswer, hafter⟩ := h.report verdict key
    exact ⟨congrArg Answer.reported hanswer, hafter⟩
  | reopen =>
    refine ⟨rfl, ?_⟩
    change (q.reopen.toOption.getD q).SameParts (q'.reopen.toOption.getD q')
    rw [h.reopen]
    cases q'.reopen with
    | error f => exact h
    | ok r => exact .refl r

end SameParts

variable [DecidableEq I] [Change C I] [DecidableEq C]

/-- A settled queue has the same parts after it is reopened. -/
theorem Settled.reopen {q : Queue C I} (h : q.Settled) :
    ∃ q', q.reopen = .ok q' ∧ q'.SameParts q := by
  have hnone : admitAll (q.lane.changes.map ident) q.awaiting = ([], q.awaiting) :=
    admitAll_of_blocked h.misses
  refine ⟨_, reopen_of_wellFormed h.wellFormed h.distinct, ?_, ?_⟩
  · change enqueueAll (admitAll (q.lane.changes.map ident) q.awaiting).1 q.lane = q.lane
    rw [hnone]
    rfl
  · rw [awaiting_settle]
    exact congrArg Prod.snd hnone

/-!
## A queue made of its snapshot goes on like the original

Every queue that can be reached is settled, so a snapshot of it gives back its lane and its waiting
changes. What these miss is found anew and may come out differently, but two queues of the same
parts answer every action alike and keep the same parts, and so they do in every run.
-/

variable {q q' : Queue C I}

/-- The queues give the same answers in every run, and have the same parts after it. -/
def RunsAlike (q q' : Queue C I) : Prop :=
  ∀ as : List (Action C), (q.run as).map Step.answer = (q'.run as).map Step.answer ∧
    (q.afterRun as).SameParts (q'.afterRun as)

theorem SameParts.runsAlike (h : q.SameParts q') : q.RunsAlike q' := by
  intro as
  induction as generalizing q q' with
  | nil => exact ⟨rfl, h⟩
  | cons a as ih =>
    obtain ⟨hanswer, hafter⟩ := h.act a
    obtain ⟨hanswers, hend⟩ := ih hafter
    exact ⟨congrArg₂ List.cons hanswer hanswers, hend⟩

/-- A snapshot of a queue that can be reached makes a queue with the same batches, key, counter and
waiting changes in order. From there on both answer every action alike. -/
theorem toQueue_ofQueue_bisimilar (h : q.Reachable) (now : Timestamp) :
    ∃ q', (Snapshot.ofQueue now q).toQueue = .ok q' ∧ q'.SameParts q ∧ q'.RunsAlike q := by
  obtain ⟨q', hopen, hsame⟩ := h.settled.reopen
  exact ⟨q', hopen, hsame, hsame.runsAlike⟩

/-- Three changes are tested and halved, the first passes, and what is left of them is under test. A
fourth waits for the one that passed and for another. -/
def halfTested : List (Action ChangeRecord) :=
  [.submit ⟨⟨"w"⟩, .ofList [⟨"a"⟩, ⟨"z"⟩]⟩, .submit ⟨⟨"a"⟩, .empty⟩, .submit ⟨⟨"b"⟩, .empty⟩,
    .submit ⟨⟨"c"⟩, .empty⟩, .dispatch, .report .fail ⟨0⟩, .dispatch, .report .pass ⟨1⟩, .dispatch]

/-- The queue that is made again shows that more is missing, and yet goes on alike. -/
theorem halfTested_bisimilar :
    (afterRun .empty halfTested).Reachable ∧
      (Snapshot.ofQueue ⟨0, 0⟩ (afterRun .empty halfTested)).toQueue ≠
        .ok (afterRun .empty halfTested) ∧
      ∃ q', (Snapshot.ofQueue ⟨0, 0⟩ (afterRun .empty halfTested)).toQueue = .ok q' ∧
        q'.SameParts (afterRun .empty halfTested) ∧ q'.RunsAlike (afterRun .empty halfTested) := by
  have hreach : (afterRun (.empty : Queue ChangeRecord ChangeId) halfTested).Reachable :=
    Reachable.afterRun .empty (canMintAll_of_length (by decide))
  exact ⟨hreach, by decide +kernel, toQueue_ofQueue_bisimilar hreach ⟨0, 0⟩⟩

end MergeQueue.Queue
