import MergeQueue.Change
import MergeQueue.Proofs.Queue.Keys

/-!
# What a queue does to its lane, the lane does on its own

A queue only enqueues, hands out, reports and withdraws, and a queue that is made of its parts has a
lane that is made of its own. So the lane of a queue that can be reached can be reached without the
queue, and is well-formed like any other. In a well-formed lane no change is stranded: as long as
there is one, there is a batch to hand out.
-/
namespace MergeQueue

namespace Lane

variable {C : Type} {l : Lane C}

theorem WellFormed.head_eq_nil_iff (h : l.WellFormed) : l.head = [] ↔ l.changes = [] :=
  ⟨OnlyLastEmpty.flatten_eq_nil h.only_last_empty, head_eq_nil⟩

end Lane

namespace Queue

open Lane

variable {C I : Type} [DecidableEq C] {q : Queue C I}

/-- Holds of every lane that is made of parts, and is kept by every action but handing out a
batch. -/
structure LaneInvariant (I : Type) (P : Lane C → Prop) : Prop where
  restored : ∀ {batches outstanding nextKey} {l : Lane C},
    Lane.restore batches outstanding nextKey = (.ok l : Except (Inconsistency C I) (Lane C)) → P l
  act : ∀ {l : Lane C} (a : Lane.Action C), a ≠ .dispatch → P l → P (l.act a).2

theorem laneInvariant_reachedBy (mint : Lane C → Prop) :
    LaneInvariant (C := C) I (Lane.ReachedBy mint) :=
  ⟨.restored, fun a ha h => h.act a fun hd => absurd hd ha⟩

namespace LaneInvariant

variable {P : Lane C → Prop} (hP : LaneInvariant I P)
include hP

theorem enqueueAll {l : Lane C} (h : P l) (cs : List C) : P (enqueueAll cs l) := by
  induction cs generalizing l with
  | nil => exact h
  | cons c cs ih => exact ih (hP.act (.enqueue c) nofun h)

theorem without (h : P q.lane) (p : C → Bool) : P (q.without p).lane :=
  hP.act (.withdraw p) nofun h

variable [Change C I] [DecidableEq I]

theorem settle (h : P q.lane) (cs : List C) : P (q.settle cs).2.lane := hP.enqueueAll h _

theorem submit (h : P q.lane) (c : C) : P (q.submit c).2.lane := by
  rcases submit_cases c q with ⟨-, hsub⟩ | ⟨-, -, hsub⟩ | ⟨-, -, hsub⟩
  · rw [hsub]
    exact h
  · rw [hsub]
    exact hP.without h _
  · rw [hsub]
    exact hP.settle (q := (q.displace (q.dependsOn c)).2) h _

theorem report (h : P q.lane) (verdict : Verdict) (key : TestKey) :
    P (q.report verdict key).2.lane := by
  have hlane : P (q.lane.report verdict key).2 := hP.act (.report verdict key) nofun h
  rcases report_cases verdict key q with ⟨-, hreport⟩ | ⟨rfl, hk, c, bs, hb, hreport⟩
  · rw [hreport]
    exact hlane
  · rw [lane_report_of_single hk hb] at hlane
    rw [hreport]
    exact hP.without hlane _

theorem restore {batches : List (List C)} {outstanding : Option TestKey} {nextKey : UInt64}
    {awaiting : List C} (h : restore batches outstanding nextKey awaiting = .ok q) : P q.lane := by
  obtain ⟨lane, hlane, -, rfl⟩ := restore_eq_ok h
  exact hP.settle (q := ⟨lane, []⟩) (hP.restored hlane) awaiting

/-- Every action on a queue is a sequence of actions on its lane, or makes the lane again. -/
theorem queue_act (h : P q.lane) (a : Action C) (hd : a = .dispatch → P q.lane.dispatch.2) :
    P (q.act a).2.lane := by
  cases a with
  | submit c => exact hP.submit h c
  | dispatch => exact hd rfl
  | report verdict key => exact hP.report h verdict key
  | reopen =>
    rcases act_reopen_cases q with hsame | ⟨q', hq, hnew⟩
    · rw [hsame]
      exact h
    · rw [hnew]
      exact hP.restore hq

end LaneInvariant

variable [Change C I] [DecidableEq I]

variable {mint : Lane C → Prop}

theorem ReachedBy.restored {batches : List (List C)} {outstanding : Option TestKey}
    {nextKey : UInt64} {awaiting : List C}
    (h : restore batches outstanding nextKey awaiting = .ok q) : q.ReachedBy mint := by
  obtain ⟨lane, hlane, -⟩ := restore_eq_ok h
  exact .made (.restored hlane) ((restore_of_lane hlane awaiting).symm.trans h)

/-- The lane of a queue can be reached without the queue, under the same condition. -/
theorem ReachedBy.lane (h : q.ReachedBy mint) : q.lane.ReachedBy mint := by
  induction h with
  | empty => exact .empty
  | made hlane h =>
    obtain ⟨-, rfl⟩ := ofLane_eq_ok h
    exact (laneInvariant_reachedBy mint).settle (q := ⟨_, []⟩) hlane _
  | act _ a can ih =>
    exact (laneInvariant_reachedBy mint).queue_act ih a fun ha => ih.act .dispatch fun _ => can ha

/-- A lane that can be reached on its own or inside a queue is well-formed: it has a batch, only its
last batch may be empty, no change stands in it twice, and an outstanding key is below the counter
and stands for a head that is neither empty nor last. So a batch is handed out exactly as long as
there is a change. -/
theorem reachable_strands_none {l : Lane C}
    (h : l.Reachable ∨ ∃ q : Queue C I, q.Reachable ∧ q.lane = l) :
    l.WellFormed ∧ (l.dispatch.1 = none ↔ l.changes = []) := by
  have hlane : l.Reachable := by
    rcases h with h | ⟨q, hq, rfl⟩
    · exact h
    · exact hq.lane
  refine ⟨hlane.wellFormed, ?_⟩
  rw [fst_dispatch_eq_none_iff, hlane.wellFormed.head_eq_nil_iff]

/-- Two changes are halved, the first passes and the second is under test, with a third behind it.
Then the first comes back and requires the second, which requires the first. -/
def headWithdrawn : List (Action ChangeRecord) :=
  [.submit ⟨⟨"a"⟩, .empty⟩, .submit ⟨⟨"b"⟩, .ofList [⟨"a"⟩]⟩, .dispatch, .submit ⟨⟨"c"⟩, .empty⟩,
    .report .fail ⟨0⟩, .dispatch, .report .pass ⟨1⟩, .dispatch, .submit ⟨⟨"a"⟩, .ofList [⟨"b"⟩]⟩]

/-- The head is withdrawn while it is under test, and the change behind it is handed out next. -/
theorem headWithdrawn_strands_none :
    (afterRun (.empty : Queue ChangeRecord ChangeId) headWithdrawn).Reachable ∧
      (afterRun .empty headWithdrawn).lane = ⟨[[⟨⟨"c"⟩, .empty⟩]], none, 3⟩ ∧
      (afterRun .empty headWithdrawn).lane.WellFormed ∧
      ((afterRun .empty headWithdrawn).lane.dispatch.1 = none ↔
        (afterRun .empty headWithdrawn).lane.changes = []) := by
  have hreach : (afterRun (.empty : Queue ChangeRecord ChangeId) headWithdrawn).Reachable :=
    Reachable.afterRun .empty (canMintAll_of_length (by decide))
  exact ⟨hreach, by decide +kernel, reachable_strands_none (.inr ⟨_, hreach, rfl⟩)⟩

end Queue

end MergeQueue
