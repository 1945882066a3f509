import MergeQueue.Proofs.Queue.Cases
import MergeQueue.Proofs.Queue.Settle

/-!
# The batch under test, in a queue

Whatever a queue does to its lane is made of lane operations, so the lane stays well-formed. Every
action but handing out a batch keeps the test as it is or drops it; handing out a batch repeats the
test that is outstanding or mints the next key. A report under any other key does nothing.
-/
namespace MergeQueue.Queue

open Lane

variable {C I : Type}

/-- The lane stays well-formed, and its test is kept or dropped. -/
def LaneKept (l l' : Lane C) : Prop := l'.WellFormed ∧ KeepsTest l l'

theorem LaneKept.refl {l : Lane C} (h : l.WellFormed) : LaneKept l l := ⟨h, .refl l⟩

theorem LaneKept.trans {l₁ l₂ l₃ : Lane C} (h : LaneKept l₁ l₂) (h' : LaneKept l₂ l₃) :
    LaneKept l₁ l₃ := ⟨h'.1, h.2.trans h'.2⟩

theorem laneKept_without {q : Queue C I} (p : C → Bool) (h : q.lane.WellFormed) :
    LaneKept q.lane (q.without p).lane :=
  ⟨wellFormed_withdraw p h, keepsTest_withdraw p h⟩

theorem outstanding_without {q : Queue C I} (p : C → Bool) (h : q.lane.WellFormed)
    (hk : q.lane.outstanding = none) : (q.without p).lane.outstanding = none := by
  rw [Option.eq_none_iff_forall_ne_some]
  intro key hkey
  have hbefore := ((keepsTest_withdraw p h).outstanding key hkey).1
  rw [hk] at hbefore
  cases hbefore

variable [DecidableEq I] [Change C I]

theorem laneKept_report {q : Queue C I} (verdict : Verdict) (key : TestKey)
    (h : q.lane.WellFormed) : LaneKept q.lane (q.report verdict key).2.lane := by
  have hlane : LaneKept q.lane (q.lane.report verdict key).2 :=
    ⟨wellFormed_report verdict key h, keepsTest_report verdict key q.lane⟩
  rcases report_cases verdict key q with ⟨-, hreport⟩ | ⟨rfl, hk, c, bs, hb, hreport⟩
  · rw [hreport]
    exact hlane
  · rw [lane_report_of_single hk hb] at hlane
    rw [hreport]
    exact hlane.trans (laneKept_without _ hlane.1)

theorem report_of_stale {q : Queue C I} {verdict : Verdict} {key : TestKey}
    (h : q.lane.outstanding ≠ some key) : q.report verdict key = (.none, q) := by
  have hlane : q.lane.report verdict key = (.none, q.lane) := report_of_ne h
  rw [report_of_nil (by rw [hlane]; rfl), hlane]

theorem outstanding_after_report {q : Queue C I} {verdict : Verdict} {key : TestKey}
    (hwf : q.lane.WellFormed) (h : q.lane.outstanding = some key) :
    (q.report verdict key).2.lane.outstanding = none := by
  rcases report_cases verdict key q with ⟨-, hreport⟩ | ⟨rfl, hk, c, bs, hb, hreport⟩
  · rw [hreport]
    exact outstanding_report verdict h
  · have hlane : (q.afterFailure bs).lane.WellFormed := by
      have := wellFormed_report .fail key hwf
      rwa [lane_report_of_single hk hb] at this
    rw [hreport]
    exact outstanding_without _ hlane rfl

variable [DecidableEq C]

theorem laneKept_settle {q : Queue C I} (cs : List C) (h : q.lane.WellFormed) :
    LaneKept q.lane (q.settle cs).2.lane :=
  ⟨wellFormed_enqueueAll _ h, keepsTest_enqueueAll _ h⟩

theorem laneKept_submit {q : Queue C I} (c : C) (h : q.lane.WellFormed) :
    LaneKept q.lane (q.submit c).2.lane := by
  rcases submit_cases c q with ⟨-, hsub⟩ | ⟨-, -, hsub⟩ | ⟨-, -, hsub⟩
  · rw [hsub]
    exact .refl h
  · rw [hsub]
    exact laneKept_without _ h
  · rw [hsub]
    exact laneKept_settle (q := (q.displace (q.dependsOn c)).2) _ h

theorem laneKept_reopen {q q' : Queue C I} (h : q.lane.WellFormed) (hq : q.reopen = .ok q') :
    LaneKept q.lane q'.lane := by
  obtain ⟨lane, hlane, -, rfl⟩ := reopen_eq_ok hq
  rw [h.restore_eq] at hlane
  cases hlane
  exact laneKept_settle (q := ⟨q.lane, []⟩) _ h

/-- Every action but handing out a batch keeps the test as it is or drops it. -/
theorem laneKept_act {q : Queue C I} {a : Action C} (h : q.lane.WellFormed) (ha : a ≠ .dispatch) :
    LaneKept q.lane (q.act a).2.lane := by
  cases a with
  | submit c => exact laneKept_submit c h
  | dispatch => exact absurd rfl ha
  | report verdict key => exact laneKept_report verdict key h
  | reopen =>
    rcases act_reopen_cases q with hsame | ⟨q', hq, hnew⟩
    · rw [hsame]
      exact .refl h
    · rw [hnew]
      exact laneKept_reopen h hq

theorem wellFormed_lane_act {q : Queue C I} (h : q.lane.WellFormed) (a : Action C)
    (mint : a = .dispatch → q.lane.CanMint) : (q.act a).2.lane.WellFormed := by
  by_cases ha : a = .dispatch
  · subst ha
    exact wellFormed_dispatch h (mint rfl)
  · exact (laneKept_act h ha).1

end MergeQueue.Queue
