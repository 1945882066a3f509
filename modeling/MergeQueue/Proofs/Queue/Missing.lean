import MergeQueue.Proofs.Queue.Precedence
import MergeQueue.Proofs.Queue.Settled

/-!
# What a waiting change is shown to miss

A change is parked for the identities that it requires and that do not stand in the lane. After that
nothing that it requires comes into the lane or is failed without it: it is settled again with the
one, and leaves with the other. Only passing does not look at what waits. So what is shown goes
wrong where a required change passes, and nowhere else.
-/
namespace MergeQueue.Queue

open Lane

variable {C I : Type} [Change C I]

/-- What is shown as missing is what the change requires and does not stand in the lane. -/
def ShowsMissing (w : Waiting C I) (l : Lane C) : Prop :=
  ∀ i, i ∈ w.missing ↔ i ∈ requires w.change ∧ i ∉ l.changes.map ident

/-- What the change requires stays in the lane or passes, and nothing of it comes in. -/
def OnlyPasses (c : C) (l l' : Lane C) (passed : List C) : Prop :=
  ∀ i ∈ requires c, i ∈ l.changes.map ident ↔
    i ∈ l'.changes.map ident ∨ i ∈ passed.map ident

theorem OnlyPasses.of_changes {c : C} {l l' : Lane C} {passed : List C}
    (h : passed ++ l'.changes = l.changes) : OnlyPasses c l l' passed := by
  intro i _
  rw [← h, List.map_append, List.mem_append, or_comm]

theorem onlyPasses_without {q : Queue C I} {p : C → Bool} {c : C} (hc : p c = false)
    (hleave : ∀ d, ident d ∈ requires c → p d = true → p c = true) :
    OnlyPasses c q.lane (q.without p).lane [] := by
  intro i hi
  simp only [changes_without, List.map_nil, List.not_mem_nil, or_false, List.mem_map,
    List.mem_filter, Bool.not_eq_true']
  constructor
  · rintro ⟨d, hd, rfl⟩
    refine ⟨d, ⟨hd, ?_⟩, rfl⟩
    rw [Bool.eq_false_iff]
    intro hp
    rw [hleave d hi hp] at hc
    cases hc
  · rintro ⟨d, ⟨hd, -⟩, rfl⟩
    exact ⟨d, hd, rfl⟩

variable [DecidableEq I] {q : Queue C I}

theorem park_congr {visible visible' : List I} {c : C}
    (h : ∀ i ∈ requires c, i ∈ visible ↔ i ∈ visible') : park visible c = park visible' c := by
  have hmissing : (requires c).filter (· ∉ visible) = (requires c).filter (· ∉ visible') := by
    apply List.filter_congr
    intro i hi
    exact decide_eq_decide.2 (not_congr (h i hi))
  rw [park, park, hmissing]

theorem ShowsMissing.of_eq_park {w : Waiting C I} {l : Lane C}
    (h : w = park (l.changes.map ident) w.change) : ShowsMissing w l := by
  intro i
  rw [h]
  simp [park]

def ParkedAfresh (q : Queue C I) : Prop :=
  ∀ w ∈ q.waiting, w = park (q.lane.changes.map ident) w.change

theorem ParkedAfresh.showsMissing (h : q.ParkedAfresh) : ∀ w ∈ q.waiting, ShowsMissing w q.lane :=
  fun w hw => .of_eq_park (h w hw)

theorem ParkedAfresh.waiting_eq (h : q.ParkedAfresh) :
    q.waiting = q.awaiting.map (park (q.lane.changes.map ident)) := by
  rw [awaiting, List.map_map]
  exact (List.map_id' q.waiting).symm.trans (List.map_congr_left h)

/-- A change that fails takes along all that requires it, so what stays requires nothing that
left. -/
theorem waiting_report (verdict : Verdict) (key : TestKey) {w : Waiting C I}
    (hw : w ∈ (q.report verdict key).2.waiting) :
    w ∈ q.waiting ∧ OnlyPasses w.change q.lane (q.report verdict key).2.lane
      (q.report verdict key).1.passed := by
  rcases report_cases verdict key q with ⟨hnil, hreport⟩ | ⟨-, -, c, bs, hb, hreport⟩
  · rw [hreport] at hw ⊢
    refine ⟨hw, .of_changes ?_⟩
    have hlane := changes_report verdict key q.lane
    rwa [hnil, List.append_nil] at hlane
  · rw [hreport] at hw ⊢
    obtain ⟨hw, hfree⟩ := mem_waiting_without.1 hw
    have hpool := mem_pool_of_waiting hw
    refine ⟨hw, fun i hi => ?_⟩
    have hne : i ≠ ident c := by
      intro hic
      rw [requiring_of_requires hpool hi (.inl hic)] at hfree
      cases hfree
    have hstay := onlyPasses_without (q := q.afterFailure bs) hfree
      (fun d hd hp => requiring_of_requires hpool hd (.inr (of_decide_eq_true hp))) i hi
    rw [← hstay, changes_afterFailure, changes, hb]
    simp [hne]

variable [DecidableEq C]

theorem waiting_settle {cs : List C} (h : NewTo q.lane cs) {w : Waiting C I}
    (hw : w ∈ (q.settle cs).2.waiting) :
    w ∈ q.waiting ∨ w = park ((q.settle cs).2.lane.changes.map ident) w.change := by
  rcases List.mem_append.1 hw with hw | hw
  · exact .inl hw
  · obtain ⟨c, -, rfl⟩ := List.mem_map.1 hw
    refine .inr (park_congr fun i _ => ?_)
    rw [changes_settle h, List.map_append, List.mem_append, List.mem_append, or_comm]
    rfl

/-- A submission parks a change anew, or neither brings nor takes away what it requires. -/
theorem waiting_submit (h : (q.pool.map ident).Nodup) (c : C) {w : Waiting C I}
    (hw : w ∈ (q.submit c).2.waiting) :
    w = park ((q.submit c).2.lane.changes.map ident) w.change ∨
      w ∈ q.waiting ∧ OnlyPasses w.change q.lane (q.submit c).2.lane [] := by
  rcases submit_cases c q with ⟨-, hsub⟩ | ⟨-, -, hsub⟩ | ⟨hnew, -, hsub⟩
  · rw [hsub] at hw ⊢
    exact .inr ⟨hw, .of_changes rfl⟩
  · rw [hsub] at hw ⊢
    obtain ⟨hw, hfree⟩ := mem_waiting_without.1 hw
    refine .inr ⟨hw, onlyPasses_without hfree fun d hd hp => ?_⟩
    exact dependsOn_of_requires (mem_pool_of_waiting hw) hd (.inr (of_decide_eq_true hp))
  · have hfresh := newTo_candidates h hnew (q.dependsOn c)
    rw [hsub] at hw ⊢
    refine (waiting_settle hfresh hw).symm.imp_right fun hw => ?_
    obtain ⟨hw, hfree⟩ := mem_waiting_without.1 hw
    refine ⟨hw, fun i hi => ?_⟩
    have hadded := not_mem_added_of_requires (mem_pool_of_waiting hw) hfree hi
    rw [changes_settle hfresh, List.map_append, List.mem_append]
    simp only [hadded, or_false, List.map_nil, List.not_mem_nil]
    rfl

theorem waiting_act (h : (q.pool.map ident).Nodup) (a : Action C) {w : Waiting C I}
    (hw : w ∈ (q.act a).2.waiting) :
    ShowsMissing w (q.act a).2.lane ∨
      w ∈ q.waiting ∧ OnlyPasses w.change q.lane (q.act a).2.lane (q.step a).passed := by
  cases a with
  | submit c => exact (waiting_submit h c hw).imp_left .of_eq_park
  | dispatch => exact .inr ⟨hw, .of_changes (changes_dispatch q.lane)⟩
  | report verdict key => exact .inr (waiting_report verdict key hw)
  | reopen =>
    rcases act_reopen_cases q with hsame | ⟨q', hq, hnew⟩
    · rw [hsame] at hw ⊢
      exact .inr ⟨hw, .of_changes rfl⟩
    · obtain ⟨lane, -, hnd, rfl⟩ := reopen_eq_ok hq
      rw [hnew] at hw ⊢
      exact .inl (.of_eq_park ((waiting_settle (.of_nodup hnd) hw).resolve_left List.not_mem_nil))

/-- Whatever waits was parked at some moment of the run and waits ever since, and what it is shown
to miss was right then. From that moment on, it is what the change requires but for what stands in
the lane and what has passed since. -/
theorem run_shows_missing_until_passed (as : List (Action C)) :
    ∀ w ∈ (afterRun (.empty : Queue C I) as).waiting, ∃ front back, as = front ++ back ∧
      (∀ mid, mid <+: back → w ∈ (afterRun (.empty : Queue C I) (front ++ mid)).waiting) ∧
      ShowsMissing w (afterRun (.empty : Queue C I) front).lane ∧
      ∀ i, i ∈ w.missing ↔ i ∈ requires w.change ∧
        i ∉ (afterRun (.empty : Queue C I) as).lane.changes.map ident ∧
        i ∉ passedIdents (run (afterRun (.empty : Queue C I) front) back) := by
  -- From the end: the last action parked the change, or the change waits since an earlier one.
  induction as using List.reverseRecOn with
  | nil => nofun
  | append_singleton as a ih =>
    intro w hw
    have hafter := hw
    rw [afterRun_concat] at hafter ⊢
    rcases waiting_act (accounted_run as).distinct a hafter with hright | ⟨hwaited, honly⟩
    · refine ⟨as ++ [a], [], (List.append_nil _).symm, ?_, ?_, fun i => ?_⟩
      · intro mid hmid
        rwa [List.prefix_nil.1 hmid, List.append_nil]
      · rwa [afterRun_concat]
      · simp [hright i, passedIdents, run]
    · obtain ⟨front, back, rfl, hsince, hright, hmissing⟩ := ih w hwaited
      refine ⟨front, back ++ [a], List.append_assoc .., ?_, hright, fun i => ?_⟩
      · intro mid hmid
        rcases List.prefix_concat_iff.1 hmid with rfl | hmid
        · rwa [← List.append_assoc]
        · exact hsince mid hmid
      · rw [hmissing, run_concat, passedIdents_concat, ← afterRun_append, List.mem_append,
          and_congr_right_iff]
        intro hi
        rw [honly i hi]
        tauto

/-- What another change requires enters the lane while the other waits for more, and passes. -/
def passedOver : List (Action ChangeRecord) :=
  [.submit ⟨⟨"b"⟩, .ofList [⟨"a"⟩, ⟨"z"⟩]⟩, .submit ⟨⟨"a"⟩, .empty⟩, .dispatch, .report .pass ⟨0⟩]

/-- The change that waits, as it was parked when one of the two that it requires had come. -/
def parkedForOne : Waiting ChangeRecord ChangeId := ⟨⟨⟨"b"⟩, .ofList [⟨"a"⟩, ⟨"z"⟩]⟩, [⟨"z"⟩]⟩

theorem passedOver_shows_missing_until_passed :
    parkedForOne ∈ (afterRun .empty passedOver).waiting ∧
      ∃ front back, passedOver = front ++ back ∧
        (∀ mid, mid <+: back → parkedForOne ∈ (afterRun .empty (front ++ mid)).waiting) ∧
        ShowsMissing parkedForOne (afterRun .empty front).lane ∧
        ∀ i, i ∈ parkedForOne.missing ↔ i ∈ requires parkedForOne.change ∧
          i ∉ (afterRun (.empty : Queue ChangeRecord ChangeId) passedOver).lane.changes.map ident ∧
          i ∉ passedIdents (run (afterRun (.empty : Queue ChangeRecord ChangeId) front) back) := by
  have hwaits : parkedForOne ∈ (afterRun .empty passedOver).waiting := by decide +kernel
  exact ⟨hwaits, run_shows_missing_until_passed passedOver parkedForOne hwaits⟩

/-- A change that passed is missing and not shown, until the queue is made again of its parts. -/
theorem passed_requirement_not_shown :
    (afterRun .empty passedOver).waiting = [parkedForOne] ∧
      (afterRun (.empty : Queue ChangeRecord ChangeId) passedOver).lane.changes = [] ∧
      ¬ShowsMissing parkedForOne (afterRun .empty passedOver).lane ∧
      (afterRun .empty (passedOver ++ [.reopen])).waiting =
        [⟨parkedForOne.change, [⟨"a"⟩, ⟨"z"⟩]⟩] := by
  refine ⟨by decide +kernel, by decide +kernel, fun hright => ?_, by decide +kernel⟩
  have hshown : (⟨"a"⟩ : ChangeId) ∈ parkedForOne.missing :=
    (hright ⟨"a"⟩).2 ⟨by decide +kernel, by decide +kernel⟩
  exact absurd hshown (by decide)

end MergeQueue.Queue
