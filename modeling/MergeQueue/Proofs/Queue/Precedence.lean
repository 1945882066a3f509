import MergeQueue.Proofs.Queue.Conservation

/-!
# Nothing passes before what it requires

The changes of the lane are in order, given what has passed so far. Passing a head moves the front
of the lane to what has passed. A change that fails or is turned away takes along all that requires
it, so that nothing in the lane misses it. Settling appends changes in the order of their
requirements.
-/
namespace MergeQueue.Queue

open Lane

variable {C I : Type} [Change C I]

def passedIdents (steps : List (Step C I)) : List I := (steps.flatMap Step.passed).map ident

@[simp] theorem passedIdents_concat (steps : List (Step C I)) (s : Step C I) :
    passedIdents (steps ++ [s]) = passedIdents steps ++ s.passed.map ident := by
  rw [passedIdents, List.flatMap_append, List.flatMap_singleton, List.map_append]
  rfl

variable [DecidableEq I] {q : Queue C I} {met : I → Prop}

theorem inOrder_withoutDependsOn {c : C} (h : InOrder met q.lane.changes) :
    InOrder met (q.without (q.dependsOn c)).lane.changes := by
  have hmem : ∀ d ∈ q.lane.changes, d ∈ q.pool ++ [c] := by
    intro d hd
    exact List.mem_append_left _ (List.mem_append_left _ hd)
  have hmet : InOrder (fun i => met i ∨ i = ident c) q.lane.changes := h.mono fun _ => Or.inl
  rw [changes_without]
  apply hmet.filter_requires hmem
  intro d _
  rw [← dependsOn_eq_true_iff]
  simp

/-- When a change fails, all that requires it leaves, and it need not be met. -/
theorem inOrder_withoutRequiring {c : C}
    (h : InOrder (fun i => met i ∨ i = ident c) q.lane.changes) :
    InOrder met (q.without (q.requiring c)).lane.changes := by
  have hmem : ∀ d ∈ q.lane.changes, d ∈ q.pool := fun d hd => List.mem_append_left _ hd
  rw [changes_without]
  apply h.filter_requires hmem
  intro d _
  rw [← requiring_eq_true_iff]
  simp

theorem inOrder_report (verdict : Verdict) (key : TestKey) (h : InOrder met q.lane.changes) :
    InOrder met (q.report verdict key).1.passed ∧
      InOrder (fun i => met i ∨ i ∈ (q.report verdict key).1.passed.map ident)
        (q.report verdict key).2.lane.changes := by
  rcases report_cases verdict key q with ⟨hnil, hreport⟩ | ⟨-, -, c, bs, hb, hreport⟩
  · rw [hreport, ← inOrder_append]
    have hlane := changes_report verdict key q.lane
    rw [hnil, List.append_nil] at hlane
    change InOrder met ((q.lane.report verdict key).1.passed ++ _)
    rwa [hlane]
  · rw [changes, hb] at h
    have hrest : InOrder (fun i => met i ∨ i = ident c) (q.afterFailure bs).lane.changes := by
      rw [changes_afterFailure]
      exact h.2
    rw [hreport]
    constructor
    · trivial
    · exact (inOrder_withoutRequiring hrest).mono fun _ => Or.inl

variable [DecidableEq C]

theorem inOrder_changes_settle {cs : List C} (h : InOrder met q.lane.changes)
    (hfresh : NewTo q.lane cs) : InOrder met (q.settle cs).2.lane.changes := by
  rw [changes_settle hfresh]
  exact inOrder_append.2 ⟨h, (inOrder_settle cs q).mono fun _ => Or.inr⟩

theorem inOrder_submit (c : C) (h : InOrder met q.lane.changes) (hnd : (q.pool.map ident).Nodup) :
    InOrder met (q.submit c).2.lane.changes := by
  rcases submit_cases c q with ⟨-, hsub⟩ | ⟨-, -, hsub⟩ | ⟨hnew, -, hsub⟩
  · rw [hsub]
    exact h
  · rw [hsub]
    exact inOrder_withoutDependsOn h
  · rw [hsub]
    exact inOrder_changes_settle (q := (q.displace (q.dependsOn c)).2) h
      (newTo_candidates hnd hnew _)

theorem inOrder_reopen {q' : Queue C I} (h : InOrder met q.lane.changes) (hq : q.reopen = .ok q') :
    InOrder met q'.lane.changes := by
  obtain ⟨lane, hlane, hnd, rfl⟩ := reopen_eq_ok hq
  have hchanges : lane.changes = q.lane.changes := changes_restore hlane
  exact inOrder_changes_settle (q := ⟨lane, []⟩) (hchanges ▸ h) (.of_nodup hnd)

/-- What a step passes is in order, and what it leaves in the lane is, once that has passed. -/
theorem inOrder_act (a : Action C) (h : InOrder met q.lane.changes)
    (hnd : (q.pool.map ident).Nodup) :
    InOrder met (q.step a).passed ∧
      InOrder (fun i => met i ∨ i ∈ (q.step a).passed.map ident) (q.act a).2.lane.changes := by
  cases a with
  | submit c => exact ⟨trivial, (inOrder_submit c h hnd).mono fun _ => Or.inl⟩
  | dispatch =>
    have hlane : q.dispatch.2.lane.changes = q.lane.changes := changes_dispatch q.lane
    exact ⟨trivial, (hlane ▸ h).mono fun _ => Or.inl⟩
  | report verdict key => exact inOrder_report verdict key h
  | reopen =>
    have hlane : InOrder met (q.act .reopen).2.lane.changes := by
      rcases act_reopen_cases q with hsame | ⟨q', hq, hnew⟩
      · rw [hsame]
        exact h
      · rw [hnew]
        exact inOrder_reopen h hq
    exact ⟨trivial, hlane.mono fun _ => Or.inl⟩

theorem inOrder_afterRun (as : List (Action C)) :
    InOrder (· ∈ passedIdents (run (.empty : Queue C I) as))
      (afterRun (.empty : Queue C I) as).lane.changes := by
  induction as using List.reverseRecOn with
  | nil => trivial
  | append_singleton as a ih =>
    rw [run_concat, afterRun_concat, passedIdents_concat]
    exact (inOrder_act a ih (accounted_run as).distinct).2.mono fun i => List.mem_append.2

/-- In every run from the empty queue, what a passed change requires was passed by an earlier step
or stands in front of it among the changes that passed with it. And at any moment, what a change in
the lane requires stands in front of it or was passed. -/
theorem run_passes_in_order (as : List (Action C)) :
    (∀ earlier s later, run (.empty : Queue C I) as = earlier ++ s :: later →
      ∀ o, s.answer = .reported o → ∀ front c back, o.passed = front ++ c :: back →
        ∀ i ∈ requires c, i ∈ passedIdents earlier ∨ i ∈ front.map ident) ∧
      ∀ front c back, (afterRun (.empty : Queue C I) as).lane.changes = front ++ c :: back →
        ∀ i ∈ requires c,
          i ∈ passedIdents (run (.empty : Queue C I) as) ∨ i ∈ front.map ident := by
  constructor
  · intro earlier s later hrun o hanswer front c back hpassed i hi
    obtain ⟨as', a, -, -, rfl, rfl⟩ := run_eq_append_cons hrun
    have hstep := (inOrder_act a (inOrder_afterRun as') (accounted_run as').distinct).1
    have hlist : ((afterRun (.empty : Queue C I) as').step a).passed = o.passed := by
      rw [Step.passed, hanswer]
    rw [hlist, hpassed] at hstep
    exact hstep.of_requires hi
  · intro front c back hchanges i hi
    have hlane := inOrder_afterRun (I := I) as
    rw [hchanges] at hlane
    exact hlane.of_requires hi

end MergeQueue.Queue
