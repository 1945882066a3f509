import MergeQueue.Change
import MergeQueue.Proofs.Queue.Conservation
import MergeQueue.Proofs.Queue.UnderTest
import MergeQueue.Proofs.Requirement.Available

/-!
# What waits misses something

A change that waits requires an identity that does not stand in the lane. Only a submission brings
changes into the lane besides those that waited; whoever requires one of them is settled together
with it, and settling goes on until it admits nothing more.
-/
namespace MergeQueue.Queue

open Lane

variable {C I : Type} [Change C I]

/-- The change requires an identity that does not stand in the lane. -/
def Misses (c : C) (l : Lane C) : Prop := ∃ i ∈ requires c, i ∉ l.changes.map ident

theorem Misses.mono {c : C} {l l' : Lane C} (h : Misses c l) (hsub : l'.changes ⊆ l.changes) :
    Misses c l' := by
  obtain ⟨i, hi, hmiss⟩ := h
  exact ⟨i, hi, fun hl => hmiss (List.map_subset _ hsub hl)⟩

section Removal

variable {q q' : Queue C I}

theorem misses_of_subset (h : ∀ c ∈ q.awaiting, Misses c q.lane)
    (hlane : q'.lane.changes ⊆ q.lane.changes) (hawaiting : q'.awaiting ⊆ q.awaiting) :
    ∀ c ∈ q'.awaiting, Misses c q'.lane :=
  fun c hc => (h c (hawaiting hc)).mono hlane

theorem misses_without (h : ∀ c ∈ q.awaiting, Misses c q.lane) (p : C → Bool) :
    ∀ c ∈ (q.without p).awaiting, Misses c (q.without p).lane := by
  refine misses_of_subset h ?_ ?_
  · rw [changes_without]
    exact List.filter_subset_self _
  · rw [awaiting_without]
    exact List.filter_subset_self _

theorem misses_dispatch (h : ∀ c ∈ q.awaiting, Misses c q.lane) :
    ∀ c ∈ q.dispatch.2.awaiting, Misses c q.dispatch.2.lane := by
  refine misses_of_subset h ?_ (List.Subset.refl _)
  change q.lane.dispatch.2.changes ⊆ q.lane.changes
  rw [changes_dispatch]
  exact List.Subset.refl _

theorem misses_report [DecidableEq I] (h : ∀ c ∈ q.awaiting, Misses c q.lane) (verdict : Verdict)
    (key : TestKey) :
    ∀ c ∈ (q.report verdict key).2.awaiting, Misses c (q.report verdict key).2.lane := by
  obtain ⟨hlane, hawaiting⟩ := sublist_report verdict key q
  exact misses_of_subset h hlane.subset hawaiting.subset

end Removal

section Settle

variable [DecidableEq I] {visible : List I} {cs : List C}

/-- A pass that admits nothing finds nothing that could be admitted. -/
theorem blocked_of_admitPass {blocked : List C} (h : admitPass visible cs = ([], blocked)) :
    ∀ c ∈ cs, ∃ i ∈ requires c, i ∉ visible := by
  induction cs generalizing blocked with
  | nil => nofun
  | cons c cs ih =>
    rw [admitPass] at h
    split at h
    · cases h
    · rename_i hc
      have hnil : (admitPass visible cs).1 = [] := (Prod.ext_iff.1 h).1
      refine List.forall_mem_cons.2 ⟨?_, ih (Prod.ext hnil rfl)⟩
      simpa using hc

/-- What passes leave over misses something in the end. -/
theorem blocked_of_admitAll (visible : List I) (cs : List C) :
    ∀ c ∈ (admitAll visible cs).2,
      ∃ i ∈ requires c, i ∉ visible ∧ i ∉ (admitAll visible cs).1.map ident := by
  fun_induction admitAll visible cs with
  | case1 visible cs blocked h =>
    intro c hc
    have hperm := perm_admitPass visible cs
    rw [h] at hperm
    obtain ⟨i, hi, hv⟩ := blocked_of_admitPass h c (hperm.subset hc)
    exact ⟨i, hi, hv, List.not_mem_nil⟩
  | case2 visible cs c admitted blocked h later left hrec ih =>
    rw [hrec] at ih
    intro d hd
    obtain ⟨i, hi, hv, hl⟩ := ih d hd
    rw [List.mem_append, not_or] at hv
    refine ⟨i, hi, hv.2, ?_⟩
    rw [List.map_append, List.mem_append, not_or]
    exact ⟨hv.1, hl⟩

/-- Nothing is admitted if every candidate misses something. -/
theorem admitAll_of_blocked (h : ∀ c ∈ cs, ∃ i ∈ requires c, i ∉ visible) :
    admitAll visible cs = ([], cs) := by
  have hpass : admitPass visible cs = ([], cs) := by
    induction cs with
    | nil => rfl
    | cons c cs ih =>
      rw [List.forall_mem_cons] at h
      have hc : ¬(requires c).all (· ∈ visible) := by simpa using h.1
      rw [admitPass, if_neg hc, ih h.2]
  rw [admitAll]
  split
  · rename_i heq
    rw [hpass] at heq
    cases heq
    rfl
  · rename_i heq
    rw [hpass] at heq
    cases heq

theorem misses_leftOver [DecidableEq C] {q : Queue C I} (h : NewTo q.lane cs) :
    ∀ c ∈ q.leftOver cs, Misses c (q.settle cs).2.lane := by
  intro c hc
  obtain ⟨i, hi, hv, ha⟩ := blocked_of_admitAll _ cs c hc
  refine ⟨i, hi, ?_⟩
  rw [changes_settle h, List.map_append, List.mem_append, not_or]
  exact ⟨hv, ha⟩

/-- Settling admits exactly the candidates that are available, given what is in the lane. -/
theorem mem_settle_iff [DecidableEq C] {q : Queue C I} (h : NewTo q.lane cs) {c : C} :
    c ∈ (q.settle cs).1 ↔
      c ∈ cs ∧ Available cs (· ∈ q.lane.changes.map ident) (ident c) :=
  mem_admitted_iff (perm_settle cs q) h.distinct h.not_in_lane (inOrder_settle cs q)
    (blocked_of_admitAll _ cs)

end Settle

/-- What every action keeps of a queue, whatever became of the counter: identities of their own, and
changes that wait for something. -/
structure Parked (q : Queue C I) : Prop where
  distinct : (q.pool.map ident).Nodup
  misses : ∀ c ∈ q.awaiting, Misses c q.lane

/-- What every action keeps of a queue with a well-formed lane. -/
structure Settled (q : Queue C I) : Prop extends Parked q where
  wellFormed : q.lane.WellFormed

theorem parked_empty : (empty : Queue C I).Parked := ⟨.nil, nofun⟩

theorem settled_empty : (empty : Queue C I).Settled := ⟨parked_empty, wellFormed_empty⟩

variable [DecidableEq I]

/-- Whoever requires a submitted change, or something that requires it, depends on it. -/
theorem dependsOn_of_requires {q : Queue C I} {c d : C} {i : I} (hd : d ∈ q.pool)
    (hi : i ∈ requires d) (h : i = ident c ∨ i ∈ q.dependantsOf c) : q.dependsOn c d = true :=
  decide_eq_true (RequiredBy.mem_closure_of_requires (List.mem_append_left _ hd) hi h)

theorem requiring_of_requires {q : Queue C I} {c d : C} {i : I} (hd : d ∈ q.pool)
    (hi : i ∈ requires d) (h : i = ident c ∨ i ∈ (RequiredBy.ofPool q.pool).closure (ident c)) :
    q.requiring c d = true :=
  decide_eq_true (RequiredBy.mem_closure_of_requires hd hi h)

variable [DecidableEq C] {q q' : Queue C I}

/-- Who does not depend on a submitted change requires nothing that is settled together with it. -/
theorem not_mem_added_of_requires {c d : C} {i : I} (hd : d ∈ q.pool)
    (hfree : q.dependsOn c d = false) (hi : i ∈ requires d) :
    i ∉ ((q.displace (q.dependsOn c)).2.settle
      (c :: (q.displace (q.dependsOn c)).1)).1.map ident := by
  intro hadded
  obtain ⟨e, he, rfl⟩ := List.mem_map.1 hadded
  have he := (perm_settle _ _).subset (List.mem_append_left _ he)
  have hdep : q.dependsOn c d = true := by
    apply dependsOn_of_requires hd hi
    rcases List.mem_cons.1 he with rfl | he
    · exact .inl rfl
    · exact .inr (of_decide_eq_true (List.mem_filter.1 he).2)
  simp [hdep] at hfree

/-- What a submission brings into the lane is nothing that a change left waiting requires. -/
theorem misses_submit (h : q.Parked) (c : C) :
    ∀ d ∈ (q.submit c).2.awaiting, Misses d (q.submit c).2.lane := by
  rcases submit_cases c q with ⟨-, hsub⟩ | ⟨-, -, hsub⟩ | ⟨hnew, -, hsub⟩
  · rw [hsub]
    exact h.misses
  · rw [hsub]
    exact misses_without h.misses _
  · have hfresh := newTo_candidates h.distinct hnew (q.dependsOn c)
    rw [hsub]
    simp only [awaiting_settle, List.mem_append]
    rintro d (hd | hd)
    · rw [awaiting_displace, List.mem_filter, Bool.not_eq_true'] at hd
      obtain ⟨hd, hfree⟩ := hd
      obtain ⟨i, hi, hmiss⟩ := h.misses d hd
      refine ⟨i, hi, ?_⟩
      rw [changes_settle hfresh, List.map_append, List.mem_append, not_or]
      exact ⟨hmiss, not_mem_added_of_requires (List.mem_append_right _ hd) hfree hi⟩
    · exact misses_leftOver hfresh d hd

/-- Settling waiting changes on a lane leaves only those that miss something. -/
theorem parked_settle {lane : Lane C} {awaiting : List C}
    (h : ((lane.changes ++ awaiting).map ident).Nodup) :
    (settle awaiting ⟨lane, []⟩).2.Parked := by
  constructor
  · exact ((perm_pool_ofParts h).map ident).nodup_iff.2 h
  · rw [awaiting_settle]
    exact misses_leftOver (q := ⟨lane, []⟩) (.of_nodup h)

theorem parked_ofLane {lane : Lane C} {awaiting : List C} (h : ofLane lane awaiting = .ok q) :
    q.Parked := by
  obtain ⟨hnd, rfl⟩ := ofLane_eq_ok h
  exact parked_settle hnd

theorem settled_ofLane {lane : Lane C} {awaiting : List C} (hlane : lane.WellFormed)
    (h : ofLane lane awaiting = .ok q) : q.Settled := by
  obtain ⟨hnd, rfl⟩ := ofLane_eq_ok h
  exact ⟨parked_settle hnd, (laneKept_settle (q := ⟨lane, []⟩) awaiting hlane).1⟩

theorem settled_restore {batches : List (List C)} {outstanding : Option TestKey} {nextKey : UInt64}
    {awaiting : List C} (h : restore batches outstanding nextKey awaiting = .ok q) : q.Settled := by
  obtain ⟨lane, hlane, -⟩ := restore_eq_ok h
  exact settled_ofLane (wellFormed_restore hlane) ((restore_of_lane hlane awaiting).symm.trans h)

theorem Parked.act (h : q.Parked) (a : Action C) : (q.act a).2.Parked where
  distinct := nodup_act a h.distinct
  misses := by
    cases a with
    | submit c => exact misses_submit h c
    | dispatch => exact misses_dispatch h.misses
    | report verdict key => exact misses_report h.misses verdict key
    | reopen =>
      rcases act_reopen_cases q with hsame | ⟨q', hq, hnew⟩
      · rw [hsame]
        exact h.misses
      · rw [hnew]
        exact (settled_restore hq).misses

theorem Parked.afterRun (h : q.Parked) (as : List (Action C)) : (q.afterRun as).Parked := by
  induction as using List.reverseRecOn with
  | nil => exact h
  | append_singleton as a ih =>
    rw [afterRun_concat]
    exact ih.act a

/-- Whatever became of the counter, what waits misses something. -/
theorem ReachedBy.parked {mint : Lane C → Prop} (h : q.ReachedBy mint) : q.Parked := by
  induction h with
  | empty => exact parked_empty
  | made _ h => exact parked_ofLane h
  | act _ a _ ih => exact ih.act a

theorem Settled.act (h : q.Settled) (a : Action C) (mint : a = .dispatch → q.lane.CanMint) :
    (q.act a).2.Settled :=
  ⟨h.toParked.act a, wellFormed_lane_act h.wellFormed a mint⟩

theorem Reachable.settled (h : q.Reachable) : q.Settled := by
  induction h with
  | empty => exact settled_empty
  | made hlane h => exact settled_ofLane (Lane.Reachable.wellFormed hlane) h
  | act _ a can ih => exact ih.act a can

/-- Nothing that could be admitted is left waiting. In every run, from the empty queue or from any
lane and waiting changes that make a queue, each change that waits requires an identity that does
not stand in the lane. -/
theorem run_leaves_none_admissible
    (start : q = .empty ∨ ∃ lane awaiting, ofLane lane awaiting = .ok q) (as : List (Action C)) :
    ∀ c ∈ (q.afterRun as).awaiting, ∃ i ∈ requires c,
      i ∉ (q.afterRun as).lane.changes.map ident := by
  have hstart : q.Parked := by
    rcases start with rfl | ⟨lane, awaiting, hmade⟩
    · exact parked_empty
    · exact parked_ofLane hmade
  exact (hstart.afterRun as).misses

/-- Two changes that require each other wait, with a third that requires one of them and a fourth
that does not. -/
def deadlocked : List ChangeRecord :=
  [⟨⟨"p"⟩, .ofList [⟨"q"⟩]⟩, ⟨⟨"q"⟩, .ofList [⟨"p"⟩]⟩, ⟨⟨"d"⟩, .ofList [⟨"a"⟩, ⟨"p"⟩]⟩,
    ⟨⟨"b"⟩, .ofList [⟨"a"⟩]⟩]

/-- What the fourth and the third of them require comes, and passes. -/
def released : List (Action ChangeRecord) :=
  [.submit ⟨⟨"a"⟩, .empty⟩, .dispatch, .report .pass ⟨0⟩, .reopen]

theorem released_leaves_deadlocked :
    ∃ q : Queue ChangeRecord ChangeId, ofLane .empty deadlocked = .ok q ∧
      q.awaiting = deadlocked ∧
      (run q released).flatMap Step.passed = [⟨⟨"a"⟩, .empty⟩, ⟨⟨"b"⟩, .ofList [⟨"a"⟩]⟩] ∧
      (q.afterRun released).awaiting.map (·.id.text) = ["p", "q", "d"] ∧
      ∀ c ∈ (q.afterRun released).awaiting,
        ∃ i ∈ requires c, i ∉ (q.afterRun released).lane.changes.map ident := by
  have hmade : ofLane .empty deadlocked =
      (.ok (settle deadlocked .empty).2 : Except _ (Queue ChangeRecord ChangeId)) := by
    decide +kernel
  exact ⟨_, hmade, by decide +kernel, by decide +kernel, by decide +kernel,
    run_leaves_none_admissible (.inr ⟨_, _, hmade⟩) released⟩

end MergeQueue.Queue
