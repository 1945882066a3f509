import MergeQueue.Proofs.Queue.Cases
import MergeQueue.Proofs.Queue.History
import MergeQueue.Proofs.Queue.Settle

/-!
# No change is lost or doubled

What a step takes in and what was live before it are, together, what is live after it and what it
passed, failed or turned away. From this follows that the identities of the live changes stay
distinct, which settling relies on: a change that is equal to one in the lane would not join it.
Summed over a run, every change that was taken in is live or was classified, exactly once.
-/
namespace MergeQueue.Queue

open Lane
open scoped List

variable {C I : Type}

def listed (f : Step C I → List C) (steps : List (Step C I)) : Multiset C := steps.flatMap f

@[simp] theorem listed_concat (f : Step C I → List C) (steps : List (Step C I)) (s : Step C I) :
    listed f (steps ++ [s]) = listed f steps + f s := by
  rw [listed, List.flatMap_append, List.flatMap_singleton, ← Multiset.coe_add]
  rfl

theorem perm_without (p : C → Bool) (q : Queue C I) :
    ((q.without p).pool ++ q.pool.filter p).Perm q.pool := by
  rw [pool_without]
  exact List.perm_append_comm.trans (List.filter_append_perm p q.pool)

variable [Change C I] {q : Queue C I}

theorem nodup_concat {c : C} (h : (q.pool.map ident).Nodup) (hc : ident c ∉ q.pool.map ident) :
    ((q.pool ++ [c]).map ident).Nodup := by
  rw [List.map_append]
  exact h.append (List.nodup_singleton _) (List.disjoint_singleton.2 hc)

/-- The submitted change and the waiting ones it displaces have identities of their own. -/
theorem newTo_candidates {c : C} (h : (q.pool.map ident).Nodup)
    (hc : ident c ∉ q.pool.map ident) (p : C → Bool) :
    NewTo (q.displace p).2.lane (c :: (q.displace p).1) := by
  rw [pool, List.map_append] at h hc
  obtain ⟨-, hwait, hdisj⟩ := List.nodup_append'.1 h
  rw [List.mem_append, not_or] at hc
  have hsub : (q.displace p).1.Sublist q.awaiting := List.filter_sublist
  constructor
  case distinct =>
    rw [List.map_cons, List.nodup_cons]
    exact ⟨fun hmem => hc.2 (List.map_subset ident hsub.subset hmem),
      hwait.sublist (hsub.map ident)⟩
  case not_in_lane =>
    intro d hd hlane
    rcases List.mem_cons.1 hd with rfl | hd
    · exact hc.1 hlane
    · exact hdisj hlane (List.mem_map_of_mem (hsub.subset hd))

variable [DecidableEq I]

/-- A step neither loses nor doubles a change. -/
def Conserves (s : Step C I) : Prop :=
  (s.after.pool ++ (s.passed ++ s.failed ++ s.rejected)).Perm (s.before.pool ++ s.accepted)

/-- A step that only moves live changes. -/
theorem Conserves.of_pool {s : Step C I} (hpool : s.after.pool.Perm s.before.pool)
    (hpassed : s.passed = []) (hfailed : s.failed = []) (hrejected : s.rejected = [])
    (haccepted : s.accepted = []) : Conserves s := by
  unfold Conserves
  simpa [hpassed, hfailed, hrejected, haccepted] using hpool

/-- Every change that the steps took in is live or was classified, and the live ones have
identities of their own. -/
structure Accounted (steps : List (Step C I)) (q : Queue C I) : Prop where
  conserved : listed Step.accepted steps = q.pool + listed Step.passed steps +
    listed Step.failed steps + listed Step.rejected steps
  distinct : (q.pool.map ident).Nodup

theorem accounted_empty : Accounted ([] : List (Step C I)) .empty := ⟨rfl, .nil⟩

theorem perm_pool_reopen [DecidableEq C] {q' : Queue C I} (h : q.reopen = .ok q') :
    q'.pool.Perm q.pool := by
  obtain ⟨lane, hlane, hnd, rfl⟩ := reopen_eq_ok h
  have hperm := perm_pool_ofParts hnd
  rwa [changes_restore hlane] at hperm

variable [DecidableEq C]

theorem accepted_of_holds {c : C} (h : ident c ∈ q.pool.map ident) :
    (q.step (.submit c)).accepted = [] := if_pos h

theorem accepted_of_not_holds {c : C} (h : ident c ∉ q.pool.map ident) :
    (q.step (.submit c)).accepted = [c] := if_neg h

theorem conserves_submit (c : C) (h : (q.pool.map ident).Nodup) :
    Conserves (q.step (.submit c)) := by
  change ((q.submit c).2.pool ++ (q.submit c).1.rejected).Perm
    (q.pool ++ (q.step (.submit c)).accepted)
  rcases submit_cases c q with ⟨hlive, hsub⟩ | ⟨hnew, -, hsub⟩ | ⟨hnew, -, hsub⟩
  · rw [hsub, accepted_of_holds hlive]
    exact .refl _
  · rw [hsub, accepted_of_not_holds hnew]
    calc (q.without (q.dependsOn c)).pool ++ c :: q.pool.filter (q.dependsOn c)
        ~ c :: ((q.without (q.dependsOn c)).pool ++ q.pool.filter (q.dependsOn c)) :=
          List.perm_middle
      _ ~ c :: q.pool := (perm_without _ q).cons c
      _ ~ q.pool ++ [c] := (List.perm_append_singleton c q.pool).symm
  · rw [hsub, accepted_of_not_holds hnew, List.append_nil]
    calc ((q.displace (q.dependsOn c)).2.settle (c :: (q.displace (q.dependsOn c)).1)).2.pool
        ~ (q.displace (q.dependsOn c)).2.pool ++ c :: (q.displace (q.dependsOn c)).1 :=
          perm_pool_settle (newTo_candidates h hnew _)
      _ ~ c :: ((q.displace (q.dependsOn c)).2.pool ++ (q.displace (q.dependsOn c)).1) :=
          List.perm_middle
      _ ~ c :: q.pool := (perm_displace _ q).cons c
      _ ~ q.pool ++ [c] := (List.perm_append_singleton c q.pool).symm

theorem conserves_dispatch : Conserves (q.step .dispatch) := by
  refine .of_pool ?_ rfl rfl rfl rfl
  change (q.lane.dispatch.2.changes ++ q.awaiting).Perm (q.lane.changes ++ q.awaiting)
  rw [changes_dispatch]

theorem conserves_report (verdict : Verdict) (key : TestKey) :
    Conserves (q.step (.report verdict key)) := by
  change ((q.report verdict key).2.pool ++
    ((q.report verdict key).1.passed ++ (q.report verdict key).1.failed ++ [])).Perm (q.pool ++ [])
  rw [List.append_nil, List.append_nil]
  rcases report_cases verdict key q with ⟨-, hreport⟩ | ⟨-, -, c, bs, hb, hreport⟩
  · rw [hreport]
    have hlane := changes_report verdict key q.lane
    conv_rhs => rw [pool, ← hlane, List.append_assoc]
    exact List.perm_append_comm
  · rw [hreport, pool_of_single hb, List.nil_append]
    exact List.perm_middle.trans ((perm_without _ _).cons c)

theorem conserves_reopen : Conserves (q.step .reopen) := by
  refine .of_pool ?_ rfl rfl rfl rfl
  change (q.act .reopen).2.pool.Perm q.pool
  rcases act_reopen_cases q with hsame | ⟨q', hq, hnew⟩
  · rw [hsame]
  · rw [hnew]
    exact perm_pool_reopen hq

theorem conserves_step (a : Action C) (h : (q.pool.map ident).Nodup) : Conserves (q.step a) := by
  cases a with
  | submit c => exact conserves_submit c h
  | dispatch => exact conserves_dispatch
  | report verdict key => exact conserves_report verdict key
  | reopen => exact conserves_reopen

theorem nodup_accepted (a : Action C) (h : (q.pool.map ident).Nodup) :
    ((q.pool ++ (q.step a).accepted).map ident).Nodup := by
  cases a with
  | submit c =>
    by_cases hlive : ident c ∈ q.pool.map ident
    · rw [accepted_of_holds hlive, List.append_nil]
      exact h
    · rw [accepted_of_not_holds hlive]
      exact nodup_concat h hlive
  | dispatch | report | reopen => exact (List.append_nil q.pool).symm ▸ h

/-- Every action keeps the identities of the live changes distinct. -/
theorem nodup_act (a : Action C) (h : (q.pool.map ident).Nodup) :
    ((q.act a).2.pool.map ident).Nodup := by
  have hperm := ((conserves_step a h).map ident).nodup_iff.2 (nodup_accepted a h)
  rw [List.map_append] at hperm
  exact hperm.of_append_left

theorem Accounted.concat {steps : List (Step C I)} (h : Accounted steps q) (a : Action C) :
    Accounted (steps ++ [q.step a]) (q.act a).2 := by
  have hstep : ((q.act a).2.pool : Multiset C) + ((q.step a).passed + (q.step a).failed +
      (q.step a).rejected) = q.pool + (q.step a).accepted := by
    simp only [Multiset.coe_add]
    exact Multiset.coe_eq_coe.2 (conserves_step a h.distinct)
  refine ⟨?_, nodup_act a h.distinct⟩
  simp only [listed_concat]
  calc listed Step.accepted steps + (q.step a).accepted
      = q.pool + (q.step a).accepted + listed Step.passed steps + listed Step.failed steps +
          listed Step.rejected steps := by rw [h.conserved]; abel
    _ = _ := by rw [← hstep]; abel

theorem accounted_run (as : List (Action C)) :
    Accounted (run .empty as) (afterRun (.empty : Queue C I) as) :=
  run_induction accounted_empty (fun _ _ a h => h.concat a) as

/-- After every run from the empty queue, the changes taken in so far are those in the lane, those
that wait, and those that were passed, failed and turned away, counted with repetition. The
identities of the live changes are distinct. -/
theorem run_conserves_changes (as : List (Action C)) :
    listed Step.accepted (run (.empty : Queue C I) as) =
        (afterRun (.empty : Queue C I) as).lane.changes +
        (afterRun (.empty : Queue C I) as).awaiting +
        listed Step.passed (run (.empty : Queue C I) as) +
        listed Step.failed (run (.empty : Queue C I) as) +
        listed Step.rejected (run (.empty : Queue C I) as) ∧
      (((afterRun (.empty : Queue C I) as).lane.changes ++
        (afterRun (.empty : Queue C I) as).awaiting).map ident).Nodup := by
  have h := accounted_run (I := I) as
  constructor
  · rw [h.conserved, Multiset.coe_add]
    rfl
  · exact h.distinct

end MergeQueue.Queue
