import MergeQueue.Proofs.Lane.UnderTest
import MergeQueue.Proofs.Requirement.Closure
import MergeQueue.Queue.Run

/-!
# What an action on a queue does, case by case

One equation for each case of a submission and of a report, with what decides it. Turning away a
change on a cycle and failing a change take its dependants out of the queue in the same way. A
queue that is reopened settles the changes that were waiting on a lane with the same changes.
-/
namespace MergeQueue.Queue

open Lane

variable {C I : Type}

def without (p : C → Bool) (q : Queue C I) : Queue C I :=
  ⟨(q.lane.withdraw p).2, q.waiting.filter fun w => !p w.change⟩

@[simp] theorem changes_without (p : C → Bool) (q : Queue C I) :
    (q.without p).lane.changes = q.lane.changes.filter fun c => !p c := changes_withdraw p q.lane

theorem mem_waiting_without {p : C → Bool} {q : Queue C I} {w : Waiting C I} :
    w ∈ (q.without p).waiting ↔ w ∈ q.waiting ∧ p w.change = false := by
  simp [without]

theorem mem_pool_of_waiting {q : Queue C I} {w : Waiting C I} (h : w ∈ q.waiting) :
    w.change ∈ q.pool := List.mem_append_right _ (List.mem_map_of_mem h)

@[simp] theorem awaiting_without (p : C → Bool) (q : Queue C I) :
    (q.without p).awaiting = q.awaiting.filter fun c => !p c := by
  rw [awaiting, awaiting, List.filter_map]
  rfl

@[simp] theorem pool_without (p : C → Bool) (q : Queue C I) :
    (q.without p).pool = q.pool.filter fun c => !p c := by
  rw [pool, pool, changes_without, awaiting_without, List.filter_append]

theorem without_of_none {p : C → Bool} {q : Queue C I} (h : ∀ c ∈ q.pool, p c = false) :
    q.without p = q := by
  have hlane : (q.lane.withdraw p).2 = q.lane := by
    rw [withdraw_of_none fun c hc => h c (List.mem_append_left _ hc)]
  have hwaiting : (q.waiting.filter fun w => !p w.change) = q.waiting := by
    apply List.filter_eq_self.2
    intro w hw
    rw [h w.change (List.mem_append_right _ (List.mem_map_of_mem hw))]
    rfl
  rw [without, hlane, hwaiting]

@[simp] theorem awaiting_displace (p : C → Bool) (q : Queue C I) :
    (q.displace p).2.awaiting = q.awaiting.filter fun c => !p c := by
  change (q.waiting.filter fun w => !p w.change).map Waiting.change = _
  rw [awaiting, List.filter_map]
  rfl

theorem perm_displace (p : C → Bool) (q : Queue C I) :
    ((q.displace p).2.pool ++ (q.displace p).1).Perm q.pool := by
  rw [pool, awaiting_displace, List.append_assoc]
  apply List.Perm.append_left
  exact List.perm_append_comm.trans (List.filter_append_perm p q.awaiting)

section AfterFailure

variable {q : Queue C I} {key : TestKey} {c : C} {bs : List (List C)}

/-- The queue that is left when the only change of its head has failed. -/
def afterFailure (bs : List (List C)) (q : Queue C I) : Queue C I :=
  { q with lane := ⟨[bs.flatten], none, q.lane.nextKey⟩ }

@[simp] theorem changes_afterFailure : (q.afterFailure bs).lane.changes = bs.flatten :=
  List.flatten_singleton

theorem pool_of_single (hb : q.lane.batches = [c] :: bs) :
    q.pool = c :: (q.afterFailure bs).pool := by
  rw [pool, pool, changes_afterFailure, changes, hb]
  rfl

theorem lane_report_of_single (hk : q.lane.outstanding = some key)
    (hb : q.lane.batches = [c] :: bs) :
    q.lane.report .fail key = (⟨[], [c]⟩, (q.afterFailure bs).lane) := by
  rw [report_of_eq hk]
  exact failHead_single hb

end AfterFailure

variable [DecidableEq I] [Change C I]

/-- The identities that would require `c` if it were in the queue. -/
def dependantsOf (c : C) (q : Queue C I) : List I :=
  (RequiredBy.ofPool (q.pool ++ [c])).closure (ident c)

/-- The live changes that would require `c` if it were in the queue. -/
def dependsOn (c : C) (q : Queue C I) : C → Bool := fun d => ident d ∈ q.dependantsOf c

theorem mem_dependantsOf {q : Queue C I} {c : C} {i : I} :
    i ∈ q.dependantsOf c ↔ Requires (q.pool ++ [c]) i (ident c) := RequiredBy.mem_closure_ofPool

theorem dependsOn_eq_true_iff {q : Queue C I} {c d : C} :
    q.dependsOn c d = true ↔ Requires (q.pool ++ [c]) (ident d) (ident c) :=
  decide_eq_true_iff.trans mem_dependantsOf

section Submit

variable [DecidableEq C]

theorem submit_of_holds {c : C} {q : Queue C I} (h : ident c ∈ q.pool.map ident) :
    q.submit c = (.none, q) := if_pos (holds_iff.2 h)

theorem submit_of_cycle {c : C} {q : Queue C I} (h : ident c ∉ q.pool.map ident)
    (hc : ident c ∈ q.dependantsOf c) :
    q.submit c = (⟨[], c :: q.pool.filter (q.dependsOn c)⟩, q.without (q.dependsOn c)) := by
  unfold submit
  rw [if_neg (mt holds_iff.1 h)]
  refine (if_pos hc).trans ?_
  rw [pool, List.filter_append, ← fst_withdraw]
  rfl

theorem submit_of_not_cycle {c : C} {q : Queue C I} (h : ident c ∉ q.pool.map ident)
    (hc : ident c ∉ q.dependantsOf c) :
    q.submit c =
      (⟨((q.displace (q.dependsOn c)).2.settle (c :: (q.displace (q.dependsOn c)).1)).1, []⟩,
        ((q.displace (q.dependsOn c)).2.settle (c :: (q.displace (q.dependsOn c)).1)).2) := by
  unfold submit
  rw [if_neg (mt holds_iff.1 h)]
  exact if_neg hc

/-- A submission finds the identity live, closes a cycle, or is settled. -/
theorem submit_cases (c : C) (q : Queue C I) :
    ident c ∈ q.pool.map ident ∧ q.submit c = (.none, q) ∨
      ident c ∉ q.pool.map ident ∧ ident c ∈ q.dependantsOf c ∧
        q.submit c = (⟨[], c :: q.pool.filter (q.dependsOn c)⟩, q.without (q.dependsOn c)) ∨
      ident c ∉ q.pool.map ident ∧ ident c ∉ q.dependantsOf c ∧
        q.submit c =
          (⟨((q.displace (q.dependsOn c)).2.settle (c :: (q.displace (q.dependsOn c)).1)).1, []⟩,
            ((q.displace (q.dependsOn c)).2.settle (c :: (q.displace (q.dependsOn c)).1)).2) := by
  by_cases hlive : ident c ∈ q.pool.map ident
  · exact .inl ⟨hlive, submit_of_holds hlive⟩
  by_cases hcycle : ident c ∈ q.dependantsOf c
  · exact .inr (.inl ⟨hlive, hcycle, submit_of_cycle hlive hcycle⟩)
  · exact .inr (.inr ⟨hlive, hcycle, submit_of_not_cycle hlive hcycle⟩)

end Submit

section Report

def requiring (c : C) (q : Queue C I) : C → Bool :=
  fun d => ident d ∈ (RequiredBy.ofPool q.pool).closure (ident c)

theorem requiring_eq_true_iff {q : Queue C I} {c d : C} :
    q.requiring c d = true ↔ Requires q.pool (ident d) (ident c) :=
  decide_eq_true_iff.trans RequiredBy.mem_closure_ofPool

/-- With a failed change all that requires it leaves. -/
theorem failDependants_singleton (c : C) (q : Queue C I) :
    q.failDependants [c] = (c :: q.pool.filter (q.requiring c), q.without (q.requiring c)) := by
  have hdoomed : [c].flatMap (fun d => (RequiredBy.ofPool q.pool).closure (ident d)) =
      (RequiredBy.ofPool q.pool).closure (ident c) := List.flatMap_singleton ..
  unfold failDependants
  simp only [hdoomed]
  by_cases hnil : (RequiredBy.ofPool q.pool).closure (ident c) = []
  · have hnone : ∀ d ∈ q.pool, q.requiring c d = false := by
      intro d _
      simp [requiring, hnil]
    have hfilter : q.pool.filter (q.requiring c) = [] := by
      rw [List.filter_eq_nil_iff]
      intro d hd
      simp [hnone d hd]
    rw [if_pos (List.isEmpty_iff.2 hnil), without_of_none hnone, hfilter]
  · refine (if_neg (mt List.isEmpty_iff.1 hnil)).trans ?_
    rw [pool, List.filter_append, ← fst_withdraw]
    rfl

variable {verdict : Verdict} {key : TestKey} {q : Queue C I} {c : C} {bs : List (List C)}

theorem report_of_nil (h : (q.lane.report verdict key).1.failed = []) :
    q.report verdict key =
      ((q.lane.report verdict key).1, { q with lane := (q.lane.report verdict key).2 }) :=
  if_pos (List.isEmpty_iff.2 h)

/-- A change that is isolated fails, and all that requires it with it. -/
theorem report_of_single (hk : q.lane.outstanding = some key)
    (hb : q.lane.batches = [c] :: bs) :
    q.report .fail key =
      (⟨[], c :: (q.afterFailure bs).pool.filter ((q.afterFailure bs).requiring c)⟩,
        (q.afterFailure bs).without ((q.afterFailure bs).requiring c)) := by
  have hreport : q.report .fail key = (⟨[], ((q.afterFailure bs).failDependants [c]).1⟩,
      ((q.afterFailure bs).failDependants [c]).2) := by
    rw [report, lane_report_of_single hk hb]
    rfl
  rw [hreport, failDependants_singleton]

/-- A report fails nothing, or isolates a change under the outstanding key. -/
theorem report_cases (verdict : Verdict) (key : TestKey) (q : Queue C I) :
    (q.lane.report verdict key).1.failed = [] ∧
        q.report verdict key =
          ((q.lane.report verdict key).1, { q with lane := (q.lane.report verdict key).2 }) ∨
      verdict = .fail ∧ q.lane.outstanding = some key ∧ ∃ c bs, q.lane.batches = [c] :: bs ∧
        q.report verdict key =
          (⟨[], c :: (q.afterFailure bs).pool.filter ((q.afterFailure bs).requiring c)⟩,
            (q.afterFailure bs).without ((q.afterFailure bs).requiring c)) := by
  rcases failed_report_cases verdict key q.lane with hnil | ⟨rfl, hk, c, bs, hb⟩
  · exact .inl ⟨hnil, report_of_nil hnil⟩
  · exact .inr ⟨rfl, hk, c, bs, hb, report_of_single hk hb⟩

/-- A report only takes changes away, from the lane and from those that wait. -/
theorem sublist_report (verdict : Verdict) (key : TestKey) (q : Queue C I) :
    (q.report verdict key).2.lane.changes.Sublist q.lane.changes ∧
      (q.report verdict key).2.awaiting.Sublist q.awaiting := by
  rcases report_cases verdict key q with ⟨-, hreport⟩ | ⟨-, -, c, bs, hb, hreport⟩
  · rw [hreport, ← changes_report verdict key q.lane]
    exact ⟨List.sublist_append_right _ _, .refl _⟩
  · rw [hreport, changes_without, awaiting_without, changes_afterFailure, changes, hb]
    exact ⟨List.filter_sublist.trans (List.sublist_cons_self c _), List.filter_sublist⟩

end Report

section Reopen

variable [DecidableEq C]

/-- A queue made of a lane settles the waiting changes on it, which all have new identities. -/
theorem ofLane_eq_ok {lane : Lane C} {awaiting : List C} {q : Queue C I}
    (h : ofLane lane awaiting = .ok q) :
    ((lane.changes ++ awaiting).map ident).Nodup ∧ q = (settle awaiting ⟨lane, []⟩).2 := by
  unfold ofLane at h
  cases hrep : firstRepeat ((lane.changes ++ awaiting).map ident) with
  | some i =>
    rw [hrep] at h
    cases h
  | none =>
    rw [hrep] at h
    cases h
    exact ⟨firstRepeat_eq_none_iff.1 hrep, rfl⟩

theorem restore_eq_ok {batches : List (List C)} {outstanding : Option TestKey} {nextKey : UInt64}
    {awaiting : List C} {q : Queue C I} (h : restore batches outstanding nextKey awaiting = .ok q) :
    ∃ lane : Lane C, Lane.restore batches outstanding nextKey =
        (.ok lane : Except (Inconsistency C I) (Lane C)) ∧
      ((lane.changes ++ awaiting).map ident).Nodup ∧ q = (settle awaiting ⟨lane, []⟩).2 := by
  unfold restore at h
  cases hlane : (Lane.restore batches outstanding nextKey :
      Except (Inconsistency C I) (Lane C)) with
  | error f => simp [hlane] at h
  | ok lane =>
    rw [hlane] at h
    exact ⟨lane, rfl, ofLane_eq_ok h⟩

theorem reopen_eq_ok {q q' : Queue C I} (h : q.reopen = .ok q') :
    ∃ lane : Lane C, Lane.restore q.lane.batches q.lane.outstanding q.lane.nextKey =
        (.ok lane : Except (Inconsistency C I) (Lane C)) ∧
      ((lane.changes ++ q.awaiting).map ident).Nodup ∧ q' = (settle q.awaiting ⟨lane, []⟩).2 :=
  restore_eq_ok h

theorem act_reopen_cases (q : Queue C I) :
    (q.act .reopen).2 = q ∨ ∃ q', q.reopen = .ok q' ∧ (q.act .reopen).2 = q' := by
  change q.reopen.toOption.getD q = q ∨ ∃ q', q.reopen = .ok q' ∧ q.reopen.toOption.getD q = q'
  cases q.reopen with
  | error f => exact .inl rfl
  | ok q' => exact .inr ⟨q', rfl, rfl⟩

theorem ofLane_of_nodup {lane : Lane C} {awaiting : List C}
    (h : ((lane.changes ++ awaiting).map ident).Nodup) :
    ofLane lane awaiting = .ok (settle awaiting ⟨lane, []⟩).2 := by
  unfold ofLane
  rw [firstRepeat_eq_none_iff.2 h]

/-- Once the lane is made, only the identities matter. -/
theorem restore_of_lane {batches : List (List C)} {outstanding : Option TestKey}
    {nextKey : UInt64} {lane : Lane C}
    (h : Lane.restore batches outstanding nextKey =
      (.ok lane : Except (Inconsistency C I) (Lane C))) (awaiting : List C) :
    restore batches outstanding nextKey awaiting = ofLane lane awaiting := by
  unfold restore
  rw [h]

/-- A well-formed lane and waiting changes with identities of their own can be reopened. -/
theorem reopen_of_wellFormed {q : Queue C I} (h : q.lane.WellFormed)
    (hnd : (q.pool.map ident).Nodup) : q.reopen = .ok (settle q.awaiting ⟨q.lane, []⟩).2 :=
  (restore_of_lane h.restore_eq q.awaiting).trans (ofLane_of_nodup hnd)

end Reopen

end MergeQueue.Queue
