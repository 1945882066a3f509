import MergeQueue.Proofs.Lane.Drain
import MergeQueue.Proofs.Queue.KeyHistory
import MergeQueue.Proofs.Queue.Precedence
import MergeQueue.Proofs.Requirement.Subpool

/-!
# Queues where no identity came back

Where no identity is submitted again after it left, whatever a change in the lane requires stands in
front of it or is not live any more. A passing head keeps this, for it takes away what nothing in
front of it requires, and so does an isolated change that fails, for it takes along all that
requires it.
-/
namespace MergeQueue.Queue

open Lane
open scoped List

variable {C I : Type} {q q' : Queue C I}

theorem changes_subset_pool (q : Queue C I) : q.lane.changes ⊆ q.pool :=
  List.subset_append_left _ _

def afterPass (bs : List (List C)) (q : Queue C I) : Queue C I :=
  { q with lane := ⟨bs, none, q.lane.nextKey⟩ }

theorem pool_of_head {b : List C} {bs : List (List C)} (hb : q.lane.batches = b :: bs) :
    q.pool = b ++ (q.afterPass bs).pool := by
  rw [pool, changes_of_batches hb, List.append_assoc]
  rfl

variable [Change C I]

/-- Identities are distinct, and what a change of the lane requires stands in front of it or is not
live. -/
structure Layered (q : Queue C I) : Prop where
  shape : OnlyLastEmpty q.lane.batches
  distinct : (q.pool.map ident).Nodup
  ordered : InOrder (· ∉ q.pool.map ident) q.lane.changes

theorem Layered.eq_of_ident (h : q.Layered) {c d : C} (hc : c ∈ q.pool) (hd : d ∈ q.pool)
    (heq : ident c = ident d) : c = d := List.inj_on_of_nodup_map h.distinct hc hd heq

/-- A change of the lane requires nothing live but what stands in front of it. -/
theorem Layered.mem_front (h : q.Layered) {front back : List C} {c d : C}
    (hlane : q.lane.changes = front ++ c :: back) (hd : d ∈ q.pool)
    (hreq : Requires q.pool (ident c) (ident d)) : d ∈ front := by
  have hsub : front ++ c :: back ⊆ q.pool := hlane ▸ q.changes_subset_pool
  have hfront := (hreq.mem_front h.distinct hsub (hlane ▸ h.ordered)).resolve_left
    (not_not_intro (List.mem_map_of_mem hd))
  obtain ⟨e, he, hed⟩ := List.mem_map.1 hfront
  cases h.eq_of_ident (hsub (List.mem_append_left _ he)) hd hed
  exact he

theorem Layered.congr (h : q.Layered) (hshape : OnlyLastEmpty q'.lane.batches)
    (hlane : q'.lane.changes = q.lane.changes) (hwait : q'.awaiting = q.awaiting) : q'.Layered := by
  have hpool : q'.pool = q.pool := by rw [pool, pool, hlane, hwait]
  refine ⟨hshape, hpool ▸ h.distinct, ?_⟩
  rw [hlane, hpool]
  exact h.ordered

/-- The head requires nothing live. -/
theorem Layered.not_requires_of_single {c d : C} {bs : List (List C)} (h : q.Layered)
    (hb : q.lane.batches = [c] :: bs) (hd : d ∈ q.pool) :
    ¬Requires q.pool (ident c) (ident d) := by
  intro hreq
  have hlane : q.lane.changes = [] ++ c :: bs.flatten := changes_of_batches hb
  exact List.not_mem_nil (h.mem_front hlane hd hreq)

section Pass

variable {b : List C} {bs : List (List C)} (h : q.Layered) (hb : q.lane.batches = b :: bs)
include h hb

theorem Layered.afterPass : (q.afterPass bs).Layered := by
  have hdistinct := h.distinct
  have hordered := h.ordered
  rw [pool_of_head hb, List.map_append] at hdistinct
  rw [changes_of_batches hb, pool_of_head hb] at hordered
  refine ⟨(hb ▸ h.shape).tail, hdistinct.of_append_right, (inOrder_append.1 hordered).2.mono ?_⟩
  rintro i (hi | hi) hlive
  · exact hi (by rw [List.map_append]; exact List.mem_append_right _ hlive)
  · exact (List.nodup_append'.1 hdistinct).2.2 hi hlive

end Pass

variable [DecidableEq I]

section Isolate

variable {c : C} {bs : List (List C)}

/-- The queue that is left when an isolated change has failed and taken its dependants along. -/
def afterIsolation (c : C) (bs : List (List C)) (q : Queue C I) : Queue C I :=
  (q.afterFailure bs).without ((q.afterFailure bs).requiring c)

@[simp] theorem batches_afterIsolation :
    (q.afterIsolation c bs).lane.batches =
      [bs.flatten.filter fun d => !(q.afterFailure bs).requiring c d] :=
  batches_withdraw_singleton _ rfl

@[simp] theorem changes_afterIsolation :
    (q.afterIsolation c bs).lane.changes =
      bs.flatten.filter fun d => !(q.afterFailure bs).requiring c d := by
  rw [afterIsolation, changes_without, changes_afterFailure]

@[simp] theorem pool_afterIsolation :
    (q.afterIsolation c bs).pool =
      (q.afterFailure bs).pool.filter fun d => !(q.afterFailure bs).requiring c d :=
  pool_without _ _

theorem changes_afterIsolation_sublist (hb : q.lane.batches = [c] :: bs) :
    (q.afterIsolation c bs).lane.changes.Sublist q.lane.changes := by
  rw [changes_of_batches hb, changes_afterIsolation]
  exact List.filter_sublist.trans (List.sublist_cons_self _ _)

theorem pool_afterIsolation_sublist (hb : q.lane.batches = [c] :: bs) :
    (q.afterIsolation c bs).pool.Sublist q.pool := by
  rw [pool_of_single hb, pool_afterIsolation]
  exact List.filter_sublist.trans (List.sublist_cons_self _ _)

theorem requiring_afterFailure_iff (hb : q.lane.batches = [c] :: bs) {d : C}
    (hd : ident d ≠ ident c) :
    (q.afterFailure bs).requiring c d = true ↔ Requires q.pool (ident d) (ident c) := by
  rw [requiring_eq_true_iff, pool_of_single hb]
  exact ⟨fun hreq => hreq.mono (List.subset_cons_self _ _), fun hreq => hreq.of_cons hd⟩

variable (h : q.Layered) (hb : q.lane.batches = [c] :: bs)
include h hb

theorem Layered.requiring_iff {d : C} :
    (q.afterFailure bs).requiring c d = true ↔ Requires q.pool (ident d) (ident c) := by
  by_cases hd : ident d = ident c
  · -- The isolated change requires nothing live, and so not itself.
    have hfree : ¬Requires q.pool (ident c) (ident c) :=
      h.not_requires_of_single hb (pool_of_single hb ▸ List.mem_cons_self)
    rw [requiring_eq_true_iff, hd]
    refine iff_of_false (fun hreq => hfree ?_) hfree
    exact hreq.mono (pool_of_single hb ▸ List.subset_cons_self _ _)
  · exact requiring_afterFailure_iff hb hd

/-- A change stays exactly if it is not the isolated one and does not require it. -/
theorem Layered.mem_filter_requiring {cs : List C} (hnd : (c :: cs).Nodup) {d : C} :
    d ∈ cs.filter (fun d => !(q.afterFailure bs).requiring c d) ↔
      d ∈ c :: cs ∧ d ≠ c ∧ ¬Requires q.pool (ident d) (ident c) := by
  rw [List.nodup_cons] at hnd
  rw [List.mem_filter, Bool.not_eq_true', ← Bool.not_eq_true, h.requiring_iff hb, List.mem_cons]
  constructor
  · rintro ⟨hd, hfree⟩
    exact ⟨.inr hd, fun hdc => hnd.1 (hdc ▸ hd), hfree⟩
  · rintro ⟨hd, hne, hfree⟩
    exact ⟨hd.resolve_left hne, hfree⟩

theorem Layered.mem_pool_afterIsolation {d : C} :
    d ∈ (q.afterIsolation c bs).pool ↔
      d ∈ q.pool ∧ d ≠ c ∧ ¬Requires q.pool (ident d) (ident c) := by
  have hnd := h.distinct.of_map ident
  rw [pool_of_single hb] at hnd
  rw [pool_afterIsolation, h.mem_filter_requiring hb hnd, ← pool_of_single hb]

theorem Layered.mem_changes_afterIsolation {d : C} :
    d ∈ (q.afterIsolation c bs).lane.changes ↔
      d ∈ q.lane.changes ∧ d ≠ c ∧ ¬Requires q.pool (ident d) (ident c) := by
  have hlane : q.lane.changes = c :: bs.flatten := changes_of_batches hb
  have hnd : q.lane.changes.Nodup := (h.distinct.of_map ident).of_append_left
  rw [hlane] at hnd
  rw [changes_afterIsolation, h.mem_filter_requiring hb hnd, ← hlane]

theorem Layered.afterIsolation : (q.afterIsolation c bs).Layered := by
  have hsub := pool_afterIsolation_sublist hb
  have hrest : InOrder (fun i => i ∉ q.pool.map ident ∨ i = ident c)
      (q.afterFailure bs).lane.changes := by
    have hordered := h.ordered
    rw [changes_of_batches hb] at hordered
    rw [changes_afterFailure]
    exact hordered.2
  constructor
  case shape =>
    rw [batches_afterIsolation]
    exact .singleton _
  case distinct => exact h.distinct.sublist (hsub.map ident)
  case ordered =>
    apply (inOrder_withoutRequiring hrest).mono
    intro i hi hlive
    exact hi ((hsub.map ident).subset hlive)

end Isolate

section Run

variable [DecidableEq C] {as : List (Action C)}

theorem accepted_sublist (q : Queue C I) (a : Action C) :
    (q.step a).accepted.Sublist (submitted [a]) := by
  cases a with
  | submit c =>
    by_cases hlive : ident c ∈ q.pool.map ident
    · rw [accepted_of_holds hlive]
      exact List.nil_sublist _
    · rw [accepted_of_not_holds hlive]
      exact .refl _
  | dispatch | report | reopen => exact .slnil

theorem accepted_run_sublist (q : Queue C I) (as : List (Action C)) :
    ((run q as).flatMap Step.accepted).Sublist (submitted as) := by
  induction as generalizing q with
  | nil => exact .slnil
  | cons a as ih =>
    rw [submitted, ← List.singleton_append, List.filterMap_append]
    exact (accepted_sublist q a).append (ih (q.act a).2)

/-- What has passed is not live, unless its identity was submitted again. -/
theorem not_mem_of_mem_passedIdents (once : ((submitted as).map ident).Nodup) {i : I}
    (hi : i ∈ passedIdents (run (.empty : Queue C I) as)) :
    i ∉ (afterRun (.empty : Queue C I) as).pool.map ident := by
  have hnd := once.sublist ((accepted_run_sublist (.empty : Queue C I) as).map ident)
  have hconserved := (accounted_run (I := I) as).conserved
  simp only [listed, Multiset.coe_add] at hconserved
  have hperm := (Multiset.coe_eq_coe.1 hconserved).map ident
  simp only [List.map_append] at hperm
  have hsplit := ((hperm.nodup_iff.1 hnd).of_append_left).of_append_left
  exact fun hlive => (List.nodup_append'.1 hsplit).2.2 hlive hi

/-- A run that submits no identity twice and does not exhaust the counter. -/
theorem layered_afterRun (mint : CanMintAll (run (.empty : Queue C I) as))
    (once : ((submitted as).map ident).Nodup) : (afterRun (.empty : Queue C I) as).Layered where
  shape := (keyHistory_run as mint).wellFormed.only_last_empty
  distinct := (accounted_run as).distinct
  ordered := (inOrder_afterRun as).mono fun _ hi => not_mem_of_mem_passedIdents once hi

end Run

end MergeQueue.Queue
