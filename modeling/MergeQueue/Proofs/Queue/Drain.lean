import MergeQueue.Change
import MergeQueue.Proofs.Queue.Keys
import MergeQueue.Proofs.Queue.Layered

/-!
# Draining fails the bad changes and all that requires them

In a queue where no identity came back, a change cannot pass ahead of a bad one that it requires.
What an isolated failure takes along is found among the changes that are left, and it is the same as
among all that were live at the start: the chains of requirements that matter lose none of their
changes before that.
-/
namespace MergeQueue.Queue

open Lane
open scoped List

variable {C I : Type} {bad : C → Bool} {q q' : Queue C I}

section Filter

variable {α : Type} {p : α → Bool} {r : α → Prop} [DecidablePred r] (himp : ∀ a, p a = true → r a)
  (as : List α)
include himp

theorem perm_filter_of_imp :
    (as.filter (r ·)).Perm (as.filter p ++ (as.filter fun a => !p a).filter (r ·)) := by
  have hp : (as.filter (r ·)).filter p = as.filter p := by
    rw [List.filter_filter]
    apply List.filter_congr
    intro a _
    cases hpa : p a with
    | false => rfl
    | true => simpa using himp a hpa
  have hsplit := List.filter_append_perm p (as.filter (r ·))
  rw [hp, List.filter_comm] at hsplit
  exact hsplit.symm

theorem filter_not_filter_not :
    ((as.filter fun a => !p a).filter fun a => ¬r a) = as.filter fun a => ¬r a := by
  rw [List.filter_filter]
  apply List.filter_congr
  intro a _
  cases hpa : p a with
  | false => simp
  | true => simp [himp a hpa]

end Filter

theorem dispatch_of_isEmpty (h : q.lane.changes = []) : q.dispatch = (none, q) := by
  rw [dispatch, Lane.dispatch_of_isEmpty h]

theorem dispatch_idle (q : Queue C I) (h : q.dispatch.1 = none) : q.dispatch.2 = q := by
  change { q with lane := q.lane.dispatch.2 } = q
  rw [Lane.dispatch_idle q.lane h]

variable [Change C I]

/-- A bad change of the lane, or a change that requires one through live changes. -/
def Doomed (bad : C → Bool) (q : Queue C I) (d : C) : Prop :=
  ∃ c ∈ q.lane.changes, bad c = true ∧ (d = c ∨ Requires q.pool (ident d) (ident c))

theorem doomed_congr (hlane : q'.lane.changes = q.lane.changes) (hwait : q'.awaiting = q.awaiting) :
    q'.Doomed bad = q.Doomed bad := by
  have hpool : q'.pool = q.pool := by rw [pool, pool, hlane, hwait]
  funext d
  rw [Doomed, Doomed, hlane, hpool]

theorem Doomed.mono {d : C} (h : q'.Doomed bad d) (hlane : q'.lane.changes ⊆ q.lane.changes)
    (hpool : q'.pool ⊆ q.pool) : q.Doomed bad d := by
  obtain ⟨c, hc, hbad, hd⟩ := h
  exact ⟨c, hlane hc, hbad, hd.imp_right fun hreq => hreq.mono hpool⟩

section Pass

variable {b : List C} {bs : List (List C)} (h : q.Layered) (hb : q.lane.batches = b :: bs)
  (hgood : b.any bad = false)
include h hb hgood

theorem Layered.not_doomed {d : C} (hd : d ∈ b) : ¬q.Doomed bad d := by
  rw [List.any_eq_false] at hgood
  rintro ⟨c, hc, hbad, rfl | hreq⟩
  · exact hgood d hd hbad
  · obtain ⟨front, back, rfl⟩ := List.append_of_mem hd
    have hlane := changes_of_batches hb
    rw [List.append_assoc] at hlane
    have hfront := h.mem_front hlane (q.changes_subset_pool hc) hreq
    exact hgood c (List.mem_append_left _ hfront) hbad

/-- The chains that lead to a bad change do not run through a batch that passes. -/
theorem Layered.doomed_afterPass {d : C} : (q.afterPass bs).Doomed bad d ↔ q.Doomed bad d := by
  have hchanges : q.lane.changes = b ++ (q.afterPass bs).lane.changes := changes_of_batches hb
  have hpool := pool_of_head hb
  constructor
  · intro hd
    apply hd.mono
    · exact hchanges ▸ List.subset_append_right _ _
    · exact hpool ▸ List.subset_append_right _ _
  · rintro ⟨c, hc, hbad, hd⟩
    have hrest : c ∈ (q.afterPass bs).lane.changes := by
      rw [hchanges] at hc
      refine (List.mem_append.1 hc).resolve_left fun hcb => ?_
      exact List.any_eq_false.1 hgood c hcb hbad
    refine ⟨c, hrest, hbad, hd.imp_right fun hreq => hreq.restrict fun e he _ hec => ?_⟩
    rw [hpool] at he
    exact (List.mem_append.1 he).resolve_left fun heb =>
      h.not_doomed hb hgood heb ⟨c, hc, hbad, .inr hec⟩

end Pass

variable [DecidableEq I]

/-- Nobody on a chain to a bad change leaves, if the start of the chain stays. -/
theorem Layered.doomed_afterIsolation {c d : C} {bs : List (List C)} (h : q.Layered)
    (hb : q.lane.batches = [c] :: bs) (hd : d ∈ (q.afterIsolation c bs).pool) :
    (q.afterIsolation c bs).Doomed bad d ↔ q.Doomed bad d := by
  obtain ⟨hdpool, hdne, hdfree⟩ := (h.mem_pool_afterIsolation hb).1 hd
  constructor
  · intro hdoomed
    exact hdoomed.mono (changes_afterIsolation_sublist hb).subset
      (pool_afterIsolation_sublist hb).subset
  · rintro ⟨e, he, hbad, hde⟩
    have hefree : e ≠ c ∧ ¬Requires q.pool (ident e) (ident c) := by
      rcases hde with rfl | hde
      · exact ⟨hdne, hdfree⟩
      · exact ⟨fun hec => hdfree (hec ▸ hde), fun hreq => hdfree (hde.trans hreq)⟩
    refine ⟨e, (h.mem_changes_afterIsolation hb).2 ⟨he, hefree⟩, hbad, hde.imp_right fun hreq => ?_⟩
    apply hreq.restrict
    intro f hf hreach _
    refine (h.mem_pool_afterIsolation hb).2
      ⟨hf, ?_, fun hfree => hdfree (.trans_right hreach hfree)⟩
    rintro rfl
    rcases Relation.reflTransGen_iff_eq_or_transGen.1 hreach with heq | hreq
    · exact hdne (h.eq_of_ident hdpool hf heq.symm)
    · exact hdfree hreq

variable [DecidableEq C]

instance (bad : C → Bool) (q : Queue C I) : DecidablePred (q.Doomed bad) := fun d =>
  decidable_of_iff (∃ c ∈ q.lane.changes,
      bad c = true ∧ (d = c ∨ ident d ∈ (RequiredBy.ofPool q.pool).closure (ident c))) <| by
    simp only [RequiredBy.mem_closure_ofPool, Doomed]

/-- What one test with the truthful verdict does to a queue. Who is doomed stays the same for those
that are left. -/
structure TruthfulTest (bad : C → Bool) (q : Queue C I) (verdict : Verdict) (o : Outcome C)
    (q' : Queue C I) : Prop where
  layered : q'.Layered
  doomed : ∀ d ∈ q'.pool, q'.Doomed bad d ↔ q.Doomed bad d
  passed : q.lane.changes.filter (fun d => ¬q.Doomed bad d) =
    o.passed ++ q'.lane.changes.filter fun d => ¬q.Doomed bad d
  failed : (q.pool.filter (q.Doomed bad ·)).Perm (o.failed ++ q'.pool.filter (q.Doomed bad ·))
  waiting : q'.waiting.filter (fun w => ¬q.Doomed bad w.change) =
    q.waiting.filter fun w => ¬q.Doomed bad w.change
  budget : (if verdict = .fail then 1 else 0) + failureBudget bad q'.lane.batches ≤
    failureBudget bad q.lane.batches
  smaller : q'.lane.size + failureBudget bad q'.lane.batches <
    q.lane.size + failureBudget bad q.lane.batches

section Cases

variable {key : TestKey} {b b' : List C} {bs : List (List C)} (h : q.Layered)
  (hk : q.lane.outstanding = some key)
include h hk

theorem truthfulTest_pass (hb : q.lane.batches = b :: b' :: bs) (hne : b ≠ [])
    (hgood : b.any bad = false) :
    TruthfulTest bad q .pass (q.report .pass key).1 (q.report .pass key).2 := by
  have hlane := Lane.truthfulTest_pass hb h.shape hne hgood
  have hreport : q.report .pass key = (⟨b, []⟩, q.afterPass (b' :: bs)) := by
    have hpass : q.lane.report .pass key = (⟨b, []⟩, ⟨b' :: bs, none, q.lane.nextKey⟩) := by
      rw [report_of_eq hk]
      exact passHead_cons hb
    rw [report_of_nil (by rw [hpass]), hpass]
    rfl
  have hfree : ∀ d ∈ b, ¬q.Doomed bad d := fun d hd => h.not_doomed hb hgood hd
  rw [passHead_cons hb] at hlane
  rw [hreport]
  constructor
  case layered => exact h.afterPass hb
  case doomed => exact fun d _ => h.doomed_afterPass hb hgood
  case passed =>
    rw [changes_of_batches hb, List.filter_append, List.filter_eq_self.2 (by simpa using hfree)]
    rfl
  case failed =>
    rw [pool_of_head hb, List.filter_append, List.filter_eq_nil_iff.2 (by simpa using hfree)]
  case waiting => rfl
  case budget => exact hlane.budget
  case smaller => exact hlane.smaller

theorem truthfulTest_halve (hb : q.lane.batches = b :: b' :: bs) (hbad : b.any bad = true)
    (hlen : 2 ≤ b.length) :
    TruthfulTest bad q .fail (q.report .fail key).1 (q.report .fail key).2 := by
  have hlane := Lane.truthfulTest_halve hb h.shape hbad hlen
  have hreport : q.report .fail key = (.none, { q with lane := q.lane.failHead.2 }) := by
    have hfail : q.lane.report .fail key = q.lane.failHead := report_of_eq hk
    have hnone : q.lane.failHead.1 = .none := by rw [failHead_halve hb hlen]
    rw [report_of_nil (by rw [hfail, hnone]; rfl), hfail, hnone]
  have hchanges : q.lane.failHead.2.changes = q.lane.changes := by
    have := changes_failHead q.lane
    rwa [failHead_halve hb hlen] at this ⊢
  have hpool : ({ q with lane := q.lane.failHead.2 } : Queue C I).pool = q.pool := by
    rw [pool, pool, hchanges]
    rfl
  rw [hreport]
  constructor
  case layered => exact h.congr hlane.shape hchanges rfl
  case doomed =>
    have hdoomed : ({ q with lane := q.lane.failHead.2 } : Queue C I).Doomed bad = q.Doomed bad :=
      doomed_congr hchanges rfl
    intro d _
    rw [hdoomed]
  case passed =>
    rw [hchanges]
    rfl
  case failed =>
    rw [hpool]
    exact .refl _
  case waiting => rfl
  case budget => exact hlane.budget
  case smaller => exact hlane.smaller

theorem truthfulTest_isolate {c : C} (hb : q.lane.batches = [c] :: bs) (hbad : bad c = true) :
    TruthfulTest bad q .fail (q.report .fail key).1 (q.report .fail key).2 := by
  have hlane : q.lane.changes = c :: bs.flatten := changes_of_batches hb
  have hpool := pool_of_single hb
  have hc : c ∈ q.lane.changes := hlane ▸ List.mem_cons_self
  have hdoomed : ∀ d, d = c ∨ (q.afterFailure bs).requiring c d = true → q.Doomed bad d := by
    intro d hd
    exact ⟨c, hc, hbad, hd.imp_right (h.requiring_iff hb).1⟩
  have hleave : ∀ d, (q.afterFailure bs).requiring c d = true → q.Doomed bad d :=
    fun d hd => hdoomed d (.inr hd)
  have hbudget : failureBudget bad (q.afterIsolation c bs).lane.batches + 1 ≤
      failureBudget bad q.lane.batches := by
    rw [batches_afterIsolation, hb]
    exact failureBudget_isolate hbad List.filter_sublist
  rw [report_of_single hk hb]
  change TruthfulTest bad q .fail _ (q.afterIsolation c bs)
  constructor
  case layered => exact h.afterIsolation hb
  case doomed => exact fun d hd => h.doomed_afterIsolation hb hd
  case passed =>
    rw [hlane, changes_afterIsolation,
      List.filter_cons_of_neg (by simpa using hdoomed c (.inl rfl))]
    exact (filter_not_filter_not hleave _).symm
  case failed =>
    rw [hpool, pool_afterIsolation, List.filter_cons_of_pos (by simpa using hdoomed c (.inl rfl))]
    exact (perm_filter_of_imp hleave _).cons c
  case waiting =>
    exact filter_not_filter_not (r := fun w : Waiting C I => q.Doomed bad w.change)
      (fun w hw => hleave w.change hw) _
  case budget =>
    rw [Nat.add_comm]
    exact hbudget
  case smaller =>
    have hsize := (changes_afterIsolation_sublist hb).length_le
    change (q.afterIsolation c bs).lane.size ≤ q.lane.size at hsize
    omega

/-- Whatever stands at the head, a test with the truthful verdict is one of these. -/
theorem truthfulTest_report (hb : q.lane.batches = b :: b' :: bs) (hne : b ≠ []) :
    TruthfulTest bad q (.ofBatch bad b) (q.report (.ofBatch bad b) key).1
      (q.report (.ofBatch bad b) key).2 := by
  cases hbad : b.any bad with
  | false =>
    rw [Verdict.ofBatch, if_neg (by simp [hbad])]
    exact truthfulTest_pass h hk hb hne hbad
  | true =>
    rw [Verdict.ofBatch, if_pos hbad]
    by_cases hlen : 2 ≤ b.length
    · exact truthfulTest_halve h hk hb hbad hlen
    · obtain ⟨c, rfl⟩ := eq_singleton_of_not_two_le hne hlen
      exact truthfulTest_isolate h hk hb (by simpa using hbad)

end Cases

structure Drained (bad : C → Bool) (q : Queue C I) (log : List (DrainEntry C)) (q' : Queue C I) :
    Prop where
  empty : q'.lane.changes = []
  passed : passedIn log = q.lane.changes.filter fun d => ¬q.Doomed bad d
  failed : (failedIn log).Perm (q.pool.filter (q.Doomed bad ·))
  waiting : q'.waiting = q.waiting.filter fun w => ¬q.Doomed bad w.change
  failures : failuresIn log ≤ failureBudget bad q.lane.batches

theorem drained_of_nil (h : q.lane.changes = []) : Drained bad q [] q := by
  have hfree : ∀ d, ¬q.Doomed bad d := by
    rintro d ⟨c, hc, -⟩
    rw [h] at hc
    exact List.not_mem_nil hc
  constructor
  case empty => exact h
  case passed => simp [h, passedIn]
  case failed => simp [hfree, failedIn]
  case waiting => simp [hfree]
  case failures => exact Nat.zero_le _

theorem Drained.cons {q₁ : Queue C I} {e : DrainEntry C} {log : List (DrainEntry C)}
    (htest : TruthfulTest bad q e.verdict e.outcome q₁) (h : Drained bad q₁ log q') :
    Drained bad q (e :: log) q' := by
  have hlane : ∀ d ∈ q₁.lane.changes, q₁.Doomed bad d ↔ q.Doomed bad d := fun d hd =>
    htest.doomed d (q₁.changes_subset_pool hd)
  have hwait : ∀ w ∈ q₁.waiting, q₁.Doomed bad w.change ↔ q.Doomed bad w.change := fun w hw =>
    htest.doomed w.change (List.mem_append_right _ (List.mem_map_of_mem hw))
  constructor
  case empty => exact h.empty
  case passed =>
    rw [passedIn_cons, h.passed, htest.passed, List.filter_congr]
    intro d hd
    simp only [hlane d hd]
  case failed =>
    rw [failedIn_cons]
    refine (h.failed.append_left _).trans (.trans (.of_eq ?_) htest.failed.symm)
    rw [List.filter_congr]
    intro d hd
    simp only [htest.doomed d hd]
  case waiting =>
    rw [h.waiting, ← htest.waiting, List.filter_congr]
    intro w hw
    simp only [hwait w hw]
  case failures =>
    have := htest.budget
    have := h.failures
    rw [failuresIn_cons]
    omega

theorem Drained.congr {q₁ : Queue C I} {log : List (DrainEntry C)} (h : Drained bad q₁ log q')
    (hchanges : q₁.lane.changes = q.lane.changes) (hwait : q₁.waiting = q.waiting)
    (hbudget : failureBudget bad q₁.lane.batches = failureBudget bad q.lane.batches) :
    Drained bad q log q' := by
  have hawait : q₁.awaiting = q.awaiting := congrArg (List.map Waiting.change) hwait
  have hpool : q₁.pool = q.pool := by rw [pool, pool, hchanges, hawait]
  have hdoomed : ∀ d, q₁.Doomed bad d ↔ q.Doomed bad d := fun d => by
    rw [doomed_congr hchanges hawait]
  constructor
  case empty => exact h.empty
  case passed => simpa only [hdoomed, hchanges] using h.passed
  case failed => simpa only [hdoomed, hpool] using h.failed
  case waiting => simpa only [hdoomed, hwait] using h.waiting
  case failures => exact hbudget ▸ h.failures

theorem Drained.nodup {log : List (DrainEntry C)} (h : Drained bad q log q') (hq : q.Layered) :
    (passedIn log ++ failedIn log).Nodup := by
  have hpool := hq.distinct.of_map ident
  rw [h.passed, List.nodup_append']
  refine ⟨hpool.of_append_left.filter _, h.failed.nodup_iff.2 (hpool.filter _), ?_⟩
  intro d hpassed hfailed
  have hfree := (List.mem_filter.1 hpassed).2
  have hdoomed := (List.mem_filter.1 (h.failed.subset hfailed)).2
  exact of_decide_eq_true hfree (of_decide_eq_true hdoomed)

/-- As many tests as there are changes and failing tests to come are enough. -/
theorem drained_drain {n : ℕ} (h : q.Layered)
    (hn : q.lane.size + failureBudget bad q.lane.batches ≤ n) :
    Drained bad q (q.drain bad n).1 (q.drain bad n).2 := by
  -- On the limit: a test takes one from it, and at least one from the changes and failures to come.
  induction n generalizing q with
  | zero =>
    have hsize : q.lane.changes.length = 0 := by
      change q.lane.size = 0
      omega
    exact drained_of_nil (List.length_eq_zero_iff.1 hsize)
  | succ n ih =>
    by_cases hd : q.lane.head = []
    · have hdisp : q.dispatch = (none, q) := by rw [dispatch, dispatch_of_nil hd]
      rw [drain, drainWith_of_none _ hdisp]
      exact drained_of_nil (OnlyLastEmpty.flatten_eq_nil h.shape hd)
    obtain ⟨key, l₁, b, b', bs, hdisp, hk, hb, hne, hshape₁, hchanges, hbudget⟩ :=
      dispatch_under_test bad h.shape hd
    have hdisp' : q.dispatch = (some ⟨key, b⟩, { q with lane := l₁ }) := by rw [dispatch, hdisp]
    have hlayered : ({ q with lane := l₁ } : Queue C I).Layered := h.congr hshape₁ hchanges rfl
    have htest : TruthfulTest bad _ _ _ _ := truthfulTest_report hlayered hk hb hne
    have hsmaller := htest.smaller
    have hsize : l₁.size = q.lane.size := congrArg List.length hchanges
    rw [hbudget, hsize] at hsmaller
    rw [drain, drainWith_of_some n hdisp' rfl]
    exact .congr (.cons htest (ih htest.layered (by omega))) hchanges rfl hbudget

/-- Draining a queue ends, after a run that submitted no identity twice: from some number of tests
on, the limit no longer matters and nothing is left to hand out. The bad changes of the lane fail
and, of all live changes, those that require one of them. Every other change of the lane passes, in
the order in which they stood, and every other waiting change still waits. No change is classified
twice. The failing tests are bounded by the number of bad changes times one more than the binary
logarithm of the number of changes in the lane, rounded up. -/
theorem drain_fails_dependants (bad : C → Bool) {as : List (Action C)}
    (mint : CanMintAll (run (.empty : Queue C I) as)) (once : ((submitted as).map ident).Nodup)
    (hq : afterRun .empty as = q) :
    ∃ log q',
      (∀ limit, q.lane.size + q.lane.changes.countP bad * (Nat.clog 2 q.lane.size + 1) ≤ limit →
        q.drain bad limit = (log, q')) ∧
      q'.lane.isEmpty ∧ q'.dispatch = (none, q') ∧
      passedIn log = q.lane.changes.filter (fun d => ¬q.Doomed bad d) ∧
      (failedIn log).Perm (q.pool.filter (q.Doomed bad ·)) ∧
      (passedIn log ++ failedIn log).Nodup ∧
      q'.waiting = q.waiting.filter (fun w => ¬q.Doomed bad w.change) ∧
      failuresIn log ≤ q.lane.changes.countP bad * (Nat.clog 2 q.lane.size + 1) := by
  have hlayered : q.Layered := hq ▸ layered_afterRun mint once
  have hbudget : failureBudget bad q.lane.batches ≤
      q.lane.changes.countP bad * (Nat.clog 2 q.lane.size + 1) := failureBudget_le q.lane.batches
  have hdrained : Drained bad q _ _ :=
    drained_drain hlayered (Nat.add_le_add_left hbudget q.lane.size)
  have hdone := dispatch_of_isEmpty hdrained.empty
  refine ⟨_, _, fun limit hlimit => ?_, List.isEmpty_iff.2 hdrained.empty, hdone, hdrained.passed,
    hdrained.failed, hdrained.nodup hlayered, hdrained.waiting, hdrained.failures.trans hbudget⟩
  exact drainWith_of_le hlimit hdone dispatch_idle

/-- Of five changes, `b` requires `a`, `w` waits for `x` and requires `b`, and `v` waits for `y`.
The batch of the three in the lane has failed once. -/
def chained : List (Action ChangeRecord) :=
  [.submit ⟨⟨"a"⟩, .empty⟩, .submit ⟨⟨"b"⟩, .ofList [⟨"a"⟩]⟩, .submit ⟨⟨"c"⟩, .empty⟩,
    .submit ⟨⟨"w"⟩, .ofList [⟨"b"⟩, ⟨"x"⟩]⟩, .submit ⟨⟨"v"⟩, .ofList [⟨"y"⟩]⟩, .dispatch,
    .report .fail ⟨0⟩]

theorem drain_chained :
    CanMintAll (run .empty chained) ∧ ((submitted chained).map ident).Nodup ∧
      ∃ log q',
        (∀ limit, 6 ≤ limit → (afterRun .empty chained).drain (·.id.text = "a") limit = (log, q')) ∧
        (passedIn log).map (·.id.text) = ["c"] ∧
        ((failedIn log).map (·.id.text)).Perm ["a", "b", "w"] ∧
        q'.waiting.map (·.change.id.text) = ["v"] ∧ failuresIn log ≤ 3 := by
  have mint : CanMintAll (run (.empty : Queue ChangeRecord ChangeId) chained) :=
    canMintAll_of_length (by decide)
  have once : ((submitted chained).map ident).Nodup := by decide
  have hsize : (afterRun (.empty : Queue ChangeRecord ChangeId) chained).lane.size = 3 := by
    decide +kernel
  have hcount : (afterRun (.empty : Queue ChangeRecord ChangeId) chained).lane.changes.countP
      (·.id.text = "a") = 1 := by decide +kernel
  have hlog : Nat.clog 2 3 = 2 := by decide
  obtain ⟨log, q', hend, -, -, hpassed, hfailed, -, hwaiting, hfailures⟩ :=
    drain_fails_dependants (·.id.text = "a") mint once rfl
  rw [hsize, hcount, hlog] at hend hfailures
  refine ⟨mint, once, log, q', hend, ?_, (hfailed.map _).trans (.of_eq ?_), ?_, hfailures⟩
  · rw [hpassed]
    decide +kernel
  · decide +kernel
  · rw [hwaiting]
    decide +kernel

end MergeQueue.Queue
