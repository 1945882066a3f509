import MergeQueue.Proofs.Drain
import MergeQueue.Proofs.Lane.WellFormed

/-!
# Draining isolates exactly the bad changes

A drain with truthful verdicts ends with an empty lane. It passes the changes that are not bad and
fails those that are, both in the order in which they stood, and each bad change costs at most
`Nat.clog 2` of the number of changes and one more failing tests. Every test makes the number of
changes and the budget for failing tests together smaller, so their sum bounds the number of tests.
-/
namespace MergeQueue.Lane

variable {C : Type} {bad : C → Bool}

/-- What one test with the truthful verdict does to a lane. -/
structure TruthfulTest (bad : C → Bool) (l : Lane C) (verdict : Verdict) (o : Outcome C)
    (l' : Lane C) : Prop where
  shape : OnlyLastEmpty l'.batches
  passed : l.changes.filter (fun c => !bad c) = o.passed ++ l'.changes.filter fun c => !bad c
  failed : l.changes.filter bad = o.failed ++ l'.changes.filter bad
  budget : (if verdict = .fail then 1 else 0) + failureBudget bad l'.batches ≤
    failureBudget bad l.batches
  smaller : l'.size + failureBudget bad l'.batches < l.size + failureBudget bad l.batches

variable {l : Lane C} {b b' : List C} {bs : List (List C)}

theorem changes_of_batches (h : l.batches = b :: bs) : l.changes = b ++ bs.flatten := by
  rw [changes, h, List.flatten_cons]

theorem truthfulTest_pass (h : l.batches = b :: b' :: bs) (hshape : OnlyLastEmpty l.batches)
    (hne : b ≠ []) (hgood : b.any bad = false) :
    TruthfulTest bad l .pass l.passHead.1 l.passHead.2 := by
  have hnone : b.filter bad = [] := filter_of_not_any (by simp [hgood])
  have hall : b.filter (fun c => !bad c) = b := by
    apply List.filter_eq_self.2
    intro c hc
    rw [List.any_eq_false] at hgood
    simpa using hgood c hc
  have hbudget := failureBudget_pass (b' :: bs) hgood
  have hlen := List.length_pos_iff.2 hne
  have hl := changes_of_batches h
  rw [passHead_cons h]
  constructor
  case shape => exact (h ▸ hshape).tail
  case passed =>
    rw [hl, List.filter_append, hall]
    rfl
  case failed =>
    rw [hl, List.filter_append, hnone]
    rfl
  case budget =>
    rw [h]
    simpa using hbudget
  case smaller =>
    simp only [size, hl, h, List.length_append]
    change (b' :: bs).flatten.length + _ < _
    omega

theorem truthfulTest_halve (h : l.batches = b :: b' :: bs) (hshape : OnlyLastEmpty l.batches)
    (hbad : b.any bad = true) (hlen : 2 ≤ b.length) :
    TruthfulTest bad l .fail l.failHead.1 l.failHead.2 := by
  have hbudget := failureBudget_halve (b' :: bs) hbad hlen
  obtain ⟨hfront, hback⟩ := halves_ne_nil hlen
  have hsame : l.failHead.2.changes = l.changes := by
    have := changes_failHead l
    rwa [failHead_halve h hlen] at this ⊢
  have hsize : l.failHead.2.size = l.size := congrArg List.length hsame
  rw [failHead_halve h hlen] at hsame hsize ⊢
  constructor
  case shape => exact .cons hfront (.cons hback (h ▸ hshape).tail)
  case passed =>
    rw [hsame]
    rfl
  case failed =>
    rw [hsame]
    rfl
  case budget =>
    rw [h, Nat.add_comm]
    exact hbudget
  case smaller =>
    rw [hsize, h]
    change l.size +
      failureBudget bad (b.take (b.length / 2) :: b.drop (b.length / 2) :: b' :: bs) < _
    omega

theorem truthfulTest_isolate {c : C} (h : l.batches = [c] :: bs) (hbad : bad c = true) :
    TruthfulTest bad l .fail l.failHead.1 l.failHead.2 := by
  have hbudget : failureBudget bad [bs.flatten] + 1 ≤ failureBudget bad ([c] :: bs) :=
    failureBudget_isolate hbad (.refl _)
  have hl := changes_of_batches h
  have hrest : l.failHead.2.changes = bs.flatten := by
    rw [failHead_single h]
    exact List.flatten_singleton
  have hsize : l.size = l.failHead.2.size + 1 := by
    rw [size, size, hrest, hl, List.singleton_append, List.length_cons]
  rw [failHead_single h] at hrest hsize ⊢
  constructor
  case shape => exact .singleton _
  case passed =>
    rw [hrest, hl, List.filter_append, List.filter_cons_of_neg (by simp [hbad])]
    rfl
  case failed =>
    rw [hrest, hl, List.filter_append, List.filter_cons_of_pos hbad]
    rfl
  case budget =>
    rw [h, Nat.add_comm]
    exact hbudget
  case smaller =>
    rw [h, hsize]
    change _ + failureBudget bad [bs.flatten] < _
    omega

/-- Whatever stands at the head, a test with the truthful verdict is one of these. -/
theorem truthfulTest_report {key : TestKey} (hk : l.outstanding = some key)
    (h : l.batches = b :: b' :: bs) (hshape : OnlyLastEmpty l.batches) (hne : b ≠ []) :
    TruthfulTest bad l (.ofBatch bad b) (l.report (.ofBatch bad b) key).1
      (l.report (.ofBatch bad b) key).2 := by
  rw [report_of_eq hk]
  cases hb : b.any bad with
  | false =>
    rw [Verdict.ofBatch, if_neg (by simp [hb])]
    exact truthfulTest_pass h hshape hne hb
  | true =>
    rw [Verdict.ofBatch, if_pos hb]
    by_cases hlen : 2 ≤ b.length
    · exact truthfulTest_halve h hshape hb hlen
    · obtain ⟨c, rfl⟩ := eq_singleton_of_not_two_le hne hlen
      exact truthfulTest_isolate h (by simpa using hb)

variable (bad) in
/-- Handing out the head reserves a batch behind it and moves no change. -/
theorem dispatch_under_test (hshape : OnlyLastEmpty l.batches) (hd : l.head ≠ []) :
    ∃ key l' b b' bs, l.dispatch = (some ⟨key, b⟩, l') ∧ l'.outstanding = some key ∧
      l'.batches = b :: b' :: bs ∧ b ≠ [] ∧ OnlyLastEmpty l'.batches ∧
      l'.changes = l.changes ∧ failureBudget bad l'.batches = failureBudget bad l.batches := by
  obtain ⟨key, l', hdisp, hout, hbatches⟩ :
      ∃ key l', l.dispatch = (some ⟨key, l.head⟩, l') ∧ l'.outstanding = some key ∧
        l'.batches = reserveLast l.batches := by
    cases hk : l.outstanding with
    | some key => exact ⟨key, _, dispatch_of_some hd hk, rfl, rfl⟩
    | none => exact ⟨_, _, dispatch_of_none hd hk, rfl, rfl⟩
  have hshape' : OnlyLastEmpty l'.batches := hbatches ▸ onlyLastEmpty_reserveLast hshape hd
  have hchanges : l'.changes = l.changes := by
    rw [changes, hbatches]
    exact flatten_reserveLast l.batches
  cases hb : l.batches with
  | nil => simp [head, hb] at hd
  | cons b bs =>
    have hhead : l.head = b := by simp [head, hb]
    rw [hb] at hbatches
    rw [hhead] at hdisp hd
    cases bs with
    | nil =>
      refine ⟨key, l', b, [], [], hdisp, hout, hbatches, hd, hshape', hchanges, ?_⟩
      rw [hbatches]
      exact failureBudget_append_nil b
    | cons b' bs =>
      exact ⟨key, l', b, b', bs, hdisp, hout, hbatches, hd, hshape', hchanges, congrArg _ hbatches⟩

structure Drained (bad : C → Bool) (l : Lane C) (log : List (DrainEntry C)) (l' : Lane C) :
    Prop where
  empty : l'.changes = []
  shape : OnlyLastEmpty l'.batches
  passed : passedIn log = l.changes.filter fun c => !bad c
  failed : failedIn log = l.changes.filter bad
  failures : failuresIn log ≤ failureBudget bad l.batches

theorem drained_of_nil (hshape : OnlyLastEmpty l.batches) (h : l.changes = []) :
    Drained bad l [] l where
  empty := h
  shape := hshape
  passed := by simp [h, passedIn]
  failed := by simp [h, failedIn]
  failures := Nat.zero_le _

theorem Drained.cons {l₁ l₂ l' : Lane C} {e : DrainEntry C} {log : List (DrainEntry C)}
    (htest : TruthfulTest bad l₁ e.verdict e.outcome l₂) (h : Drained bad l₂ log l')
    (hchanges : l₁.changes = l.changes)
    (hbudget : failureBudget bad l₁.batches = failureBudget bad l.batches) :
    Drained bad l (e :: log) l' where
  empty := h.empty
  shape := h.shape
  passed := by rw [passedIn_cons, h.passed, ← hchanges, htest.passed]
  failed := by rw [failedIn_cons, h.failed, ← hchanges, htest.failed]
  failures := by
    have := htest.budget
    have := h.failures
    rw [failuresIn_cons, ← hbudget]
    omega

/-- As many tests as there are changes and failing tests to come are enough. -/
theorem drained_drain {n : ℕ} (hshape : OnlyLastEmpty l.batches)
    (hn : l.size + failureBudget bad l.batches ≤ n) :
    Drained bad l (l.drain bad n).1 (l.drain bad n).2 := by
  -- On the limit: a test takes one from it, and at least one from the changes and failures to come.
  induction n generalizing l with
  | zero =>
    have hsize : l.changes.length = 0 := by
      change l.size = 0
      omega
    exact drained_of_nil hshape (List.length_eq_zero_iff.1 hsize)
  | succ n ih =>
    by_cases hd : l.head = []
    · rw [drain, drainWith_of_none _ (dispatch_of_nil hd)]
      exact drained_of_nil hshape (OnlyLastEmpty.flatten_eq_nil hshape hd)
    obtain ⟨key, l₁, b, b', bs, hdisp, hk, hb, hne, hshape₁, hchanges, hbudget⟩ :=
      dispatch_under_test bad hshape hd
    have htest : TruthfulTest bad l₁ _ _ _ := truthfulTest_report hk hb hshape₁ hne
    have hsmaller := htest.smaller
    rw [hbudget, size, size, hchanges] at hsmaller
    change _ < l.size + _ at hsmaller
    rw [drain, drainWith_of_some n hdisp rfl]
    exact .cons htest (ih htest.shape (by rw [size]; omega)) hchanges hbudget

theorem dispatch_of_isEmpty (h : l.changes = []) : l.dispatch = (none, l) :=
  dispatch_of_nil (head_eq_nil h)

theorem dispatch_idle (l : Lane C) (h : l.dispatch.1 = none) : l.dispatch.2 = l := by
  rw [dispatch_of_nil (fst_dispatch_eq_none_iff.1 h)]

/-- Draining a lane that can be reached ends: from some number of tests on, the limit no longer
matters and nothing is left to hand out. Exactly the bad changes fail and all others pass, in the
order in which they stood, and the failing tests are bounded by the number of bad changes times one
more than the binary logarithm of the number of changes, rounded up. -/
theorem drain_exact [DecidableEq C] (bad : C → Bool) {l : Lane C} (h : l.Reachable) :
    ∃ log l',
      (∀ limit, l.size + l.changes.countP bad * (Nat.clog 2 l.size + 1) ≤ limit →
        l.drain bad limit = (log, l')) ∧
      l'.isEmpty ∧ l'.dispatch = (none, l') ∧
      passedIn log = l.changes.filter (fun c => !bad c) ∧
      failedIn log = l.changes.filter bad ∧
      failuresIn log ≤ l.changes.countP bad * (Nat.clog 2 l.size + 1) := by
  have hbudget : failureBudget bad l.batches ≤ l.changes.countP bad * (Nat.clog 2 l.size + 1) :=
    failureBudget_le l.batches
  have hdrained : Drained bad l _ _ :=
    drained_drain h.wellFormed.only_last_empty (Nat.add_le_add_left hbudget l.size)
  have hdone := dispatch_of_isEmpty hdrained.empty
  refine ⟨_, _, fun limit hlimit => ?_, List.isEmpty_iff.2 hdrained.empty, hdone, hdrained.passed,
    hdrained.failed, hdrained.failures.trans hbudget⟩
  exact drainWith_of_le hlimit hdone dispatch_idle

/-- Five changes in the middle of a bisection, with a key outstanding. -/
def halved : Lane ℕ := ⟨[[1], [2, 3], [4, 5]], some ⟨3⟩, 4⟩

theorem drain_halved :
    halved.Reachable ∧ ∃ log l',
      (∀ limit, 13 ≤ limit → halved.drain (· % 2 == 0) limit = (log, l')) ∧
      l'.isEmpty ∧ l'.dispatch = (none, l') ∧
      passedIn log = [1, 3, 5] ∧ failedIn log = [2, 4] ∧ failuresIn log ≤ 8 := by
  have hparts : restore halved.batches halved.outstanding halved.nextKey =
      (.ok halved : Except (Inconsistency ℕ ℕ) (Lane ℕ)) := rfl
  have hreach : halved.Reachable := .restored hparts
  have hlog : Nat.clog 2 halved.size = 3 := by decide
  have h := drain_exact (· % 2 == 0) hreach
  rw [hlog] at h
  exact ⟨hreach, h⟩

end MergeQueue.Lane
