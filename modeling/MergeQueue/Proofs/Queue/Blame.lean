import MergeQueue.Change
import MergeQueue.Proofs.Queue.Keys
import MergeQueue.Proofs.Requirement.Subpool

/-!
# Nobody is blamed or cleared for another's test

A verdict is about the batch that was handed out under its key. Whatever comes in between, the head
is that batch as long as the key is outstanding, so a truthful verdict never passes a bad change,
and it fails a change only if that change is bad or requires the bad one that was isolated.
-/
namespace MergeQueue.Queue

open Lane

variable {C I : Type} {bad : C → Bool} {steps : List (Step C I)} {q : Queue C I} {key : TestKey}

def Step.batchUnder (key : TestKey) (s : Step C I) : Option (List C) :=
  match s.answer with
  | .dispatched (some d) => if d.key = key then some d.changes else none
  | _ => none

theorem Step.batchUnder_eq_some {s : Step C I} {batch : List C} :
    s.batchUnder key = some batch ↔ HandsOut s ⟨key, batch⟩ := by
  rcases s with ⟨before, action, answer, after⟩
  unfold batchUnder HandsOut
  constructor
  · intro h
    split at h
    · rename_i d hanswer
      split at h
      · rename_i hkey
        cases h
        subst hkey
        exact hanswer
      · cases h
    · cases h
  · intro h
    simp only at h
    simp [h]

def lastBatchUnder (key : TestKey) (steps : List (Step C I)) : Option (List C) :=
  steps.reverse.findSome? (Step.batchUnder key)

/-- Whatever was handed out under the outstanding key is the head. -/
theorem KeyHistory.lastBatchUnder_eq (h : KeyHistory steps q)
    (hkey : q.lane.outstanding = some key) : lastBatchUnder key steps = some q.lane.head := by
  obtain ⟨s, hs, hout⟩ := h.handed_out key hkey
  cases hlast : lastBatchUnder key steps with
  | none =>
    have hnone := List.findSome?_eq_none_iff.1 hlast s (List.mem_reverse.2 hs)
    rw [Step.batchUnder_eq_some.2 hout] at hnone
    cases hnone
  | some batch =>
    obtain ⟨t, ht, hbatch⟩ := List.exists_of_findSome?_eq_some hlast
    exact congrArg some
      (h.frozen t (List.mem_reverse.1 ht) _ (Step.batchUnder_eq_some.1 hbatch) hkey)

/-- A report under the outstanding key gives the truthful verdict on the batch that was last handed
out under it. Other reports may say anything. -/
def Step.Truthful (bad : C → Bool) (earlier : List (Step C I)) (s : Step C I) : Prop :=
  ∀ verdict key, s.action = .report verdict key → s.before.lane.outstanding = some key →
    ∀ batch ∈ lastBatchUnder key earlier, verdict = .ofBatch bad batch

instance (bad : C → Bool) (earlier : List (Step C I)) (s : Step C I) :
    Decidable (s.Truthful bad earlier) :=
  match h : s.action with
  | .report verdict key =>
    decidable_of_iff (s.before.lane.outstanding = some key →
        ∀ batch ∈ lastBatchUnder key earlier, verdict = .ofBatch bad batch) <| by
      simp [Step.Truthful, h]
  | .submit _ => isTrue (by simp [Step.Truthful, h])
  | .dispatch => isTrue (by simp [Step.Truthful, h])
  | .reopen => isTrue (by simp [Step.Truthful, h])

def TruthfulReports (bad : C → Bool) (steps : List (Step C I)) : Prop :=
  ∀ earlier s later, steps = earlier ++ s :: later → s.Truthful bad earlier

theorem truthfulReports_iff : TruthfulReports bad steps ↔
    ∀ i : Fin steps.length, steps[i].Truthful bad (steps.take i) := by
  constructor
  · intro h i
    apply h (steps.take i) steps[i] (steps.drop (i + 1))
    simp
  · intro h earlier s later hsplit
    subst hsplit
    have hi := h ⟨earlier.length, by simp⟩
    simpa using hi

instance (bad : C → Bool) (steps : List (Step C I)) : Decidable (TruthfulReports bad steps) :=
  decidable_of_iff _ truthfulReports_iff.symm

theorem ofBatch_eq_pass {batch : List C} :
    Verdict.ofBatch bad batch = .pass ↔ ∀ c ∈ batch, bad c = false := by
  unfold Verdict.ofBatch
  cases h : batch.any bad <;> simp_all

theorem ofBatch_eq_fail {batch : List C} :
    Verdict.ofBatch bad batch = .fail ↔ ∃ c ∈ batch, bad c = true := by
  unfold Verdict.ofBatch
  cases h : batch.any bad <;> simp_all

theorem passed_report_fail (key : TestKey) (q : Queue C I) [DecidableEq I] [Change C I] :
    (q.report .fail key).1.passed = [] := by
  rcases report_cases .fail key q with ⟨-, hreport⟩ | ⟨-, -, c, bs, -, hreport⟩
  · rw [hreport]
    change (q.lane.report .fail key).1.passed = []
    unfold Lane.report
    split
    · exact passed_failHead q.lane
    · rfl
  · rw [hreport]

variable [Change C I]

/-- Nothing bad passes. What fails begins with a bad change, and all else that fails requires it
through the changes of `pool`. -/
structure Blameless (bad : C → Bool) (pool passed failed : List C) : Prop where
  passed : ∀ c ∈ passed, bad c = false
  failed : failed ≠ [] → ∃ c cs, failed = c :: cs ∧ bad c = true ∧
    ∀ d ∈ cs, Requires pool (ident d) (ident c)

theorem blameless_nil (pool : List C) : Blameless bad pool [] [] :=
  ⟨fun _ hc => absurd hc List.not_mem_nil, fun h => absurd rfl h⟩

variable [DecidableEq I] {verdict : Verdict}

/-- What passes with the truthful verdict is a batch without a bad change. -/
theorem not_bad_of_mem_passed (hverdict : verdict = .ofBatch bad q.lane.head) {c : C}
    (hc : c ∈ (q.report verdict key).1.passed) : bad c = false := by
  have hhead := (passed_report (List.ne_nil_of_mem hc)).2
  cases verdict with
  | pass => exact ofBatch_eq_pass.1 hverdict.symm c (hhead ▸ hc)
  | fail =>
    rw [passed_report_fail] at hc
    exact absurd hc List.not_mem_nil

/-- A report with the truthful verdict on the head. -/
theorem blameless_report (hverdict : verdict = .ofBatch bad q.lane.head) :
    Blameless bad q.pool (q.report verdict key).1.passed (q.report verdict key).1.failed := by
  refine ⟨fun c hc => not_bad_of_mem_passed hverdict hc, fun hne => ?_⟩
  rcases report_cases verdict key q with ⟨hnil, hreport⟩ | ⟨rfl, -, c, bs, hb, hreport⟩
  · rw [hreport] at hne
    exact absurd hnil hne
  · have hhead : q.lane.head = [c] := by
      rw [head, hb]
      rfl
    have hbad : bad c = true := by
      rw [hhead] at hverdict
      simpa using ofBatch_eq_fail.1 hverdict.symm
    rw [hreport]
    refine ⟨c, _, rfl, hbad, fun d hd => ?_⟩
    have hreq := requiring_eq_true_iff.1 (List.mem_filter.1 hd).2
    exact hreq.mono (pool_of_single hb ▸ List.subset_cons_self _ _)

variable [DecidableEq C]

theorem blameless_step {a : Action C}
    (h : ∀ verdict key, a = .report verdict key → q.lane.outstanding = some key →
      verdict = .ofBatch bad q.lane.head) :
    Blameless bad q.pool (q.step a).passed (q.step a).failed := by
  cases a with
  | submit | dispatch | reopen => exact blameless_nil _
  | report verdict key =>
    change Blameless bad q.pool (q.report verdict key).1.passed (q.report verdict key).1.failed
    by_cases hkey : q.lane.outstanding = some key
    · exact blameless_report (h verdict key rfl hkey)
    · rw [report_of_stale hkey]
      exact blameless_nil _

/-- In a run from the empty queue that does not exhaust the counter, truthful verdicts on what was
handed out pass no bad change and fail nothing but bad changes and those that require them. -/
theorem run_blames_rightly (bad : C → Bool) (as : List (Action C))
    (mint : CanMintAll (run (.empty : Queue C I) as))
    (truthful : TruthfulReports bad (run (.empty : Queue C I) as)) :
    ∀ s ∈ run (.empty : Queue C I) as, Blameless bad s.before.pool s.passed s.failed := by
  intro s hs
  obtain ⟨earlier, later, hsplit⟩ := List.append_of_mem hs
  obtain ⟨front, a, back, has, rfl, rfl⟩ := run_eq_append_cons hsplit
  apply blameless_step
  intro verdict key ha hkey
  have hlast := (keyHistory_front mint has).lastBatchUnder_eq hkey
  exact truthful _ _ later hsplit verdict key ha hkey _ hlast

/-- A batch of two is handed out, a third change that requires the second arrives, the batch fails,
and its first half is polled twice. Late and made-up reports come in between. -/
def interleaved : List (Action ChangeRecord) :=
  [.submit ⟨⟨"a"⟩, .empty⟩, .submit ⟨⟨"b"⟩, .empty⟩, .dispatch, .submit ⟨⟨"c"⟩, .ofList [⟨"b"⟩]⟩,
    .report .pass ⟨7⟩, .report .fail ⟨0⟩, .dispatch, .report .fail ⟨0⟩, .reopen, .dispatch,
    .report .pass ⟨1⟩, .dispatch, .report .fail ⟨2⟩]

theorem blames_interleaved :
    CanMintAll (run .empty interleaved) ∧
      TruthfulReports (·.id.text = "b") (run .empty interleaved) ∧
      ((run .empty interleaved).flatMap Step.passed).map (·.id.text) = ["a"] ∧
      ((run .empty interleaved).flatMap Step.failed).map (·.id.text) = ["b", "c"] ∧
      ∀ s ∈ run .empty interleaved,
        Blameless (·.id.text = "b") s.before.pool s.passed s.failed := by
  have mint : CanMintAll (run (.empty : Queue ChangeRecord ChangeId) interleaved) :=
    canMintAll_of_length (by decide)
  have truthful : TruthfulReports (·.id.text = "b")
      (run (.empty : Queue ChangeRecord ChangeId) interleaved) := by decide +kernel
  exact ⟨mint, truthful, by decide +kernel, by decide +kernel,
    run_blames_rightly _ interleaved mint truthful⟩

end MergeQueue.Queue
