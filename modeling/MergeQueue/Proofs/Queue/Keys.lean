import MergeQueue.Change
import MergeQueue.Proofs.Queue.Conservation
import MergeQueue.Proofs.Queue.KeyHistory

/-!
# A key names one batch

Read over a whole run: keys go up, one key goes with one list of changes, and what passes under a
key was handed out under it before. Only a report under the outstanding key does something. It
drops the key, and no step that drops a key lets it come back.
-/
namespace MergeQueue.Queue

open Lane

variable {C I : Type}

/-- What two steps hand out under one key is the same. -/
def SameBatch (s t : Step C I) : Prop :=
  ∀ d e, HandsOut s d → HandsOut t e → d.key = e.key → d.changes = e.changes

instance : Std.Symm (SameBatch (C := C) (I := I)) :=
  ⟨fun _ _ h d e hd he hkey => (h e d he hd hkey.symm).symm⟩

theorem sameBatch_self (s : Step C I) : SameBatch s s := by
  intro d e hd he _
  cases hd.symm.trans he
  rfl

variable [DecidableEq I] [Change C I]

theorem passed_report {q : Queue C I} {verdict : Verdict} {key : TestKey}
    (h : (q.report verdict key).1.passed ≠ []) :
    q.lane.outstanding = some key ∧ (q.report verdict key).1.passed = q.lane.head := by
  by_cases hk : q.lane.outstanding = some key
  · refine ⟨hk, ?_⟩
    rcases report_cases verdict key q with ⟨-, hreport⟩ | ⟨-, -, c, bs, -, hreport⟩
    · rw [hreport, report_of_eq hk] at h ⊢
      cases verdict with
      | pass => rfl
      | fail => exact absurd (passed_failHead q.lane) h
    · rw [hreport] at h
      exact absurd rfl h
  · rw [report_of_stale hk] at h
    exact absurd rfl h

variable [DecidableEq C]

section Step

variable {q : Queue C I} {a : Action C} {verdict : Verdict} {key : TestKey}

/-- What is handed out is the head, under the outstanding key or under one from the counter. -/
theorem handsOut_cases {d : Dispatch C} (h : HandsOut (q.step a) d) :
    d.changes = q.lane.head ∧ (q.lane.outstanding = some d.key ∨ d.key = ⟨q.lane.nextKey⟩) := by
  have hd := (handsOut_step h).2
  rcases dispatch_cases q.lane with hidle | ⟨key', hkey', hd', -⟩ | ⟨hd', -⟩
  · rw [hidle] at hd
    cases hd
  · cases hd.symm.trans hd'
    exact ⟨rfl, .inl hkey'⟩
  · cases hd.symm.trans hd'
    exact ⟨rfl, .inr rfl⟩

theorem minted_step (h : (q.step a).minted = some key) : key = ⟨q.lane.nextKey⟩ := by
  obtain ⟨hnone, cs, hanswer⟩ := Step.minted_eq_some.1 h
  obtain ⟨-, hout | hnew⟩ := handsOut_cases hanswer
  · exact absurd (hnone.symm.trans hout) (Option.some_ne_none key).symm
  · exact hnew

theorem drops_report (hwf : q.lane.WellFormed) (h : (q.step (.report verdict key)).after ≠ q) :
    Drops (q.step (.report verdict key)) key := by
  by_cases hk : q.lane.outstanding = some key
  · refine ⟨hk, ?_⟩
    change (q.report verdict key).2.lane.outstanding ≠ some key
    rw [outstanding_after_report hwf hk]
    exact (Option.some_ne_none key).symm
  · exact absurd (congrArg Prod.snd (report_of_stale hk)) h

end Step

section Run

variable {as front back : List (Action C)} {a : Action C}

/-- What is remembered when a step of the run is taken. -/
theorem keyHistory_front (mint : CanMintAll (run (.empty : Queue C I) as))
    (has : as = front ++ a :: back) :
    KeyHistory (run .empty front) (afterRun (.empty : Queue C I) front) := by
  rw [has] at mint
  exact keyHistory_run front (canMintAll_front mint)

variable (mint : CanMintAll (run (.empty : Queue C I) as))
include mint

theorem pairwise_minted_run :
    ((run (.empty : Queue C I) as).filterMap Step.minted).Pairwise (·.number < ·.number) := by
  rw [List.pairwise_filterMap]
  apply pairwise_run
  intro front a back has s hs key hkey key' hkey'
  obtain ⟨-, cs, hd⟩ := Step.minted_eq_some.1 hkey
  rw [minted_step hkey']
  exact (keyHistory_front mint has).below s hs _ hd

theorem pairwise_sameBatch_run : (run (.empty : Queue C I) as).Pairwise SameBatch := by
  apply pairwise_run
  intro front a back has s hs d e hd he hkey
  have hist := keyHistory_front mint has
  obtain ⟨hhead, hout | hnew⟩ := handsOut_cases he
  · rw [hhead]
    exact hist.frozen s hs d hd (hkey ▸ hout)
  · -- A key from the counter is above all that were handed out.
    have hlt := hist.below s hs d hd
    rw [hkey, hnew] at hlt
    exact absurd hlt (UInt64.lt_irrefl _)

theorem pairwise_drops_run : (run (.empty : Queue C I) as).Pairwise fun s t =>
    ∀ key, Drops s key → t.before.lane.outstanding ≠ some key := by
  apply pairwise_run
  intro front a back has s hs key hdrop
  exact ((keyHistory_front mint has).dropped s hs key hdrop).2

theorem drops_of_report_run {s : Step C I} (hs : s ∈ run (.empty : Queue C I) as)
    {verdict : Verdict} {key : TestKey} (haction : s.action = .report verdict key)
    (hne : s.after ≠ s.before) : Drops s key := by
  obtain ⟨front, a, back, has, rfl⟩ := exists_of_mem_run hs
  cases haction
  exact drops_report (keyHistory_front mint has).wellFormed hne

end Run

/-- Every action mints one key at most. -/
theorem toNat_nextKey_act {q : Queue C I} (h : q.lane.WellFormed) (a : Action C) :
    (q.act a).2.lane.nextKey.toNat ≤ q.lane.nextKey.toNat + 1 := by
  by_cases ha : a = .dispatch
  · subst ha
    change q.lane.dispatch.2.nextKey.toNat ≤ _
    rcases dispatch_cases q.lane with hnone | ⟨key, -, -, hkeep⟩ | ⟨-, hmint⟩
    · rw [hnone]
      exact Nat.le_succ _
    · rw [hkeep.nextKey]
      omega
    · rw [hmint.nextKey, UInt64.toNat_add]
      exact Nat.mod_le _ _
  · rw [(laneKept_act h ha).2.nextKey]
    omega

/-- A run that is shorter than the range of the counter cannot exhaust it. -/
theorem canMintAll_of_length {as : List (Action C)} (h : as.length < UInt64.size) :
    CanMintAll (run (.empty : Queue C I) as) := by
  -- The counter never gets ahead of the number of steps.
  suffices hrun : CanMintAll (run (.empty : Queue C I) as) ∧
      (afterRun (.empty : Queue C I) as).lane.WellFormed ∧
      (afterRun (.empty : Queue C I) as).lane.nextKey.toNat ≤ as.length from hrun.1
  induction as using List.reverseRecOn with
  | nil => exact ⟨by simp [run, CanMintAll], wellFormed_empty, Nat.le_refl 0⟩
  | append_singleton as a ih =>
    rw [List.length_append, List.length_singleton] at h ⊢
    obtain ⟨hmint, hwf, hcount⟩ := ih (by omega)
    have hlast : (afterRun (.empty : Queue C I) as).lane.CanMint := by
      intro _
      omega
    rw [run_concat, afterRun_concat]
    refine ⟨?_, wellFormed_lane_act hwf a fun _ => hlast, ?_⟩
    · rw [CanMintAll, List.forall_mem_append, List.forall_mem_singleton]
      exact ⟨hmint, fun _ => hlast⟩
    · have := toNat_nextKey_act hwf a
      omega

/-- A key names one batch: keys go up, one key goes with one list of changes, the outstanding key
was handed out before with the head, and what passes under a key was handed out under it before. At
most one report under a key does something, and only while the key is outstanding; a key that was
dropped is never outstanding again. Every queue can be reopened. -/
structure KeysNameBatches (steps : List (Step C I)) : Prop where
  increasing : (steps.filterMap Step.minted).Pairwise (·.number < ·.number)
  one_batch : ∀ s ∈ steps, ∀ t ∈ steps, SameBatch s t
  under_test : ∀ earlier s later, steps = earlier ++ s :: later →
    ∀ key, s.before.lane.outstanding = some key →
      ∃ t ∈ earlier, HandsOut t ⟨key, s.before.lane.head⟩
  handed_out : ∀ earlier s later, steps = earlier ++ s :: later →
    ∀ key o, s.action = .report .pass key → s.answer = .reported o → o.passed ≠ [] →
      ∃ t ∈ earlier, HandsOut t ⟨key, o.passed⟩
  one_report : steps.Pairwise fun s t => ∀ verdict verdict' key, s.action = .report verdict key →
    t.action = .report verdict' key → s.after = s.before ∨ t.after = t.before
  stale_ignored : ∀ s ∈ steps, ∀ verdict key, s.action = .report verdict key →
    s.before.lane.outstanding ≠ some key → s.answer = .reported .none ∧ s.after = s.before
  never_back : steps.Pairwise fun s t =>
    ∀ key, Drops s key → t.before.lane.outstanding ≠ some key
  reopens : ∀ s ∈ steps, s.action = .reopen → s.before.reopen = .ok s.after

/-- In a run from the empty queue that does not exhaust the counter, keys name batches. -/
theorem run_keysNameBatches (as : List (Action C))
    (mint : CanMintAll (run (.empty : Queue C I) as)) :
    KeysNameBatches (run (.empty : Queue C I) as) := by
  constructor
  case increasing => exact pairwise_minted_run mint
  case one_batch =>
    intro s hs t ht
    exact (pairwise_sameBatch_run mint).forall_of_forall (fun s _ => sameBatch_self s) hs ht
  case under_test =>
    intro earlier s later h key hkey
    obtain ⟨front, a, back, has, rfl, rfl⟩ := run_eq_append_cons h
    exact (keyHistory_front mint has).handed_out key hkey
  case handed_out =>
    intro earlier s later h key o haction hanswer hne
    obtain ⟨front, a, back, has, rfl, rfl⟩ := run_eq_append_cons h
    cases haction
    cases hanswer
    obtain ⟨hkey, hhead⟩ := passed_report hne
    rw [hhead]
    exact (keyHistory_front mint has).handed_out key hkey
  case one_report =>
    apply (pairwise_drops_run mint).imp_of_mem
    intro s t hs ht hback verdict verdict' key hv hv'
    by_contra hboth
    rw [not_or] at hboth
    have hdrop := drops_of_report_run mint hs hv hboth.1
    have hdrop' := drops_of_report_run mint ht hv' hboth.2
    exact hback key hdrop hdrop'.1
  case stale_ignored =>
    intro s hs verdict key haction hne
    obtain ⟨front, a, back, has, rfl⟩ := exists_of_mem_run hs
    cases haction
    have hstale : (afterRun .empty front).report verdict key = (.none, afterRun .empty front) :=
      report_of_stale hne
    exact ⟨congrArg Answer.reported (congrArg Prod.fst hstale), congrArg Prod.snd hstale⟩
  case never_back => exact pairwise_drops_run mint
  case reopens =>
    intro s hs haction
    obtain ⟨front, a, back, has, rfl⟩ := exists_of_mem_run hs
    cases haction
    have hopen := reopen_of_wellFormed (keyHistory_front mint has).wellFormed
      (accounted_run front).distinct
    change (afterRun _ front).reopen = .ok ((afterRun _ front).reopen.toOption.getD _)
    rw [hopen]
    rfl

/-- Two changes are tested and halved, the queue is reopened between two tests, and a report comes
in late. -/
def lateReport : List (Action ChangeRecord) :=
  [.submit ⟨⟨"a"⟩, .empty⟩, .submit ⟨⟨"b"⟩, .ofList [⟨"a"⟩]⟩, .dispatch, .report .fail ⟨0⟩,
    .dispatch, .reopen, .report .pass ⟨1⟩, .dispatch, .report .fail ⟨1⟩, .report .pass ⟨2⟩]

theorem keysNameBatches_lateReport :
    CanMintAll (run .empty lateReport) ∧ KeysNameBatches (run .empty lateReport) := by
  have mint : CanMintAll (run .empty lateReport) := canMintAll_of_length (by decide)
  exact ⟨mint, run_keysNameBatches lateReport mint⟩

end MergeQueue.Queue
