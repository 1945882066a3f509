import MergeQueue.Proofs.Queue.LaneActions
import MergeQueue.Proofs.Queue.Settled

/-!
# What a submission takes out and what it puts in

A submitted change with a new identity is turned away exactly if it requires itself, through live
changes and its own requirements. Then all that requires it leaves with it, from the lane and from
those that wait, and everything else stays where it is. Any other change is taken in, and nothing
leaves: what enters the lane joins its last batch.
-/
namespace MergeQueue.Queue

open Lane

variable {C I : Type} [Change C I] {q : Queue C I} {c : C}

/-- Through live changes and the submitted one, the change requires the submitted one. -/
def RequiresSubmitted (c : C) (q : Queue C I) (d : C) : Prop :=
  Requires (q.pool ++ [c]) (ident d) (ident c)

variable [DecidableEq I]

instance : DecidablePred (q.RequiresSubmitted c) :=
  fun _ => inferInstanceAs (Decidable (Requires _ _ _))

theorem dependsOn_eq : q.dependsOn c = fun d => decide (q.RequiresSubmitted c d) := by
  funext d
  rw [Bool.eq_iff_iff, dependsOn_eq_true_iff, decide_eq_true_iff]
  rfl

theorem not_dependsOn_eq :
    (fun d => !q.dependsOn c d) = fun d => decide ¬q.RequiresSubmitted c d := by
  rw [dependsOn_eq]
  funext d
  exact (decide_not).symm

/-- The submitted change is turned away, and with it leaves what requires it: the changes of the
lane in the order of their tests, then those that wait. The other changes keep their batches, of
which the emptied ones disappear, but for the last; the counter stands still, and the key is dropped
if the head loses a change. -/
structure TurnedAway (c : C) (q : Queue C I) (a : Admission C) (q' : Queue C I) : Prop where
  none_added : a.added = []
  rejected : a.rejected = c :: (q.lane.changes.filter (q.RequiresSubmitted c ·) ++
    q.awaiting.filter (q.RequiresSubmitted c ·))
  batches : ∃ front last, q.lane.batches = front ++ [last] ∧ q'.lane.batches =
    (front.map (List.filter (¬q.RequiresSubmitted c ·))).filter (· ≠ []) ++
      [last.filter (¬q.RequiresSubmitted c ·)]
  counter : q'.lane.nextKey = q.lane.nextKey
  key : q'.lane.outstanding =
    if ∃ d ∈ q.lane.head, q.RequiresSubmitted c d then none else q.lane.outstanding
  waiting : q'.waiting = q.waiting.filter (¬q.RequiresSubmitted c ·.change)

/-- The submitted change is taken in, and nothing leaves. What is added joins the last batch, and
all else in the lane stays as it is. -/
structure TakenIn (c : C) (q : Queue C I) (a : Admission C) (q' : Queue C I) : Prop where
  none_rejected : a.rejected = []
  kept : q'.pool.Perm (q.pool ++ [c])
  lane : ∃ front last, q.lane.batches = front ++ [last] ∧
    q'.lane = { q.lane with batches := front ++ [last ++ a.added] }

variable [DecidableEq C]

section Submit

variable (shaped : q.lane.Shaped) (new : ident c ∉ q.pool.map ident)
include shaped new

theorem turnedAway_submit (hcycle : q.RequiresSubmitted c c) :
    TurnedAway c q (q.submit c).1 (q.submit c).2 := by
  obtain ⟨front, last, hb⟩ := shaped.exists_last
  rw [submit_of_cycle new (mem_dependantsOf.2 hcycle)]
  constructor
  case none_added => rfl
  case rejected =>
    rw [dependsOn_eq, pool, List.filter_append]
  case batches =>
    refine ⟨front, last, hb, ?_⟩
    rw [← not_dependsOn_eq]
    exact batches_withdraw_concat _ shaped.only_last_empty hb
  case counter => exact nextKey_withdraw _ _
  case key =>
    refine (outstanding_withdraw _ q.lane).trans ?_
    rw [dependsOn_eq]
    simp only [List.any_eq_true, decide_eq_true_iff]
  case waiting =>
    change (q.waiting.filter fun w => !q.dependsOn c w.change) = _
    rw [dependsOn_eq]
    simp only [decide_not]

theorem takenIn_submit (hnd : (q.pool.map ident).Nodup) (hfree : ¬q.RequiresSubmitted c c) :
    TakenIn c q (q.submit c).1 (q.submit c).2 := by
  obtain ⟨front, last, hb⟩ := shaped.exists_last
  have hconserves : ((q.submit c).2.pool ++ (q.submit c).1.rejected).Perm
      (q.pool ++ (q.step (.submit c)).accepted) := conserves_submit c hnd
  have hadmitted := (newTo_candidates hnd new (q.dependsOn c)).admitted
  rw [submit_of_not_cycle new (mt mem_dependantsOf.1 hfree)] at hconserves ⊢
  rw [accepted_of_not_holds new, List.append_nil] at hconserves
  exact ⟨rfl, hconserves, front, last, hb,
    enqueueAll_concat hadmitted.nodup hadmitted.not_mem hb⟩

end Submit

/-- In every queue that can be reached, a change with a new identity is turned away exactly if it
requires itself through live changes and its own requirements; then exactly what requires it leaves.
Otherwise it is taken in, and nothing leaves. -/
theorem submit_rejects_exactly_cycles (reached : q.Reached) (new : ident c ∉ q.pool.map ident) :
    ((q.submit c).1.rejected ≠ [] ↔ Requires (q.pool ++ [c]) (ident c) (ident c)) ∧
      (Requires (q.pool ++ [c]) (ident c) (ident c) →
        TurnedAway c q (q.submit c).1 (q.submit c).2) ∧
      (¬Requires (q.pool ++ [c]) (ident c) (ident c) →
        TakenIn c q (q.submit c).1 (q.submit c).2) := by
  have haway := turnedAway_submit reached.lane.shaped new
  have hin := takenIn_submit reached.lane.shaped new reached.parked.distinct
  refine ⟨⟨fun hne => ?_, fun hcycle => ?_⟩, haway, hin⟩
  · by_contra hfree
    exact hne (hin hfree).none_rejected
  · rw [(haway hcycle).rejected]
    exact List.cons_ne_nil _ _

/-- A change is under test, and behind it stand one that requires it and one that requires that one.
Two changes wait for the same identity. -/
def ringed : Queue ChangeRecord ChangeId where
  lane := ⟨[[⟨⟨"b"⟩, .ofList [⟨"a"⟩]⟩], [⟨⟨"d"⟩, .ofList [⟨"b"⟩]⟩],
    [⟨⟨"x"⟩, .empty⟩, ⟨⟨"e"⟩, .ofList [⟨"d"⟩]⟩]], some ⟨3⟩, 5⟩
  waiting := [⟨⟨⟨"w"⟩, .ofList [⟨"e"⟩, ⟨"z"⟩]⟩, [⟨"z"⟩]⟩, ⟨⟨⟨"v"⟩, .ofList [⟨"z"⟩]⟩, [⟨"z"⟩]⟩]

/-- What the change under test requires comes and closes a cycle; what the others wait for closes
none. -/
theorem ringed_rejects_exactly_cycles :
    ringed.Reached ∧
      (ringed.submit ⟨⟨"a"⟩, .ofList [⟨"d"⟩]⟩).1.rejected.map (·.id.text) =
        ["a", "b", "d", "e", "w"] ∧
      (ringed.submit ⟨⟨"a"⟩, .ofList [⟨"d"⟩]⟩).2 =
        ⟨⟨[[⟨⟨"x"⟩, .empty⟩]], none, 5⟩, [⟨⟨⟨"v"⟩, .ofList [⟨"z"⟩]⟩, [⟨"z"⟩]⟩]⟩ ∧
      TurnedAway ⟨⟨"a"⟩, .ofList [⟨"d"⟩]⟩ ringed (ringed.submit ⟨⟨"a"⟩, .ofList [⟨"d"⟩]⟩).1
        (ringed.submit ⟨⟨"a"⟩, .ofList [⟨"d"⟩]⟩).2 ∧
      TakenIn ⟨⟨"z"⟩, .empty⟩ ringed (ringed.submit ⟨⟨"z"⟩, .empty⟩).1
        (ringed.submit ⟨⟨"z"⟩, .empty⟩).2 := by
  have hparts : restore ringed.lane.batches ringed.lane.outstanding ringed.lane.nextKey
      ringed.awaiting = .ok ringed := by decide +kernel
  have hreach : ringed.Reached := .restored hparts
  have haway := submit_rejects_exactly_cycles (c := ⟨⟨"a"⟩, .ofList [⟨"d"⟩]⟩) hreach
    (by decide +kernel)
  have hin := submit_rejects_exactly_cycles (c := ⟨⟨"z"⟩, .empty⟩) hreach (by decide +kernel)
  exact ⟨hreach, by decide +kernel, by decide +kernel, haway.2.1 (by decide +kernel),
    hin.2.2 (by decide +kernel)⟩

end MergeQueue.Queue
