import MergeQueue.Proofs.Queue.LaneActions
import MergeQueue.Proofs.Queue.Layered
import MergeQueue.Proofs.Queue.Settled

/-!
# What a failing test takes along

A failing head of two or more changes is halved, and nothing leaves. A change that fails alone takes
along all that requires it through live changes, from the lane and from those that wait, also where
a chain leads to and fro between the two. What is left of the lane is one batch, and nothing live
requires, directly or through others, anything that has failed.
-/
namespace MergeQueue.Queue

open Lane

variable {C I : Type} [Change C I] {q : Queue C I} {c : C} {key : TestKey}

/-- The head is cut in two halves, and nothing is classified. -/
structure Halved (q : Queue C I) (o : Outcome C) (q' : Queue C I) : Prop where
  outcome : o = .none
  lane : q'.lane = ⟨q.lane.head.take (q.lane.head.length / 2) ::
    q.lane.head.drop (q.lane.head.length / 2) :: q.lane.batches.tail, none, q.lane.nextKey⟩
  waiting : q'.waiting = q.waiting

/-- Through live changes, the change requires the one that fails. -/
def RequiresFailing (c : C) (q : Queue C I) (d : C) : Prop :=
  Requires q.pool (ident d) (ident c)

variable [DecidableEq I]

instance : DecidablePred (q.RequiresFailing c) :=
  fun _ => inferInstanceAs (Decidable (Requires _ _ _))

/-- The head, a single change, fails, and with it what requires it: the changes of the lane in the
order of their tests, then those that wait. The other changes of the lane make one batch, the others
wait on, and nothing live requires what has failed. -/
structure FailedAlong (c : C) (q : Queue C I) (o : Outcome C) (q' : Queue C I) : Prop where
  none_passed : o.passed = []
  failed : o.failed = c :: (q.lane.changes.tail.filter (q.RequiresFailing c ·) ++
    q.awaiting.filter (q.RequiresFailing c ·))
  lane : q'.lane =
    ⟨[q.lane.changes.tail.filter (¬q.RequiresFailing c ·)], none, q.lane.nextKey⟩
  waiting : q'.waiting = q.waiting.filter (¬q.RequiresFailing c ·.change)
  severed : ∀ d ∈ o.failed, ∀ i, ¬Requires q'.pool i (ident d)

theorem halved_report {b : List C} {bs : List (List C)} (hk : q.lane.outstanding = some key)
    (hb : q.lane.batches = b :: bs) (hlen : 2 ≤ b.length) :
    Halved q (q.report .fail key).1 (q.report .fail key).2 := by
  have hhead : q.lane.head = b := by rw [head, hb, List.headD_cons]
  have hlane : q.lane.report .fail key =
      (.none, ⟨b.take (b.length / 2) :: b.drop (b.length / 2) :: bs, none, q.lane.nextKey⟩) := by
    rw [report_of_eq hk]
    exact failHead_halve hb hlen
  rw [report_of_nil (by rw [hlane]; rfl), hlane]
  refine ⟨rfl, ?_, rfl⟩
  rw [hhead, hb, List.tail_cons]

section Single

variable {bs : List (List C)} (hb : q.lane.batches = [c] :: bs)
include hb

/-- Nothing live requires what has failed, for whatever does has failed with it. -/
theorem not_requires_afterIsolation {d : C}
    (hd : d ∈ c :: (q.afterFailure bs).pool.filter ((q.afterFailure bs).requiring c)) (i : I) :
    ¬Requires (q.afterIsolation c bs).pool i (ident d) := by
  intro hreq
  obtain ⟨j, -, e, he, -, hde⟩ := Relation.TransGen.tail'_iff.1 hreq
  rw [pool_afterIsolation, List.mem_filter, Bool.not_eq_true'] at he
  have hfails : (q.afterFailure bs).requiring c e = true := by
    apply requiring_of_requires he.1 hde
    rcases List.mem_cons.1 hd with rfl | hd
    · exact .inl rfl
    · exact .inr (of_decide_eq_true (List.mem_filter.1 hd).2)
  rw [he.2] at hfails
  cases hfails

variable (hnd : (q.pool.map ident).Nodup)
include hnd

theorem requiring_eq_of_mem {d : C} (hd : d ∈ (q.afterFailure bs).pool) :
    (q.afterFailure bs).requiring c d = decide (q.RequiresFailing c d) := by
  have hne : ident d ≠ ident c := by
    rw [pool_of_single hb, List.map_cons, List.nodup_cons] at hnd
    exact fun heq => hnd.1 (heq ▸ List.mem_map_of_mem hd)
  rw [Bool.eq_iff_iff, requiring_afterFailure_iff hb hne, decide_eq_true_iff]
  rfl

/-- What is left of the lane is one batch, without a key. -/
theorem lane_afterIsolation :
    (q.afterIsolation c bs).lane =
      ⟨[bs.flatten.filter (¬q.RequiresFailing c ·)], none, q.lane.nextKey⟩ := by
  have hbatches : (q.afterIsolation c bs).lane.batches =
      [bs.flatten.filter (¬q.RequiresFailing c ·)] := by
    rw [batches_afterIsolation]
    congr 1
    refine List.filter_congr fun d hd => ?_
    have hpool : d ∈ (q.afterFailure bs).pool :=
      List.mem_append_left _ (changes_afterFailure.symm ▸ hd)
    rw [requiring_eq_of_mem hb hnd hpool, decide_not]
  have hkey : (q.afterIsolation c bs).lane.outstanding = none :=
    (outstanding_withdraw _ _).trans (ite_self none)
  have hcounter : (q.afterIsolation c bs).lane.nextKey = q.lane.nextKey := nextKey_withdraw _ _
  rw [← hbatches, ← hkey, ← hcounter]

theorem waiting_afterIsolation :
    (q.afterIsolation c bs).waiting = q.waiting.filter (¬q.RequiresFailing c ·.change) := by
  refine List.filter_congr fun w hw => ?_
  have hpool : w.change ∈ (q.afterFailure bs).pool := mem_pool_of_waiting hw
  rw [requiring_eq_of_mem hb hnd hpool, decide_not]

theorem failedAlong_report (hk : q.lane.outstanding = some key) :
    FailedAlong c q (q.report .fail key).1 (q.report .fail key).2 := by
  have hrest : q.lane.changes.tail = bs.flatten := by
    rw [changes_of_batches hb]
    rfl
  have hpool : (q.afterFailure bs).pool = bs.flatten ++ q.awaiting := by
    rw [pool, changes_afterFailure]
    rfl
  rw [report_of_single hk hb]
  constructor
  case none_passed => rfl
  case failed =>
    rw [List.filter_congr fun d hd => requiring_eq_of_mem hb hnd hd, hpool, List.filter_append,
      hrest]
  case lane =>
    rw [hrest]
    exact lane_afterIsolation hb hnd
  case waiting => exact waiting_afterIsolation hb hnd
  case severed => exact fun d hd i => not_requires_afterIsolation hb hd i

end Single

/-- In every queue that can be reached, a failing test of two or more changes halves the head and
does nothing else; a failing test of a single change fails it with exactly what requires it, and
leaves nothing that requires anything that has failed. -/
theorem failure_cascades_exactly [DecidableEq C] (reached : q.Reached)
    (outstanding : q.lane.outstanding = some key) :
    2 ≤ q.lane.head.length ∧ Halved q (q.report .fail key).1 (q.report .fail key).2 ∨
      ∃ c, q.lane.head = [c] ∧ FailedAlong c q (q.report .fail key).1 (q.report .fail key).2 := by
  obtain ⟨b, b', bs, hb, hne⟩ :=
    reached.lane.shaped.head_guarded.batches_eq (outstanding ▸ Option.some_ne_none key)
  have hhead : q.lane.head = b := by rw [head, hb, List.headD_cons]
  by_cases hlen : 2 ≤ b.length
  · exact .inl ⟨hhead ▸ hlen, halved_report outstanding hb hlen⟩
  · obtain ⟨c, rfl⟩ := eq_singleton_of_not_two_le hne hlen
    exact .inr ⟨c, hhead, failedAlong_report hb reached.parked.distinct outstanding⟩

def probe : ChangeRecord := ⟨⟨"h"⟩, .empty⟩

/-- What stands behind the probe. The second requires a change that left and came back. -/
def behindProbe : List ChangeRecord := [⟨⟨"x"⟩, .empty⟩, ⟨⟨"l"⟩, .ofList [⟨"w"⟩]⟩]

/-- The change that came back waits and requires the probe, and another that waits requires what
requires the one that came back. -/
def relayed (front : List (List ChangeRecord)) : Queue ChangeRecord ChangeId where
  lane := ⟨front ++ [[⟨⟨"y"⟩, .ofList [⟨"x"⟩]⟩]], some ⟨4⟩, 5⟩
  waiting := [⟨⟨⟨"w"⟩, .ofList [⟨"h"⟩, ⟨"z"⟩]⟩, [⟨"z"⟩]⟩,
    ⟨⟨⟨"u"⟩, .ofList [⟨"x"⟩, ⟨"z"⟩]⟩, [⟨"z"⟩]⟩, ⟨⟨⟨"v"⟩, .ofList [⟨"l"⟩, ⟨"z"⟩]⟩, [⟨"z"⟩]⟩]

/-- Alone under test, the probe takes along a chain that leads to and fro between the lane and what
waits. Together with others it is halved. -/
theorem relayed_cascades_exactly :
    ((relayed [[probe], behindProbe]).Reached ∧
      ((relayed [[probe], behindProbe]).report .fail ⟨4⟩).1.failed.map (·.id.text) =
        ["h", "l", "w", "v"] ∧
      FailedAlong probe (relayed [[probe], behindProbe])
        ((relayed [[probe], behindProbe]).report .fail ⟨4⟩).1
        ((relayed [[probe], behindProbe]).report .fail ⟨4⟩).2) ∧
    (relayed [probe :: behindProbe]).Reached ∧
      Halved (relayed [probe :: behindProbe])
        ((relayed [probe :: behindProbe]).report .fail ⟨4⟩).1
        ((relayed [probe :: behindProbe]).report .fail ⟨4⟩).2 := by
  have halone : (relayed [[probe], behindProbe]).Reached := by
    have hparts : restore (relayed [[probe], behindProbe]).lane.batches (some ⟨4⟩) 5
        (relayed []).awaiting = .ok (relayed [[probe], behindProbe]) := by decide +kernel
    exact .restored hparts
  have htogether : (relayed [probe :: behindProbe]).Reached := by
    have hparts : restore (relayed [probe :: behindProbe]).lane.batches (some ⟨4⟩) 5
        (relayed []).awaiting = .ok (relayed [probe :: behindProbe]) := by decide +kernel
    exact .restored hparts
  refine ⟨⟨halone, by decide +kernel, ?_⟩, htogether, ?_⟩
  · rcases failure_cascades_exactly halone rfl with ⟨hlen, -⟩ | ⟨c, hhead, hfailed⟩
    · exact absurd hlen (show ¬2 ≤ 1 by decide)
    · cases hhead
      exact hfailed
  · rcases failure_cascades_exactly htogether rfl with ⟨-, hhalved⟩ | ⟨c, hhead, -⟩
    · exact hhalved
    · exact absurd (congrArg List.length hhead) (show 3 ≠ 1 by decide)

end MergeQueue.Queue
