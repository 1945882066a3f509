import MergeQueue.Lane
import MergeQueue.Change
import MergeQueue.Requirement

/-!
# The queue

A lane, and beside it the changes that wait. A change enters the lane once everything it requires
stands there; until then it waits, with the identities that were missing when it was parked.
-/
namespace MergeQueue

/-- A change that waits, and the identities it was parked for. -/
structure Waiting (C I : Type) where
  change : C
  missing : List I
deriving DecidableEq, Repr

/-- A lane and the changes that wait to enter it, in the order in which they were parked. -/
structure Queue (C I : Type) where
  lane : Lane C
  waiting : List (Waiting C I)
deriving DecidableEq, Repr

namespace Queue

variable {C I : Type}

def empty : Queue C I := ⟨.empty, []⟩

def awaiting (q : Queue C I) : List C := q.waiting.map Waiting.change

/-- All live changes: those in the lane in the order of their tests, then those that wait. -/
def pool (q : Queue C I) : List C := q.lane.changes ++ q.awaiting

/-- A change with this identity is live. -/
def holds [Change C I] [DecidableEq I] (i : I) (q : Queue C I) : Bool :=
  q.pool.any fun c => ident c = i

def dispatch (q : Queue C I) : Option (Dispatch C) × Queue C I :=
  let (d, lane) := q.lane.dispatch
  (d, { q with lane })

def withdraw (p : C → Bool) (q : Queue C I) : List C × Queue C I :=
  let (out, lane) := q.lane.withdraw p
  (out, { q with lane })

/-- Takes out the waiting changes that `p` holds of, in their order. -/
def displace (p : C → Bool) (q : Queue C I) : List C × Queue C I :=
  (q.awaiting.filter p, { q with waiting := q.waiting.filter fun w => !p w.change })

theorem holds_iff [Change C I] [DecidableEq I] {i : I} {q : Queue C I} :
    q.holds i = true ↔ i ∈ q.pool.map ident := by
  simp [holds]

/-!
## Settling

Candidates are admitted to the lane in passes. A candidate is admitted once every identity it
requires stands in the lane or was admitted before it; passes are repeated until one admits
nothing. Those left over wait.
-/

variable [Change C I] [DecidableEq I]

/-- One pass over the candidates: each whose requirements are visible is admitted and visible from
then on. The admitted ones and the blocked ones, in order. -/
def admitPass (visible : List I) : List C → List C × List C
  | [] => ([], [])
  | c :: cs =>
    if (requires c).all (· ∈ visible) then
      let (admitted, blocked) := admitPass (ident c :: visible) cs
      (c :: admitted, blocked)
    else
      let (admitted, blocked) := admitPass visible cs
      (admitted, c :: blocked)

theorem length_admitPass (visible : List I) (cs : List C) :
    (admitPass visible cs).1.length + (admitPass visible cs).2.length = cs.length := by
  induction cs generalizing visible with
  | nil => rfl
  | cons c cs ih =>
    rw [admitPass]
    split
    · have := ih (ident c :: visible)
      simp
      omega
    · have := ih visible
      simp
      omega

/-- Passes over the candidates until a pass admits none. The admitted ones in order of admission,
and those left over. -/
def admitAll (visible : List I) (candidates : List C) : List C × List C :=
  match _h : admitPass visible candidates with
  | ([], blocked) => ([], blocked)
  | (c :: admitted, blocked) =>
    let (later, left) := admitAll ((c :: admitted).map ident ++ visible) blocked
    (c :: admitted ++ later, left)
termination_by candidates.length
decreasing_by
  have := length_admitPass visible candidates
  simp only [_h, List.length_cons] at this
  omega

/-- Parks a change for the identities it requires that are not visible. -/
def park (visible : List I) (c : C) : Waiting C I :=
  ⟨c, (requires c).filter (· ∉ visible)⟩

/-- Admits what can be admitted of the candidates, and lets the rest wait. The admitted changes
come in the order of their admission, each behind all that it requires. -/
def settle [DecidableEq C] (candidates : List C) (q : Queue C I) : List C × Queue C I :=
  let visible := q.lane.changes.map ident
  let (added, left) := admitAll visible candidates
  (added,
    { lane := added.foldl (fun l c => (l.enqueue c).2) q.lane
      waiting := q.waiting ++ left.map (park (added.map ident ++ visible)) })

/-!
## Submitting and reporting

A submitted change enters the lane or waits, and may let waiting changes in. One that would
require itself is turned away together with everything that requires it. A change that fails takes
everything that requires it down with it; passing has no such effect.
-/

variable [DecidableEq C]

/-- Takes a change in. A change whose identity is live is ignored. A change that closes a cycle is
rejected, and after it its dependants: the lane's in the order of their tests, then those that
wait. Any other is settled together with the waiting changes that require it. -/
def submit (c : C) (q : Queue C I) : Admission C × Queue C I :=
  if q.holds (ident c) then (.none, q)
  else
    let doomed := (RequiredBy.ofPool (q.pool ++ [c])).closure (ident c)
    let (displaced, q) := q.displace fun d => ident d ∈ doomed
    if ident c ∈ doomed then
      let (queued, q) := q.withdraw fun d => ident d ∈ doomed
      (⟨[], c :: queued ++ displaced⟩, q)
    else
      let (added, q) := q.settle (c :: displaced)
      (⟨added, []⟩, q)

/-- Fails, after the changes in `failed`, every live change that requires one of them: the lane's
in the order of their tests, then those that wait. -/
def failDependants (failed : List C) (q : Queue C I) : List C × Queue C I :=
  let index := RequiredBy.ofPool q.pool
  let doomed := failed.flatMap fun c => index.closure (ident c)
  if doomed.isEmpty then (failed, q)
  else
    let (queued, q) := q.withdraw fun c => ident c ∈ doomed
    let (waiting, q) := q.displace fun c => ident c ∈ doomed
    (failed ++ queued ++ waiting, q)

def report (verdict : Verdict) (key : TestKey) (q : Queue C I) : Outcome C × Queue C I :=
  let (outcome, lane) := q.lane.report verdict key
  let q := { q with lane }
  if outcome.failed.isEmpty then (outcome, q)
  else
    let (failed, q) := q.failDependants outcome.failed
    ({ outcome with failed }, q)

def drain (bad : C → Bool) (limit : Nat) (q : Queue C I) : List (DrainEntry C) × Queue C I :=
  drainWith Queue.dispatch Queue.report bad limit q

/-!
## A queue from its parts

A lane and the changes that were waiting make a queue if no identity is in it twice. What the
waiting changes miss is found anew, and those that miss nothing enter the lane.
-/

def ofLane (lane : Lane C) (awaiting : List C) : Except (Inconsistency C I) (Queue C I) :=
  match firstRepeat ((lane.changes ++ awaiting).map ident) with
  | some i => .error (.repeatedIdentity i)
  | none => .ok (settle awaiting ⟨lane, []⟩).2

def restore (batches : List (List C)) (outstanding : Option TestKey) (nextKey : UInt64)
    (awaiting : List C) : Except (Inconsistency C I) (Queue C I) :=
  match Lane.restore batches outstanding nextKey with
  | .error f => .error f
  | .ok lane => ofLane lane awaiting

/-- Makes a queue again of its own parts. -/
def reopen (q : Queue C I) : Except (Inconsistency C I) (Queue C I) :=
  restore q.lane.batches q.lane.outstanding q.lane.nextKey q.awaiting

end Queue

end MergeQueue
