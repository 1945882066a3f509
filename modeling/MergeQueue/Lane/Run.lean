import MergeQueue.Lane

/-!
# Runs of a lane

The actions on a lane, what each answers, and the steps of a run. Of the actions a user of the lane
calls all but the withdrawals, which a queue around it makes. Then the lanes that can be reached
from the empty lane or from consistent parts, with and without the condition that a key is minted
only while the counter can still go up.
-/
namespace MergeQueue.Lane

variable {C : Type}

inductive Action (C : Type)
  | enqueue (c : C)
  | dispatch
  | report (verdict : Verdict) (key : TestKey)
  | withdraw (p : C → Bool)

inductive Call (C : Type)
  | enqueue (c : C)
  | dispatch
  | report (verdict : Verdict) (key : TestKey)
deriving DecidableEq, Repr

def Call.action : Call C → Action C
  | enqueue c => .enqueue c
  | dispatch => .dispatch
  | report verdict key => .report verdict key

inductive Answer (C : Type)
  | enqueued (added : Bool)
  | dispatched (d : Option (Dispatch C))
  | reported (o : Outcome C)
  | withdrawn (cs : List C)
deriving DecidableEq, Repr

/-- No key is minted from the last value of the counter. -/
def CanMint (l : Lane C) : Prop := l.outstanding = none → l.nextKey.toNat + 1 < UInt64.size

instance (l : Lane C) : Decidable l.CanMint := inferInstanceAs (Decidable (_ → _))

variable [DecidableEq C]

def act (l : Lane C) : Action C → Answer C × Lane C
  | .enqueue c => (.enqueued (l.enqueue c).1, (l.enqueue c).2)
  | .dispatch => (.dispatched l.dispatch.1, l.dispatch.2)
  | .report verdict key => (.reported (l.report verdict key).1, (l.report verdict key).2)
  | .withdraw p => (.withdrawn (l.withdraw p).1, (l.withdraw p).2)

structure Step (C : Type) where
  before : Lane C
  action : Action C
  answer : Answer C
  after : Lane C

def step (l : Lane C) (a : Action C) : Step C := ⟨l, a, (l.act a).1, (l.act a).2⟩

def run (l : Lane C) : List (Action C) → List (Step C)
  | [] => []
  | a :: as => l.step a :: run (l.act a).2 as

def afterRun (l : Lane C) (as : List (Action C)) : Lane C := as.foldl (fun l a => (l.act a).2) l

/-- Can be reached from the empty lane or from consistent parts, where batches are handed out only
of lanes that `mint` holds of. -/
inductive ReachedBy (mint : Lane C → Prop) : Lane C → Prop
  | empty : ReachedBy mint .empty
  | restored {I : Type} {batches : List (List C)} {outstanding : Option TestKey}
      {nextKey : UInt64} {l : Lane C}
      (h : restore batches outstanding nextKey = (.ok l : Except (Inconsistency C I) (Lane C))) :
      ReachedBy mint l
  | act {l : Lane C} (h : ReachedBy mint l) (a : Action C) (can : a = .dispatch → mint l) :
      ReachedBy mint (l.act a).2

/-- Can be reached while the counter goes up. -/
abbrev Reachable (l : Lane C) : Prop := l.ReachedBy CanMint

/-- Can be reached, also by minting from the last value of the counter, which then starts over. -/
abbrev Reached (l : Lane C) : Prop := l.ReachedBy fun _ => True

end MergeQueue.Lane
