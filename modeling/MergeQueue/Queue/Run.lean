import MergeQueue.Lane.Run
import MergeQueue.Queue

/-!
# Runs of a queue

The actions on a queue and what each answers; the steps of a run from a given queue; and the
queues that can be reached from the empty queue or from consistent parts, with and without the
condition that a key is minted only while the counter can still go up.
-/
namespace MergeQueue.Queue

inductive Action (C : Type)
  | submit (c : C)
  | dispatch
  | report (verdict : Verdict) (key : TestKey)
  | reopen
deriving DecidableEq, Repr

inductive Answer (C : Type)
  | admission (a : Admission C)
  | dispatched (d : Option (Dispatch C))
  | reported (o : Outcome C)
  | reopened
deriving DecidableEq, Repr

variable {C I : Type} [DecidableEq C] [DecidableEq I] [Change C I]

/-- A queue that cannot be reopened stays as it is. -/
def act (q : Queue C I) : Action C → Answer C × Queue C I
  | .submit c => (.admission (q.submit c).1, (q.submit c).2)
  | .dispatch => (.dispatched q.dispatch.1, q.dispatch.2)
  | .report verdict key => (.reported (q.report verdict key).1, (q.report verdict key).2)
  | .reopen => (.reopened, q.reopen.toOption.getD q)

structure Step (C I : Type) where
  before : Queue C I
  action : Action C
  answer : Answer C
  after : Queue C I

def run (q : Queue C I) : List (Action C) → List (Step C I)
  | [] => []
  | a :: as => ⟨q, a, (q.act a).1, (q.act a).2⟩ :: run (q.act a).2 as

def afterRun (q : Queue C I) (as : List (Action C)) : Queue C I :=
  as.foldl (fun q a => (q.act a).2) q

/-- Every step of the run that mints a key can do so. -/
def CanMintAll (steps : List (Step C I)) : Prop :=
  ∀ s ∈ steps, s.action = .dispatch → s.before.lane.CanMint

/-- Can be reached from the empty queue or from one made of a lane that can be reached, where
batches are handed out only of lanes that `mint` holds of. -/
inductive ReachedBy (mint : Lane C → Prop) : Queue C I → Prop
  | empty : ReachedBy mint .empty
  | made {lane : Lane C} {awaiting : List C} {q : Queue C I} (hlane : lane.ReachedBy mint)
      (h : ofLane lane awaiting = .ok q) : ReachedBy mint q
  | act {q : Queue C I} (h : ReachedBy mint q) (a : Action C) (can : a = .dispatch → mint q.lane) :
      ReachedBy mint (q.act a).2

/-- Can be reached while the counter goes up. -/
abbrev Reachable (q : Queue C I) : Prop := q.ReachedBy Lane.CanMint

/-- Can be reached, also by minting from the last value of the counter, which then starts over. -/
abbrev Reached (q : Queue C I) : Prop := q.ReachedBy fun _ => True

end MergeQueue.Queue
