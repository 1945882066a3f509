import MergeQueue.Form
import MergeQueue.Queue

/-!
# Replies

What the service answers with: the next test, or nothing to test; and the status of the queue, with
the identities that each waiting change was parked for.
-/
namespace MergeQueue

open Json

/-- The next test, or no key and no change if there is nothing to test. -/
structure NextTest where
  key : Option TestKey
  changes : List ChangeRecord
deriving DecidableEq

namespace NextTest

def ofDispatch : Option (Dispatch ChangeRecord) → NextTest
  | some d => ⟨some d.key, d.changes⟩
  | none => ⟨none, []⟩

def form : Form NextTest :=
  .ofMap (fun n => (n.key, n.changes)) (fun p => ⟨p.1, p.2⟩)
    ((Members.one (TestKey.member "test_key")).and
      (.one (.required "changes" (.list ChangeRecord.form)))).form

end NextTest

structure WaitingStatus where
  change : ChangeRecord
  missing : IdSet
deriving DecidableEq

namespace WaitingStatus

def ofWaiting (w : Waiting ChangeRecord ChangeId) : WaitingStatus :=
  ⟨w.change, .ofList w.missing⟩

def form : Form WaitingStatus :=
  .ofMap (fun w => (w.change, w.missing)) (fun p => ⟨p.1, p.2⟩)
    ((Members.one (.required "change" ChangeRecord.form)).and
      (.one (.required "missing" IdSet.form))).form

end WaitingStatus

structure QueueStatus where
  outstanding : Option TestKey
  batches : List (List ChangeRecord)
  awaiting : List WaitingStatus
deriving DecidableEq

namespace QueueStatus

def ofQueue (q : Queue ChangeRecord ChangeId) : QueueStatus :=
  ⟨q.lane.outstanding, q.lane.batches, q.waiting.map .ofWaiting⟩

def form : Form QueueStatus :=
  .ofMap (fun q => (q.outstanding, q.batches, q.awaiting)) (fun p => ⟨p.1, p.2.1, p.2.2⟩)
    ((Members.one (TestKey.member "test_key")).and <|
      (Members.one (.required "batches" (.list (.list ChangeRecord.form)))).and <|
      (Members.one (.required "awaiting" (.list WaitingStatus.form)))).form

end QueueStatus

structure Reply where
  status : Nat
  body : String
deriving DecidableEq, Repr

namespace Reply

def ok {α : Type} (f : Form α) (a : α) : Reply := ⟨200, f.compactText a⟩

def alive : Reply := ⟨200, "OK"⟩

def notFound : Reply := ⟨404, ""⟩

def methodNotAllowed : Reply := ⟨405, ""⟩

def invalidPath : Reply := ⟨400, "Invalid URL"⟩

def notJsonType : Reply := ⟨415, "Expected request with `Content-Type: application/json`"⟩

def tooLarge : Reply := ⟨413, "Failed to buffer the request body"⟩

def ofFault : Fault → Reply
  | .malformed => ⟨400, "Failed to parse the request body as JSON"⟩
  | .mismatched => ⟨422, "Failed to deserialize the JSON body into the target type"⟩

def blankId : Reply := ⟨400, "change id must not be blank"⟩

def notSaved : Reply := ⟨500, "failed to persist queue"⟩

def headOnly (r : Reply) : Reply := { r with body := "" }

end Reply

end MergeQueue
