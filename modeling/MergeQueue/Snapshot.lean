import MergeQueue.Json.Form
import MergeQueue.Queue
import MergeQueue.Form
import MergeQueue.Timestamp

/-!
# Snapshots

A snapshot holds what a queue is made of: its batches, the outstanding key, the counter and the
waiting changes. What these miss is left out, since it is found anew when the queue is made again.
A snapshot is stored as JSON in the wide layout, with the version of this form and the time at
which it was taken.
-/
namespace MergeQueue

open Json Text

structure Snapshot (C : Type) where
  version : UInt32
  takenAt : Timestamp
  batches : List (List C)
  outstanding : Option TestKey
  nextKey : UInt64
  awaiting : List C
deriving DecidableEq, Repr

def Timestamp.form : Form Timestamp :=
  .ofPartial (fun t => String.ofList t.text) (fun s => Timestamp.read s.toList) .text

inductive LoadFault (C I : Type)
  | unreadable
  | notJson
  | otherVersion (got : UInt32)
  | inconsistent (why : Inconsistency C I)
deriving DecidableEq, Repr

inductive Stored
  | nothing
  | text (s : List Symbol)
  | unreadable
deriving DecidableEq, Repr

namespace Snapshot

variable {C I : Type}

/-- The version that is written, and the only one that is taken back. -/
def currentVersion : UInt32 := 1

/-- What a queue is made of. -/
def ofQueue (now : Timestamp) (q : Queue C I) : Snapshot C where
  version := currentVersion
  takenAt := now
  batches := q.lane.batches
  outstanding := q.lane.outstanding
  nextKey := q.lane.nextKey
  awaiting := q.awaiting

def toQueue [DecidableEq C] [DecidableEq I] [Change C I] (s : Snapshot C) :
    Except (Inconsistency C I) (Queue C I) :=
  Queue.restore s.batches s.outstanding s.nextKey s.awaiting

/-- A queue that is made again of its snapshot is the queue reopened. -/
theorem toQueue_ofQueue [DecidableEq C] [DecidableEq I] [Change C I] (now : Timestamp)
    (q : Queue C I) : (ofQueue now q).toQueue = q.reopen := rfl

/-- The waiting changes come last and may be left out. -/
def awaitingMember (f : Form C) : Member (List C) where
  name := "awaiting"
  form := .list f
  absent := some []
  cutOff := some []
  omits _ := false

def form (f : Form C) : Form (Snapshot C) :=
  .ofMap
    (fun s => (s.version, s.takenAt, s.batches, s.outstanding, s.nextKey, s.awaiting))
    (fun (version, takenAt, batches, outstanding, nextKey, awaiting) =>
      ⟨version, takenAt, batches, outstanding, nextKey, awaiting⟩)
    ((Members.one (.required "schema_version" .word32)).and <|
      (Members.one (.required "snapshot_at" Timestamp.form)).and <|
      (Members.one (.required "batches" (.list (.list f)))).and <|
      (Members.one (TestKey.member "test_key")).and <|
      (Members.one (.required "next_key" .word64)).and <|
      (Members.one (awaitingMember f))).form

def text (f : Form C) (s : Snapshot C) : String := (form f).wideText s

/-- Reads a stored text. That it is JSON of this form comes before its version. -/
def ofText (f : Form C) (s : List Symbol) : Except (LoadFault C I) (Snapshot C) :=
  match (form f).parse s with
  | .error _ => .error .notJson
  | .ok s => if s.version = currentVersion then .ok s else .error (.otherVersion s.version)

def load (f : Form C) : Stored → Except (LoadFault C I) (Option (Snapshot C))
  | .nothing => .ok none
  | .text s => (ofText f s).map some
  | .unreadable => .error .unreadable

end Snapshot

namespace LoadFault

variable {C I : Type}

def message [Inspect C] [Inspect I] : LoadFault C I → Option String
  | unreadable => none
  | notJson => none
  | otherVersion got =>
    some ("schema version mismatch: expected " ++ toString Snapshot.currentVersion.toNat ++
      ", got " ++ toString got.toNat)
  | inconsistent why => some ("inconsistent snapshot: " ++ why.message)

end LoadFault

end MergeQueue
