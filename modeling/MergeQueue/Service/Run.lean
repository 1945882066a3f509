import MergeQueue.Queue.Run
import MergeQueue.Service

/-!
# Runs of a service

A service that keeps snapshots stands at a site, where a start finds the snapshot that was stored
last. Requests arrive there one after another, each at its time, and storing a snapshot may fail
for any of them, before or after the new one took the place of the old. Between them the service may
be started anew.
-/
namespace MergeQueue

open Text

def Request.Asks (r : Request) (route : Route) : Prop :=
  Route.ofPath r.path = some route ∧ r.method = route.method

instance (r : Request) (route : Route) : Decidable (r.Asks route) :=
  inferInstanceAs (Decidable (_ ∧ _))

/-- How storing a snapshot ends. When it fails, the new snapshot may already stand in the place of
the old one. -/
inductive Storing
  | done
  | failed (replaced : Bool)
deriving DecidableEq

namespace Storing

def isDone : Storing → Bool
  | done => true
  | failed _ => false

def replaces : Storing → Bool
  | done => true
  | failed replaced => replaced

end Storing

/-- A request that arrives, the time it arrives at, and how storing a snapshot for it would end. -/
structure Arrival where
  request : Request
  now : Timestamp
  storing : Storing
  now_valid : now.IsValid

structure Exchange where
  request : Request
  reply : Reply

/-- A service that keeps snapshots, and what a start finds. -/
structure Site where
  service : Service
  disk : Stored

namespace Site

def start (disk : Stored) : Except (LoadFault ChangeRecord ChangeId) Site :=
  (Service.start true none disk).map fun s => ⟨s, disk⟩

def restart (s : Site) : Except (LoadFault ChangeRecord ChangeId) Site := start s.disk

def handled (s : Site) (a : Arrival) : Handled :=
  s.service.handle a.now a.storing.isDone a.request

/-- The snapshot that is to be stored for a request, whether or not that succeeds. -/
def attempt (s : Site) (a : Arrival) : Option String :=
  (s.service.handle a.now true a.request).saved

/-- What a start finds after a request. -/
def diskAfter (s : Site) (a : Arrival) : Stored :=
  match s.attempt a with
  | some t => if a.storing.replaces then .text (Symbol.ofString t) else s.disk
  | none => s.disk

def after (s : Site) (a : Arrival) : Site := ⟨(s.handled a).service, s.diskAfter a⟩

def afterAll (s : Site) (as : List Arrival) : Site := as.foldl after s

inductive Event
  | arrival (a : Arrival)
  | restart

/-- What is answered, and the site at the end. It ends where the service cannot be started. -/
def run (s : Site) : List Event → Except (LoadFault ChangeRecord ChangeId) (List Exchange × Site)
  | [] => .ok ([], s)
  | .arrival a :: es =>
    ((s.after a).run es).map fun (xs, s') => (⟨a.request, (s.handled a).reply⟩ :: xs, s')
  | .restart :: es =>
    match s.restart with
    | .error f => .error f
    | .ok s => s.run es

def arrivals : List Event → List Arrival
  | [] => []
  | .arrival a :: es => a :: arrivals es
  | .restart :: es => arrivals es

/-- Whenever a test is asked for, a key can be minted. -/
def CanMintAll : Site → List Arrival → Prop
  | _, [] => True
  | s, a :: as =>
    (a.request.Asks .nextTest → s.service.queue.lane.CanMint) ∧ CanMintAll (s.after a) as

instance decidableCanMintAll : (s : Site) → (as : List Arrival) → Decidable (s.CanMintAll as)
  | _, [] => isTrue trivial
  | s, a :: as =>
    have := decidableCanMintAll (s.after a) as
    inferInstanceAs (Decidable (_ ∧ _))

end Site

end MergeQueue
