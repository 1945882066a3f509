import MergeQueue.Queue
import MergeQueue.Service.Request
import MergeQueue.Service.Reply
import MergeQueue.Snapshot
import MergeQueue.Text.Basic

/-!
# The service

The service holds one queue of submitted changes and answers requests one after another. If it
keeps snapshots, it stores one after each request that changed the queue, before it answers; a
submission counts as a change in any case. When that fails the answer says so, and the change to
the queue stays. Started anew, the service goes on with the stored queue.
-/
namespace MergeQueue

open Json Text

/-- A request. A header that is not there is `none`; a body that is not there is empty. -/
structure Request where
  method : String
  path : String
  contentType : Option String
  body : ByteArray

/-- The queue that the service holds, whether it keeps snapshots, and the last one stored. -/
structure Service where
  queue : Queue ChangeRecord ChangeId
  keeps : Bool
  stored : Option String
deriving DecidableEq

/-- What a request led to: the reply, the snapshot that was stored, and the service from then on. -/
structure Handled where
  reply : Reply
  saved : Option String
  service : Service

namespace Service

def bodyLimit : Nat := 2097152

/-- Starts with the queue of the snapshot that is found, or with an empty one if there is none. -/
def start (keeps : Bool) (stored : Option String) (found : Stored) :
    Except (LoadFault ChangeRecord ChangeId) Service :=
  match Snapshot.load ChangeRecord.form found with
  | .error f => .error f
  | .ok none => .ok ⟨.empty, keeps, stored⟩
  | .ok (some s) =>
    match s.toQueue with
    | .error why => .error (.inconsistent why)
    | .ok q => .ok ⟨q, keeps, stored⟩

/-- What a start after this service finds. Nothing is looked for unless snapshots are kept. -/
def found (s : Service) : Stored :=
  match s.keeps, s.stored with
  | true, some t => .text (Symbol.ofString t)
  | _, _ => .nothing

def restart (s : Service) : Except (LoadFault ChangeRecord ChangeId) Service :=
  start s.keeps s.stored s.found

def answer (s : Service) (reply : Reply) : Handled := ⟨reply, none, s⟩

/-- Goes on with a queue that is to be stored, and answers with `reply` unless that fails. -/
def save (now : Timestamp) (writable : Bool) (s : Service) (q : Queue ChangeRecord ChangeId)
    (reply : Reply) : Handled :=
  if s.keeps then
    if writable then
      let t := (Snapshot.ofQueue now q).text ChangeRecord.form
      ⟨reply, some t, { s with queue := q, stored := some t }⟩
    else ⟨.notSaved, none, { s with queue := q }⟩
  else ⟨reply, none, { s with queue := q }⟩

def readChange (r : Request) : Except Reply ChangeRecord :=
  if !(r.contentType.any fun t => MediaType.announcesJson t.toList) then .error .notJsonType
  else if bodyLimit < r.body.size then .error .tooLarge
  else
    match ChangeRecord.form.parse (Symbol.ofBytes r.body) with
    | .error f => .error (.ofFault f)
    | .ok c => if isBlank c.id.text.toList then .error .blankId else .ok c

/-- Submits a change. It is stored in any case. -/
def submit (now : Timestamp) (writable : Bool) (r : Request) (s : Service) : Handled :=
  match readChange r with
  | .error reply => s.answer reply
  | .ok c =>
    let (admission, q) := s.queue.submit c
    s.save now writable q (.ok (Admission.form ChangeRecord.form) admission)

/-- Hands out the next test. It is stored if this minted a key. -/
def nextTest (now : Timestamp) (writable : Bool) (s : Service) : Handled :=
  let (d, q) := s.queue.dispatch
  let reply := Reply.ok NextTest.form (.ofDispatch d)
  if q.lane.outstanding = s.queue.lane.outstanding then
    ⟨reply, none, { s with queue := q }⟩
  else s.save now writable q reply

/-- Takes a report. It is stored if it cleared a key or classified a change. -/
def report (now : Timestamp) (writable : Bool) (verdict : Verdict) (key : TestKey) (s : Service) :
    Handled :=
  let (outcome, q) := s.queue.report verdict key
  let reply := Reply.ok (Outcome.form ChangeRecord.form) outcome
  if q.lane.outstanding = s.queue.lane.outstanding ∧ outcome.isNone then
    ⟨reply, none, { s with queue := q }⟩
  else s.save now writable q reply

def respond (now : Timestamp) (writable : Bool) (r : Request) (route : Route) (s : Service) :
    Handled :=
  match route with
  | .changes => s.submit now writable r
  | .nextTest => s.nextTest now writable
  | .report verdict key =>
    match Route.readKey key with
    | some key => s.report now writable verdict key
    | none => s.answer .invalidPath
  | .queue => s.answer (.ok QueueStatus.form (.ofQueue s.queue))
  | .health => s.answer .alive

/-- Answers a request. `now` is the time that a snapshot would be stored under, and `writable`
says whether storing it would succeed. -/
def handle (now : Timestamp) (writable : Bool) (r : Request) (s : Service) : Handled :=
  match Route.ofPath r.path with
  | none => s.answer .notFound
  | some route =>
    if r.method = route.method then s.respond now writable r route
    else if r.method = "HEAD" ∧ route.method = "GET" then
      let h := s.respond now writable r route
      { h with reply := h.reply.headOnly }
    else s.answer .methodNotAllowed

end Service

end MergeQueue
