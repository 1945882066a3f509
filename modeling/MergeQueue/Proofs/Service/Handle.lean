import MergeQueue.Service.Run

/-!
# What a request asks of the queue

A request asks for one action of the queue or for none. Those that ask for one are all handled
alike: the queue acts, the service stores a snapshot if that counts as a change, and the answer of
the queue is sent.
-/
namespace MergeQueue

open Json

namespace Request

variable {r : Request} {a : Queue.Action ChangeRecord}

def actionAt (r : Request) : Route → Option (Queue.Action ChangeRecord)
  | .changes => (Service.readChange r).toOption.map .submit
  | .nextTest => some .dispatch
  | .report verdict key => (Route.readKey key).map (.report verdict)
  | .queue | .health => none

def action (r : Request) : Option (Queue.Action ChangeRecord) :=
  match Route.ofPath r.path with
  | none => none
  | some route => if r.method = route.method then r.actionAt route else none

theorem action_of_asks {route : Route} (h : r.Asks route) : r.action = r.actionAt route := by
  rw [action, h.1]
  exact if_pos h.2

theorem exists_of_action (h : r.action = some a) :
    ∃ route, r.Asks route ∧ r.actionAt route = some a := by
  cases hroute : Route.ofPath r.path with
  | none => simp [action, hroute] at h
  | some route =>
    by_cases hm : r.method = route.method
    · exact ⟨route, ⟨hroute, hm⟩, action_of_asks ⟨hroute, hm⟩ ▸ h⟩
    · simp [action, hroute, hm] at h

theorem asks_of_action (h : r.action = some .dispatch) : r.Asks .nextTest := by
  obtain ⟨route, hr, ha⟩ := exists_of_action h
  cases route with
  | nextTest => exact hr
  | changes | report =>
    obtain ⟨_, _, he⟩ := Option.map_eq_some_iff.1 ha
    cases he
  | queue | health => cases ha

end Request

/-- The reply that sends an answer of the queue. A queue is never reopened for a request. -/
def Reply.ofAnswer : Queue.Answer ChangeRecord → Reply
  | .admission a => .ok (Admission.form ChangeRecord.form) a
  | .dispatched d => .ok NextTest.form (.ofDispatch d)
  | .reported o => .ok (Outcome.form ChangeRecord.form) o
  | .reopened => .alive

namespace Service

/-- A submission counts as a change in any case, a test if it mints a key, and a report if it clears
a key or classifies a change. -/
def mustStore (q : Queue ChangeRecord ChangeId) : Queue.Action ChangeRecord → Bool
  | .submit _ | .reopen => true
  | .dispatch => q.dispatch.2.lane.outstanding ≠ q.lane.outstanding
  | .report verdict key =>
    (q.report verdict key).2.lane.outstanding ≠ q.lane.outstanding ||
      !(q.report verdict key).1.isNone

def perform (now : Timestamp) (writable : Bool) (s : Service) (a : Queue.Action ChangeRecord) :
    Handled :=
  let q := (s.queue.act a).2
  let reply := Reply.ofAnswer (s.queue.act a).1
  if mustStore s.queue a then s.save now writable q reply else ⟨reply, none, { s with queue := q }⟩

variable (now : Timestamp) (writable : Bool) (s : Service)

theorem nextTest_eq_perform : s.nextTest now writable = s.perform now writable .dispatch := by
  unfold nextTest perform mustStore
  by_cases h : s.queue.dispatch.2.lane.outstanding = s.queue.lane.outstanding
  · simp [Queue.act, Reply.ofAnswer, h]
  · simp [Queue.act, Reply.ofAnswer, h]

theorem report_eq_perform (verdict : Verdict) (key : TestKey) :
    s.report now writable verdict key = s.perform now writable (.report verdict key) := by
  unfold report perform mustStore
  by_cases h : (s.queue.report verdict key).2.lane.outstanding = s.queue.lane.outstanding
  · cases ho : (s.queue.report verdict key).1.isNone <;> simp [Queue.act, Reply.ofAnswer, h, ho]
  · simp [Queue.act, Reply.ofAnswer, h]

variable {r : Request}

theorem handle_of_asks {route : Route} (h : r.Asks route) :
    s.handle now writable r = s.respond now writable r route := by
  rw [handle, h.1]
  exact if_pos h.2

/-- A request for the queue shows it as it is. -/
theorem handle_of_asks_queue (h : r.Asks .queue) :
    s.handle now writable r = s.answer (.ok QueueStatus.form (.ofQueue s.queue)) :=
  handle_of_asks now writable s h

/-- A request that asks for an action lets the queue act. -/
theorem handle_of_action {a : Queue.Action ChangeRecord} (h : r.action = some a) :
    s.handle now writable r = s.perform now writable a := by
  obtain ⟨route, hr, ha⟩ := Request.exists_of_action h
  rw [handle_of_asks now writable s hr]
  cases route with
  | changes =>
    obtain ⟨c, hc, rfl⟩ := Option.map_eq_some_iff.1 ha
    cases hread : readChange r with
    | error reply => simp [hread, Except.toOption] at hc
    | ok d =>
      simp only [hread, Except.toOption, Option.some.injEq] at hc
      subst hc
      simp only [respond, submit, hread]
      rfl
  | nextTest =>
    cases ha
    exact nextTest_eq_perform now writable s
  | report verdict key =>
    obtain ⟨k, hk, rfl⟩ := Option.map_eq_some_iff.1 ha
    simp only [respond, hk]
    exact report_eq_perform now writable s verdict k
  | queue | health => cases ha

/-- Any request but one for the queue that asks for no action has the same reply in every state. -/
theorem handle_of_no_action (ha : r.action = none) (hq : ¬r.Asks .queue) :
    ∃ reply, ∀ now writable s, handle now writable r s = s.answer reply := by
  cases hroute : Route.ofPath r.path with
  | none => exact ⟨.notFound, fun _ _ _ => by rw [handle, hroute]⟩
  | some route =>
    by_cases hm : r.method = route.method
    · have hr : r.Asks route := ⟨hroute, hm⟩
      rw [Request.action_of_asks hr] at ha
      simp only [handle_of_asks _ _ _ hr]
      cases route with
      | changes =>
        cases hread : readChange r with
        | error reply => exact ⟨reply, fun _ _ _ => by simp only [respond, submit, hread]⟩
        | ok c => simp [Request.actionAt, hread, Except.toOption] at ha
      | nextTest => cases ha
      | report verdict key =>
        have hk : Route.readKey key = none := Option.map_eq_none_iff.1 ha
        exact ⟨.invalidPath, fun _ _ _ => by simp only [respond, hk]⟩
      | queue => exact absurd hr hq
      | health => exact ⟨.alive, fun _ _ _ => rfl⟩
    · by_cases hhead : r.method = "HEAD" ∧ route.method = "GET"
      · -- without their bodies the two replies to a GET are one
        refine ⟨⟨200, ""⟩, fun now writable s => ?_⟩
        rw [handle, hroute]
        refine (if_neg hm).trans ((if_pos hhead).trans ?_)
        cases route with
        | queue | health => rfl
        | changes | nextTest | report =>
          exact absurd (show "POST" = "GET" from hhead.2) (by decide)
      · refine ⟨.methodNotAllowed, fun now writable s => ?_⟩
        rw [handle, hroute]
        exact (if_neg hm).trans (if_neg hhead)

end Service

end MergeQueue
