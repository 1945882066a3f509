import MergeQueue.Proofs.Service.Durable

/-!
# Restarts do not show

Two sites whose queues have the same parts answer every request alike, but for what the waiting
changes are shown to miss. As long as every snapshot can be stored, a site that is started anew has
the parts that it had before, so a run goes on as if it had not been interrupted.
-/
namespace MergeQueue

open Json Text

/-- Two replies show the same key, batches and waiting changes. -/
def Reply.ShowsAlike (x y : Reply) : Prop :=
  x.status = 200 ∧ y.status = 200 ∧
    ∃ p q : QueueStatus, QueueStatus.form.parse (Symbol.ofString x.body) = .ok p ∧
      QueueStatus.form.parse (Symbol.ofString y.body) = .ok q ∧ p.outstanding = q.outstanding ∧
      p.batches = q.batches ∧ p.awaiting.map (·.change) = q.awaiting.map (·.change)

/-- The same request with the same reply, or one that shows the same queue. -/
def Exchange.Agrees (x y : Exchange) : Prop :=
  x.request = y.request ∧
    (x.reply = y.reply ∨ x.request.Asks .queue ∧ x.reply.ShowsAlike y.reply)

theorem showsAlike_ofQueue {q q' : Queue ChangeRecord ChangeId} (h : q.SameParts q') :
    (Reply.ok QueueStatus.form (.ofQueue q)).ShowsAlike (.ok QueueStatus.form (.ofQueue q')) := by
  refine ⟨rfl, rfl, _, _, (QueueStatus.recovers _).parse_compactText,
    (QueueStatus.recovers _).parse_compactText, congrArg Lane.outstanding h.lane,
    congrArg Lane.batches h.lane, ?_⟩
  have hshown (q : Queue ChangeRecord ChangeId) :
      (QueueStatus.ofQueue q).awaiting.map (·.change) = q.awaiting := List.map_map
  rw [hshown, hshown, h.awaiting]

namespace Service

variable {s : Service} {a : Queue.Action ChangeRecord} {now : Timestamp} {writable : Bool}

theorem queue_perform : (s.perform now writable a).service.queue = (s.queue.act a).2 := by
  unfold perform save
  split
  · split
    · split <;> rfl
    · rfl
  · rfl

theorem reply_perform : (s.perform now true a).reply = .ofAnswer (s.queue.act a).1 := by
  unfold perform save
  split
  · split <;> rfl
  · rfl

end Service

namespace Site

variable {s t t' : Site}

/-- Both sites would be found again, with queues of the same parts. -/
structure Linked (t t' : Site) : Prop where
  sound : t.Sound
  durable : t.Durable
  sound' : t'.Sound
  durable' : t'.Durable
  same : t.service.queue.SameParts t'.service.queue

theorem Linked.restart (h : Linked t t') : ∃ u, t.restart = .ok u ∧ Linked u t' := by
  obtain ⟨u, hu, hsame⟩ := h.durable
  exact ⟨u, hu, sound_start hu, durable_start hu, h.sound', h.durable', hsame.trans h.same⟩

theorem queue_after_of_action {a : Arrival} {act : Queue.Action ChangeRecord}
    (ha : a.request.action = some act) :
    (s.after a).service.queue = (s.service.queue.act act).2 := by
  rw [after, handled_of_action ha]
  exact Service.queue_perform

/-- The next request finds queues of the same parts and leaves such, and its replies agree. -/
theorem Linked.after (h : Linked t t') {a : Arrival} (hs : a.storing = .done)
    (mint : a.request.Asks .nextTest → t'.service.queue.lane.CanMint) :
    Linked (t.after a) (t'.after a) ∧
      Exchange.Agrees ⟨a.request, (t.handled a).reply⟩ ⟨a.request, (t'.handled a).reply⟩ := by
  have hmint : a.request.Asks .nextTest → t.service.queue.lane.CanMint := h.same.lane ▸ mint
  have linked (hsame : (t.after a).service.queue.SameParts (t'.after a).service.queue) :
      Linked (t.after a) (t'.after a) :=
    ⟨h.sound.after a hmint, h.durable.after h.sound hs hmint, h.sound'.after a mint,
      h.durable'.after h.sound' hs mint, hsame⟩
  cases ha : a.request.action with
  | some act =>
    obtain ⟨hanswer, hafter⟩ := h.same.act act
    refine ⟨linked ?_, rfl, .inl ?_⟩
    · rw [queue_after_of_action ha, queue_after_of_action ha]
      exact hafter
    · rw [handled_of_action ha, handled_of_action ha, hs, Storing.isDone, Service.reply_perform,
        Service.reply_perform, hanswer]
  | none =>
    refine ⟨linked ?_, rfl, ?_⟩
    · rw [(after_of_no_action ha).2, (after_of_no_action ha).2]
      exact h.same
    · by_cases hq : a.request.Asks .queue
      · rw [handled, handled, Service.handle_of_asks_queue _ _ _ hq,
          Service.handle_of_asks_queue _ _ _ hq]
        exact .inr ⟨hq, showsAlike_ofQueue h.same⟩
      · obtain ⟨reply, he⟩ := Service.handle_of_no_action ha hq
        rw [handled, handled, he, he]
        exact .inl rfl

theorem Linked.run (h : Linked t t') (es : List Event)
    (stored : ∀ a ∈ arrivals es, a.storing = .done) (mint : t'.CanMintAll (arrivals es)) :
    ∃ xs u ys u', t.run es = .ok (xs, u) ∧ t'.run ((arrivals es).map .arrival) = .ok (ys, u') ∧
      List.Forall₂ Exchange.Agrees xs ys ∧ Linked u u' := by
  induction es generalizing t t' with
  | nil => exact ⟨[], t, [], t', rfl, rfl, .nil, h⟩
  | cons e es ih =>
    cases e with
    | arrival a =>
      rw [arrivals, List.forall_mem_cons] at stored
      obtain ⟨hafter, hagrees⟩ := h.after stored.1 mint.1
      obtain ⟨xs, u, ys, u', hxs, hys, hall, hlinked⟩ := ih hafter stored.2 mint.2
      refine ⟨_ :: xs, u, _ :: ys, u', ?_, ?_, .cons hagrees hall, hlinked⟩
      · rw [Site.run, hxs]
        rfl
      · rw [arrivals, List.map_cons, Site.run, hys]
        rfl
    | restart =>
      obtain ⟨t₁, ht₁, hlinked⟩ := h.restart
      obtain ⟨xs, u, ys, u', hxs, hys⟩ := ih hlinked stored mint
      refine ⟨xs, u, ys, u', ?_, hys⟩
      rw [Site.run, ht₁]
      exact hxs

/-- Restarts are invisible. With them every start succeeds and every reply agrees with the one given
without them. At the end, and so after each request, a start would find the parts of the queue; a
request that stores nothing leaves the queue as it was. -/
theorem run_hides_restarts {disk : Stored} (started : start disk = .ok s) (es : List Event)
    (stored : ∀ a ∈ arrivals es, a.storing = .done) (mint : s.CanMintAll (arrivals es)) :
    ∃ xs t ys t', s.run es = .ok (xs, t) ∧ s.run ((arrivals es).map .arrival) = .ok (ys, t') ∧
      List.Forall₂ Exchange.Agrees xs ys ∧ t.Durable ∧ t'.Durable ∧
      ∀ a : Arrival, a.storing = .done → (t.handled a).saved = none →
        (t.after a).service.queue = t.service.queue := by
  have hsound := sound_start started
  have hdurable := durable_start started
  obtain ⟨xs, t, ys, t', hxs, hys, hall, hlinked⟩ :=
    Linked.run ⟨hsound, hdurable, hsound, hdurable, .refl _⟩ es stored mint
  refine ⟨xs, t, ys, t', hxs, hys, hall, hlinked.durable, hlinked.durable', fun a hdone hs => ?_⟩
  rcases after_cases hlinked.sound a with ⟨_, -, -, hs', -⟩ | ⟨_, -, hf, -⟩ | ⟨-, he⟩
  · exact absurd hs hs'
  · exact absurd hdone hf
  · rw [he]

/-- The service is started anew before a test is asked for, and again before it is asked for once
more. -/
def interrupted : List Event :=
  [.arrival (submitting "a" .done), .restart, .arrival (asking .done), .restart,
    .arrival (asking .done)]

theorem interrupted_hides_restarts :
    ∃ xs t ys t', fresh.run interrupted = .ok (xs, t) ∧
      fresh.run ((arrivals interrupted).map .arrival) = .ok (ys, t') ∧
      List.Forall₂ Exchange.Agrees xs ys ∧ t.Durable ∧ t'.Durable ∧
      ∀ a : Arrival, a.storing = .done → (t.handled a).saved = none →
        (t.after a).service.queue = t.service.queue :=
  run_hides_restarts start_nothing interrupted (by decide) (by decide +kernel)

end Site

end MergeQueue
