import MergeQueue.Proofs.Queue.Reopen
import MergeQueue.Proofs.Service.Forms
import MergeQueue.Proofs.Service.Handle

/-!
# What is stored

A start finds the queue of the snapshot that was stored last. A request that was answered well
either stored a snapshot of the queue that it left, or left the service as it was.
-/
namespace MergeQueue

open Json Text

namespace Service

variable {now : Timestamp} {writable : Bool} {s : Service} {q : Queue ChangeRecord ChangeId}
  {reply : Reply} {a : Queue.Action ChangeRecord}

theorem save_of_writable (h : s.keeps = true) :
    s.save now true q reply =
      ⟨reply, some ((Snapshot.ofQueue now q).text ChangeRecord.form),
        ⟨q, true, some ((Snapshot.ofQueue now q).text ChangeRecord.form)⟩⟩ := by
  simp [save, h]

theorem save_of_not_writable (h : s.keeps = true) :
    s.save now false q reply = ⟨.notSaved, none, { s with queue := q }⟩ := by
  simp [save, h]

theorem dispatch_of_same (h : q.lane.WellFormed)
    (ho : q.dispatch.2.lane.outstanding = q.lane.outstanding) : q.dispatch.2 = q := by
  have hlane : q.lane.dispatch.2 = q.lane := by
    by_cases hd : q.lane.head = []
    · rw [Lane.dispatch_of_nil hd]
    · change q.lane.dispatch.2.outstanding = q.lane.outstanding at ho
      cases hk : q.lane.outstanding with
      | none =>
        rw [Lane.dispatch_of_none hd hk, hk] at ho
        cases ho
      | some key =>
        have hlen := (h.head_under_test (by simp [hk])).2
        rw [Lane.dispatch_of_some hd hk, Lane.reserveLast_of_two_le hlen, ← hk]
  exact congrArg (fun l => { q with lane := l }) hlane

/-- What need not be stored is no change of the queue. -/
theorem act_of_not_mustStore (h : q.Settled) (hm : mustStore q a = false) : (q.act a).2 = q := by
  cases a with
  | submit c => cases hm
  | dispatch => exact dispatch_of_same h.wellFormed (by simpa [mustStore] using hm)
  | report verdict key =>
    by_cases hk : q.lane.outstanding = some key
    · have hnone : (q.report verdict key).2.lane.outstanding = none :=
        Queue.outstanding_after_report h.wellFormed hk
      simp [mustStore, hnone, hk] at hm
    · exact congrArg Prod.snd (Queue.report_of_stale hk)
  | reopen => cases hm

theorem status_readChange {r : Request} (h : readChange r = .error reply) : reply.status ≠ 200 := by
  unfold readChange at h
  split at h
  · cases h
    decide
  split at h
  · cases h
    decide
  split at h
  · rename_i f _
    cases h
    cases f <;> decide
  split at h
  · cases h
    decide
  · cases h

end Service

namespace Site

/-- What every request keeps of a site. -/
structure Sound (s : Site) : Prop where
  keeps : s.service.keeps = true
  settled : s.service.queue.Settled

/-- A start would find a queue of the same parts. -/
def Durable (s : Site) : Prop :=
  ∃ s', s.restart = .ok s' ∧ s'.service.queue.SameParts s.service.queue

variable {s s' : Site} {a : Arrival}

/-- A start finds nothing, or a snapshot whose queue it goes on with. -/
theorem start_cases {disk : Stored} (h : start disk = .ok s) :
    s.disk = disk ∧ s.service.keeps = true ∧
      (s.service.queue = .empty ∨
        ∃ n : Snapshot ChangeRecord, n.toQueue = .ok s.service.queue) := by
  unfold start Service.start at h
  cases hload : (Snapshot.load ChangeRecord.form disk :
      Except (LoadFault ChangeRecord ChangeId) (Option (Snapshot ChangeRecord))) with
  | error f => simp [hload, Except.map] at h
  | ok found =>
    cases found with
    | none =>
      simp only [hload, Except.map, Except.ok.injEq] at h
      subst h
      exact ⟨rfl, rfl, .inl rfl⟩
    | some n =>
      cases hq : n.toQueue with
      | error why => simp [hload, hq, Except.map] at h
      | ok q =>
        simp only [hload, hq, Except.map, Except.ok.injEq] at h
        subst h
        exact ⟨rfl, rfl, .inr ⟨n, hq⟩⟩

theorem sound_start {disk : Stored} (h : start disk = .ok s) : s.Sound := by
  obtain ⟨-, hkeeps, hempty | ⟨n, hn⟩⟩ := start_cases h
  · exact ⟨hkeeps, hempty ▸ Queue.settled_empty⟩
  · exact ⟨hkeeps, Queue.settled_restore hn⟩

theorem durable_start {disk : Stored} (h : start disk = .ok s) : s.Durable := by
  obtain ⟨hdisk, -⟩ := start_cases h
  exact ⟨s, by rw [restart, hdisk, h], .refl _⟩

def saved (now : Timestamp) (q : Queue ChangeRecord ChangeId) : Site :=
  ⟨⟨q, true, some ((Snapshot.ofQueue now q).text ChangeRecord.form)⟩,
    .text (Symbol.ofString ((Snapshot.ofQueue now q).text ChangeRecord.form))⟩

theorem durable_saved {now : Timestamp} (hnow : now.IsValid) {q : Queue ChangeRecord ChangeId}
    (hq : q.Settled) : (saved now q).Durable := by
  obtain ⟨q', hreopen, hsame⟩ := hq.reopen
  have hload : (Snapshot.load ChangeRecord.form (saved now q).disk :
      Except (LoadFault ChangeRecord ChangeId) (Option (Snapshot ChangeRecord))) =
      .ok (some (Snapshot.ofQueue now q)) := by
    rw [saved, Snapshot.load_text ChangeRecord.recovers (Timestamp.recovers hnow)]
    exact if_pos rfl
  refine ⟨⟨⟨q', true, none⟩, (saved now q).disk⟩, ?_, hsame⟩
  have htoQueue : (Snapshot.ofQueue now q).toQueue = .ok q' :=
    (Snapshot.toQueue_ofQueue now q).trans hreopen
  simp only [restart, start, Service.start, hload, htoQueue, Except.map]

theorem handled_of_action {act : Queue.Action ChangeRecord} (ha : a.request.action = some act) :
    s.handled a = s.service.perform a.now a.storing.isDone act :=
  Service.handle_of_action _ _ _ ha

theorem after_of_answer {reply : Reply}
    (h : ∀ writable, s.service.handle a.now writable a.request = s.service.answer reply) :
    (s.handled a).saved = none ∧ s.after a = s := by
  rw [after, diskAfter, attempt, handled, h, h]
  exact ⟨rfl, rfl⟩

theorem after_of_no_action (ha : a.request.action = none) :
    (s.handled a).saved = none ∧ s.after a = s := by
  by_cases hq : a.request.Asks .queue
  · exact after_of_answer fun _ => Service.handle_of_asks_queue _ _ _ hq
  · obtain ⟨reply, hreply⟩ := Service.handle_of_no_action ha hq
    exact after_of_answer fun _ => hreply _ _ _

/-- A request stores a snapshot of the queue that it leaves, fails to store one, or changes
nothing. -/
theorem after_cases (h : s.Sound) (a : Arrival) :
    (∃ act, a.request.action = some act ∧ a.storing = .done ∧ (s.handled a).saved ≠ none ∧
        s.after a = saved a.now (s.service.queue.act act).2) ∨
      (∃ act, a.request.action = some act ∧ a.storing ≠ .done ∧
        (s.handled a).reply = .notSaved ∧
        (s.after a).service = { s.service with queue := (s.service.queue.act act).2 }) ∨
      (s.handled a).saved = none ∧ s.after a = s := by
  cases ha : a.request.action with
  | none => exact .inr (.inr (after_of_no_action ha))
  | some act =>
    have hhandle (writable : Bool) := Service.handle_of_action a.now writable s.service ha
    cases hm : Service.mustStore s.service.queue act with
    | false =>
      simp only [Service.perform, hm, Service.act_of_not_mustStore h.settled hm] at hhandle
      exact .inr (.inr (after_of_answer hhandle))
    | true =>
      simp only [Service.perform, hm, if_true] at hhandle
      cases hs : a.storing with
      | done =>
        rw [after, diskAfter, attempt, handled, hs, Storing.isDone, hhandle,
          Service.save_of_writable h.keeps]
        exact .inl ⟨act, rfl, rfl, nofun, rfl⟩
      | failed =>
        rw [after, handled, hs, Storing.isDone, hhandle, Service.save_of_not_writable h.keeps]
        exact .inr (.inl ⟨act, rfl, nofun, rfl, rfl⟩)

theorem Sound.after (h : s.Sound) (a : Arrival)
    (mint : a.request.Asks .nextTest → s.service.queue.lane.CanMint) : (s.after a).Sound := by
  have hact {act : Queue.Action ChangeRecord} (ha : a.request.action = some act) :
      (s.service.queue.act act).2.Settled := by
    refine h.settled.act act ?_
    rintro rfl
    exact mint (Request.asks_of_action ha)
  rcases after_cases h a with ⟨act, ha, -, -, he⟩ | ⟨act, ha, -, -, he⟩ | ⟨-, he⟩
  · rw [he]
    exact ⟨rfl, hact ha⟩
  · constructor
    · rw [he]
      exact h.keeps
    · rw [he]
      exact hact ha
  · rw [he]
    exact h

theorem canMintAll_append {as bs : List Arrival} :
    s.CanMintAll (as ++ bs) ↔ s.CanMintAll as ∧ (s.afterAll as).CanMintAll bs := by
  induction as generalizing s with
  | nil => exact (true_and _).symm ▸ Iff.rfl
  | cons a as ih =>
    rw [List.cons_append, CanMintAll, CanMintAll, ih, and_assoc]
    rfl

theorem Sound.afterAll {as : List Arrival} (h : s.Sound) (mint : s.CanMintAll as) :
    (s.afterAll as).Sound := by
  induction as generalizing s with
  | nil => exact h
  | cons a as ih => exact ih (h.after a mint.1) mint.2

/-- What is stored stays what a start would find as long as storing succeeds. -/
theorem Durable.after (hd : s.Durable) (h : s.Sound) {a : Arrival} (hs : a.storing = .done)
    (mint : a.request.Asks .nextTest → s.service.queue.lane.CanMint) : (s.after a).Durable := by
  have hsettled := (h.after a mint).settled
  rcases after_cases h a with ⟨act, -, -, -, he⟩ | ⟨_, -, hf, -⟩ | ⟨-, he⟩
  · rw [he] at hsettled ⊢
    exact durable_saved a.now_valid hsettled
  · exact absurd hs hf
  · rw [he]
    exact hd

/-- A submission that is answered well was stored. -/
theorem saved_of_submission (h : s.Sound) {a : Arrival} (ha : a.request.Asks .changes)
    (ok : (s.handled a).reply.status = 200) : (s.handled a).saved ≠ none := by
  have hhandled : s.handled a = s.service.submit a.now a.storing.isDone a.request :=
    Service.handle_of_asks _ _ _ ha
  cases hc : Service.readChange a.request with
  | error reply =>
    rw [hhandled, Service.submit, hc] at ok
    exact absurd ok (Service.status_readChange hc)
  | ok c =>
    rw [hhandled, Service.submit, hc] at ok ⊢
    cases hw : a.storing.isDone with
    | true =>
      simp only [Service.save_of_writable h.keeps]
      exact Option.some_ne_none _
    | false =>
      simp only [hw, Service.save_of_not_writable h.keeps] at ok
      cases ok

/-- A request that is answered well stored the queue that it left, or changed nothing. What an
earlier request failed to store is only made up for by the former. -/
theorem run_ok_stored_or_unchanged {disk : Stored} (started : start disk = .ok s)
    (as : List Arrival) (a : Arrival) (mint : s.CanMintAll (as ++ [a]))
    (ok : ((s.afterAll as).handled a).reply.status = 200) :
    ((s.afterAll as).handled a).saved ≠ none ∧ ((s.afterAll as).after a).Durable ∨
      ((s.afterAll as).handled a).saved = none ∧ (s.afterAll as).after a = s.afterAll as ∧
        ¬a.request.Asks .changes := by
  obtain ⟨mint, hlast, -⟩ := canMintAll_append.1 mint
  have hsound := (sound_start started).afterAll mint
  have hsettled := (hsound.after a hlast).settled
  rcases after_cases hsound a with ⟨act, -, -, hs, he⟩ | ⟨_, -, -, hr, -⟩ | ⟨hs, he⟩
  · rw [he] at hsettled ⊢
    exact .inl ⟨hs, durable_saved a.now_valid hsettled⟩
  · rw [hr] at ok
    cases ok
  · exact .inr ⟨hs, he, fun hsub => saved_of_submission hsound hsub ok hs⟩

def submitting (id : String) (storing : Storing) : Arrival where
  request := ⟨"POST", "/api/v1/changes", some "application/json",
    ("\x7b\"id\":\"" ++ id ++ "\"\x7d").toUTF8⟩
  now := ⟨0, 0⟩
  storing := storing
  now_valid := ⟨by decide, by decide, by decide⟩

def asking (storing : Storing) : Arrival where
  request := ⟨"POST", "/api/v1/tests/next", none, .empty⟩
  now := ⟨0, 0⟩
  storing := storing
  now_valid := ⟨by decide, by decide, by decide⟩

def fresh : Site := ⟨⟨.empty, true, none⟩, .nothing⟩

theorem start_nothing : start .nothing = .ok fresh := rfl

/-- A test that is handed out is stored, or was handed out before. -/
theorem handed_out_test_stored :
    ((fresh.afterAll [submitting "a" .done]).handled (asking .done)).reply.status = 200 ∧
      (((fresh.afterAll [submitting "a" .done]).handled (asking .done)).saved ≠ none ∧
          ((fresh.afterAll [submitting "a" .done]).after (asking .done)).Durable ∨
        ((fresh.afterAll [submitting "a" .done]).handled (asking .done)).saved = none ∧
          (fresh.afterAll [submitting "a" .done]).after (asking .done) =
            fresh.afterAll [submitting "a" .done] ∧
          ¬(asking .done).request.Asks .changes) := by
  have ok :
      ((fresh.afterAll [submitting "a" .done]).handled (asking .done)).reply.status = 200 := by
    decide +kernel
  exact ⟨ok, run_ok_stored_or_unchanged start_nothing _ _ (by decide +kernel) ok⟩

/-- A site where a test was handed out, but could not be stored. -/
def unsaved : Site := fresh.afterAll [submitting "a" (.failed false), asking (.failed false)]

/-- When storing fails, asking for the test once more hands it out although it is not stored. -/
theorem retried_test_not_stored :
    unsaved.CanMintAll [asking (.failed false)] ∧
      (unsaved.handled (asking (.failed false))).reply.status = 200 ∧
      ¬(unsaved.after (asking (.failed false))).Durable := by
  refine ⟨by decide +kernel, by decide +kernel, ?_⟩
  rintro ⟨s, hs, hsame⟩
  have hdisk : (unsaved.after (asking (.failed false))).disk = .nothing := by
    decide +kernel
  rw [restart, hdisk, start_nothing] at hs
  cases hs
  have hkey := congrArg Lane.outstanding hsame.lane
  exact absurd hkey (by decide +kernel)

end Site

end MergeQueue
