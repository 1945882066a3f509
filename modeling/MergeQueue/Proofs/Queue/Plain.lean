import MergeQueue.Proofs.Lane.Renaming
import MergeQueue.Proofs.Queue.Cases
import MergeQueue.Proofs.Queue.History

/-!
# Without requirements a queue is its lane

If no live change requires another, a new change enters the lane at once, and a failing change takes
no other with it. So a queue of plain values stays in step with a lane of these values: it has the
same batches, key and counter, nothing waits, and every call is answered alike.
-/
namespace MergeQueue.Queue

open Lane

section Free

variable {C I : Type} [DecidableEq I] [Change C I]

theorem closure_of_requires_nil {pool : List C} (h : ∀ c ∈ pool, requires c = []) (root : I) :
    (RequiredBy.ofPool pool).closure root = [] := by
  have hstep : ∀ i j, ¬RequiresDirectly pool i j := by
    rintro i j ⟨c, hc, -, hj⟩
    rw [h c hc] at hj
    exact absurd hj List.not_mem_nil
  apply List.eq_nil_iff_forall_not_mem.2
  intro i hi
  cases RequiredBy.mem_closure_ofPool.1 hi with
  | single hlast => exact hstep i root hlast
  | tail _ hlast => exact hstep _ root hlast

theorem report_of_requires_nil {q : Queue C I} (h : ∀ c ∈ q.pool, requires c = [])
    (verdict : Verdict) (key : TestKey) :
    q.report verdict key =
      ((q.lane.report verdict key).1, { q with lane := (q.lane.report verdict key).2 }) := by
  rcases report_cases verdict key q with ⟨-, hreport⟩ | ⟨rfl, hk, c, bs, hb, hreport⟩
  · exact hreport
  · have hfree : ∀ d ∈ (q.afterFailure bs).pool, requires d = [] := by
      rw [pool_of_single hb, List.forall_mem_cons] at h
      exact h.2
    have hnone : ∀ d ∈ (q.afterFailure bs).pool, (q.afterFailure bs).requiring c d = false := by
      intro d _
      rw [requiring, closure_of_requires_nil hfree]
      rfl
    have hfilter : (q.afterFailure bs).pool.filter ((q.afterFailure bs).requiring c) = [] := by
      rw [List.filter_eq_nil_iff]
      intro d hd
      rw [hnone d hd]
      exact Bool.false_ne_true
    rw [hreport, without_of_none hnone, hfilter, lane_report_of_single hk hb]
    rfl

variable [DecidableEq C]

theorem settle_singleton {c : C} (h : requires c = []) (q : Queue C I) :
    q.settle [c] = ([c], { q with lane := (q.lane.enqueue c).2 }) := by
  have hnil : ∀ visible : List I, admitAll visible ([] : List C) = ([], []) := by
    intro visible
    rw [admitAll]
    rfl
  have hsubmit : ∀ visible : List I, admitAll visible [c] = ([c], []) := by
    intro visible
    have hpass : admitPass visible [c] = ([c], []) := by simp [admitPass, h]
    rw [admitAll]
    split
    · rename_i heq
      rw [hpass] at heq
      cases heq
    · rename_i heq
      rw [hpass] at heq
      cases heq
      rw [hnil]
      rfl
  unfold settle
  simp [hsubmit]

theorem submit_of_requires_nil {c : C} {q : Queue C I} (h : ∀ d ∈ q.pool ++ [c], requires d = [])
    (hc : ident c ∉ q.pool.map ident) :
    q.submit c = (⟨[c], []⟩, { q with lane := (q.lane.enqueue c).2 }) := by
  have hnone : q.dependantsOf c = [] := closure_of_requires_nil h (ident c)
  have hdisplace : q.displace (q.dependsOn c) = ([], q) := by
    have hfalse : q.dependsOn c = fun _ => false := by
      funext d
      simp [dependsOn, hnone]
    simp [displace, hfalse]
  have hcycle : ident c ∉ q.dependantsOf c := by
    rw [hnone]
    exact List.not_mem_nil
  rw [submit_of_not_cycle hc hcycle, hdisplace, settle_singleton (h c (by simp))]

end Free

section Plain

variable {α : Type}

/-- The queue of plain values with these values in its lane, where nothing waits. -/
def ofValues (l : Lane α) : Queue (Plain α) α := ⟨l.map .mk, []⟩

def ofCall : Call α → Action (Plain α)
  | .enqueue c => .submit ⟨c⟩
  | .dispatch => .dispatch
  | .report verdict key => .report verdict key

/-- The same is asked of a lane and of a queue of plain values, and answered alike. A change that
the lane takes in is all that is added to the queue, and nothing is ever turned away. -/
inductive Alike : Lane.Action α → Lane.Answer α → Action (Plain α) → Answer (Plain α) → Prop
  | added (c : α) : Alike (.enqueue c) (.enqueued true) (.submit ⟨c⟩) (.admission ⟨[⟨c⟩], []⟩)
  | ignored (c : α) : Alike (.enqueue c) (.enqueued false) (.submit ⟨c⟩) (.admission .none)
  | dispatched (d : Option (Dispatch α)) :
      Alike .dispatch (.dispatched d) .dispatch (.dispatched (d.map (.map .mk)))
  | reported (verdict : Verdict) (key : TestKey) (o : Outcome α) :
      Alike (.report verdict key) (.reported o) (.report verdict key) (.reported (o.map .mk))

/-- A step of a queue of plain values and one of a lane, between the same states. -/
structure InStep (s : Lane.Step α) (t : Step (Plain α) α) : Prop where
  before : t.before = ofValues s.before
  alike : Alike s.action s.answer t.action t.answer
  after : t.after = ofValues s.after

theorem pool_ofValues (l : Lane α) : (ofValues l).pool = l.changes.map .mk := by
  rw [pool, ofValues, changes_map]
  exact List.append_nil _

theorem dispatch_ofValues (l : Lane α) :
    (ofValues l).dispatch = (l.dispatch.1.map (.map .mk), ofValues l.dispatch.2) := by
  rw [dispatch, ofValues, dispatch_map]
  rfl

variable [DecidableEq α]

theorem submit_ofValues (c : α) (l : Lane α) :
    (ofValues l).submit ⟨c⟩ =
      (if (l.enqueue c).1 then ⟨[⟨c⟩], []⟩ else .none, ofValues (l.enqueue c).2) := by
  have hlive : ident (⟨c⟩ : Plain α) ∈ (ofValues l).pool.map ident ↔ c ∈ l.changes := by
    simp [pool_ofValues]
  by_cases hc : c ∈ l.changes
  · rw [submit_of_holds (hlive.2 hc), enqueue_of_mem hc]
    rfl
  · have hjoin := enqueue_map (f := Plain.mk) (fun _ _ => Plain.mk.inj) c l
    rw [submit_of_requires_nil (fun _ _ => rfl) (mt hlive.1 hc), ofValues, hjoin,
      enqueue_of_not_mem hc]
    rfl

theorem report_ofValues (verdict : Verdict) (key : TestKey) (l : Lane α) :
    (ofValues l).report verdict key =
      ((l.report verdict key).1.map .mk, ofValues (l.report verdict key).2) := by
  rw [report_of_requires_nil (fun _ _ => rfl), ofValues, report_map]
  rfl

/-- One call keeps the two in step. -/
theorem inStep_step (call : Call α) (l : Lane α) :
    InStep (l.step call.action) ((ofValues l).step (ofCall call)) := by
  cases call with
  | enqueue c =>
    have hsubmit := submit_ofValues c l
    refine ⟨rfl, ?_, congrArg Prod.snd hsubmit⟩
    change Alike (.enqueue c) (.enqueued (l.enqueue c).1) (.submit ⟨c⟩)
      (.admission ((ofValues l).submit ⟨c⟩).1)
    rw [hsubmit]
    cases (l.enqueue c).1 with
    | true => exact .added c
    | false => exact .ignored c
  | dispatch =>
    have hdispatch := dispatch_ofValues l
    refine ⟨rfl, ?_, congrArg Prod.snd hdispatch⟩
    change Alike .dispatch (.dispatched l.dispatch.1) .dispatch
      (.dispatched (ofValues l).dispatch.1)
    rw [hdispatch]
    exact .dispatched l.dispatch.1
  | report verdict key =>
    have hreport := report_ofValues verdict key l
    refine ⟨rfl, ?_, congrArg Prod.snd hreport⟩
    change Alike (.report verdict key) (.reported (l.report verdict key).1) (.report verdict key)
      (.reported ((ofValues l).report verdict key).1)
    rw [hreport]
    exact .reported verdict key (l.report verdict key).1

theorem inStep_run (calls : List (Call α)) (l : Lane α) :
    List.Forall₂ InStep (l.run (calls.map Call.action)) ((ofValues l).run (calls.map ofCall)) ∧
      (ofValues l).afterRun (calls.map ofCall) =
        ofValues (l.afterRun (calls.map Call.action)) := by
  induction calls generalizing l with
  | nil => exact ⟨.nil, rfl⟩
  | cons call calls ih =>
    have hstep := inStep_step call l
    have hafter : ((ofValues l).act (ofCall call)).2 = ofValues (l.act call.action).2 := hstep.after
    obtain ⟨hsteps, hend⟩ := ih (l.act call.action).2
    rw [← hafter] at hsteps hend
    exact ⟨.cons hstep hsteps, hend⟩

/-- Whatever is called, a queue of plain values and a lane of these values, both empty at first,
stay in step: after every step they have the same batches, key and counter, nothing waits in the
queue, and the step is answered alike. -/
theorem run_plain_in_step (calls : List (Call α)) :
    List.Forall₂ InStep (Lane.run .empty (calls.map Call.action))
        (run .empty (calls.map ofCall)) ∧
      afterRun .empty (calls.map ofCall) =
        ofValues (Lane.afterRun .empty (calls.map Call.action)) :=
  inStep_run calls .empty

end Plain

end MergeQueue.Queue
