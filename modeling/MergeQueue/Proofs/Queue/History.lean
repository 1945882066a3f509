import MergeQueue.Queue.Run
import Mathlib.Tactic

/-!
# Runs and what they did

A run is read from its steps: which changes were taken in, passed, failed and turned away, and
which keys were minted. What holds at the start and is kept by every step holds after every run,
and every step of a run is taken from the queue that the actions before it lead to.
-/
namespace MergeQueue.Queue

variable {C I : Type}

namespace Step

/-- The key that a step mints: the one it hands out while none is outstanding. -/
def minted (s : Step C I) : Option TestKey :=
  match s.before.lane.outstanding, s.answer with
  | none, .dispatched (some d) => some d.key
  | _, _ => none

/-- The changes that a step takes in: the one submitted, unless its identity is live. -/
def accepted [DecidableEq I] [Change C I] (s : Step C I) : List C :=
  match s.action with
  | .submit c => if ident c ∈ s.before.pool.map ident then [] else [c]
  | _ => []

def added (s : Step C I) : List C :=
  match s.answer with
  | .admission a => a.added
  | _ => []

def passed (s : Step C I) : List C :=
  match s.answer with
  | .reported o => o.passed
  | _ => []

def failed (s : Step C I) : List C :=
  match s.answer with
  | .reported o => o.failed
  | _ => []

def rejected (s : Step C I) : List C :=
  match s.answer with
  | .admission a => a.rejected
  | _ => []

theorem minted_eq_some {s : Step C I} {key : TestKey} :
    s.minted = some key ↔ s.before.lane.outstanding = none ∧
      ∃ cs, s.answer = .dispatched (some ⟨key, cs⟩) := by
  rcases s with ⟨before, action, answer, after⟩
  unfold minted
  constructor
  · intro h
    split at h
    · rename_i d hnone hanswer
      cases h
      exact ⟨hnone, d.changes, hanswer⟩
    · cases h
  · rintro ⟨hnone, cs, hanswer⟩
    simp only at hnone hanswer
    rw [hnone, hanswer]

end Step

def submitted (as : List (Action C)) : List C :=
  as.filterMap fun
    | .submit c => some c
    | _ => none

variable [DecidableEq C] [DecidableEq I] [Change C I]

def step (q : Queue C I) (a : Action C) : Step C I := ⟨q, a, (q.act a).1, (q.act a).2⟩

@[simp] theorem run_append (q : Queue C I) (as bs : List (Action C)) :
    run q (as ++ bs) = run q as ++ run (q.afterRun as) bs := by
  induction as generalizing q with
  | nil => rfl
  | cons a as ih => exact congrArg (q.step a :: ·) (ih (q.act a).2)

@[simp] theorem run_concat (q : Queue C I) (as : List (Action C)) (a : Action C) :
    run q (as ++ [a]) = run q as ++ [(q.afterRun as).step a] := run_append q as [a]

theorem afterRun_append (q : Queue C I) (as bs : List (Action C)) :
    q.afterRun (as ++ bs) = (q.afterRun as).afterRun bs := List.foldl_append

@[simp] theorem afterRun_concat (q : Queue C I) (as : List (Action C)) (a : Action C) :
    q.afterRun (as ++ [a]) = ((q.afterRun as).act a).2 := by
  rw [afterRun, List.foldl_append]
  rfl

/-- What holds at the start and is kept by every step holds after every run. -/
theorem run_induction {P : List (Step C I) → Queue C I → Prop} {q : Queue C I} (start : P [] q)
    (next : ∀ steps q a, P steps q → P (steps ++ [q.step a]) (q.act a).2) (as : List (Action C)) :
    P (run q as) (q.afterRun as) := by
  -- From the end, because the queue after a run is the one that the last action is taken on.
  induction as using List.reverseRecOn with
  | nil => exact start
  | append_singleton as a ih =>
    rw [run_concat, afterRun_concat]
    exact next _ _ a ih

/-- A step of a run is taken from the queue that the actions before it lead to. -/
theorem run_eq_append_cons {q : Queue C I} {as : List (Action C)} {earlier later : List (Step C I)}
    {s : Step C I} (h : run q as = earlier ++ s :: later) :
    ∃ front a back, as = front ++ a :: back ∧ earlier = run q front ∧
      s = (q.afterRun front).step a := by
  induction as generalizing q earlier with
  | nil => exact absurd h (by simp [run])
  | cons a as ih =>
    cases earlier with
    | nil =>
      simp only [run, List.nil_append, List.cons.injEq] at h
      exact ⟨[], a, as, rfl, rfl, h.1.symm⟩
    | cons t earlier =>
      simp only [run, List.cons_append, List.cons.injEq] at h
      obtain ⟨front, a', back, has, hearlier, hs⟩ := ih h.2
      refine ⟨a :: front, a', back, by rw [has]; rfl, ?_, hs⟩
      rw [hearlier, ← h.1]
      rfl

theorem exists_of_mem_run {q : Queue C I} {as : List (Action C)} {s : Step C I}
    (h : s ∈ run q as) :
    ∃ front a back, as = front ++ a :: back ∧ s = (q.afterRun front).step a := by
  obtain ⟨earlier, later, hsplit⟩ := List.append_of_mem h
  obtain ⟨front, a, back, has, -, hs⟩ := run_eq_append_cons hsplit
  exact ⟨front, a, back, has, hs⟩

/-- Two moments of a run are related if each step is related to all steps before it. -/
theorem pairwise_run {R : Step C I → Step C I → Prop} {q : Queue C I} {as : List (Action C)}
    (h : ∀ front a back, as = front ++ a :: back →
      ∀ s ∈ run q front, R s ((q.afterRun front).step a)) : (run q as).Pairwise R := by
  induction as using List.reverseRecOn with
  | nil => exact .nil
  | append_singleton as a ih =>
    rw [run_concat]
    rw [List.pairwise_append]
    refine ⟨ih ?_, List.pairwise_singleton R _, ?_⟩
    · intro front b back has
      exact h front b (back ++ [a]) (by simp [has])
    · intro s hs t ht
      rw [List.mem_singleton.1 ht]
      exact h as a [] rfl s hs

section Counter

variable {q : Queue C I} {front back : List (Action C)}

theorem canMintAll_front (h : CanMintAll (run q (front ++ back))) : CanMintAll (run q front) := by
  rw [run_append] at h
  exact fun s hs => h s (List.mem_append_left _ hs)

theorem Reachable.afterRun (h : q.Reachable) {as : List (Action C)} (mint : CanMintAll (run q as)) :
    (q.afterRun as).Reachable := by
  induction as generalizing q with
  | nil => exact h
  | cons a as ih =>
    rw [run, CanMintAll, List.forall_mem_cons] at mint
    exact ih (h.act a mint.1) mint.2

end Counter

end MergeQueue.Queue
