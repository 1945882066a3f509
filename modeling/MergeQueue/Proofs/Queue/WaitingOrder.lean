import MergeQueue.Change
import MergeQueue.Proofs.Queue.Conservation

/-!
# The order of the changes that wait

A change that waits is parked when it is taken in, and again whenever it is displaced by a change
that it requires and still misses something. Those that a submission parks join the end of the
waiting changes, the submitted change first and the displaced ones after it, in the order in which
they waited. So the changes do not wait in the order in which they were taken in, but in that of the
moments at which they were parked, where the latest moment counts most.
-/
namespace MergeQueue.Queue

variable {C I : Type} [Change C I]

theorem not_mem_awaiting_of_new {q : Queue C I} {c : C} (h : ident c ∉ q.pool.map ident) :
    c ∉ q.awaiting := fun hc => h (List.mem_map_of_mem (List.mem_append_right _ hc))

variable [DecidableEq I]

/-- The waiting changes that a step settles again, behind the change that it takes in. -/
def Step.displaced (s : Step C I) : List C :=
  match s.action with
  | .submit c =>
    if ident c ∈ s.before.pool.map ident then []
    else s.before.awaiting.filter (s.before.dependsOn c)
  | _ => []

variable [DecidableEq C]

/-- The step takes the change in or displaces it. -/
def Step.Parks (s : Step C I) (c : C) : Prop := c ∈ s.accepted ∨ c ∈ s.displaced

/-- The moments at which a change was parked since it was last taken in, the latest first. A moment
is the number of steps before it; the steps are given latest first. -/
def parkings (c : C) : List (Step C I) → List Nat
  | [] => []
  | s :: earlier =>
    if c ∈ s.accepted then [earlier.length]
    else if c ∈ s.displaced then earlier.length :: parkings c earlier
    else parkings c earlier

section Moments

variable {c d : C} {s : Step C I} {earlier later : List (Step C I)}

theorem parkings_of_accepted (h : c ∈ s.accepted) :
    parkings c (s :: earlier) = [earlier.length] := if_pos h

theorem parkings_of_displaced (h : c ∉ s.accepted) (h' : c ∈ s.displaced) :
    parkings c (s :: earlier) = earlier.length :: parkings c earlier := by
  rw [parkings, if_neg h, if_pos h']

theorem parkings_of_not_parks (h : ¬s.Parks c) :
    parkings c (s :: earlier) = parkings c earlier := by
  rw [Step.Parks, not_or] at h
  rw [parkings, if_neg h.1, if_neg h.2]

theorem lt_length_of_mem_parkings {t : Nat} (h : t ∈ parkings c earlier) : t < earlier.length := by
  fun_induction parkings c earlier with
  | case1 => cases h
  | case2 s earlier hacc => simp_all
  | case3 s earlier hacc hdis ih =>
    rcases List.mem_cons.1 h with rfl | h
    · simp
    · exact Nat.lt_succ_of_lt (ih h)
  | case4 s earlier hacc hdis ih => exact Nat.lt_succ_of_lt (ih h)

theorem parkings_lt_cons {t : Nat} {ts : List Nat} (h : earlier.length ≤ t) :
    parkings c earlier < t :: ts := by
  cases hp : parkings c earlier with
  | nil => exact .nil
  | cons u us =>
    have hu : u < earlier.length := lt_length_of_mem_parkings (hp ▸ List.mem_cons_self)
    exact .rel (Nat.lt_of_lt_of_le hu h)

end Moments

/-- The changes that wait were parked, and stand in the order of the moments at which they were. -/
structure InParkingOrder (earlier : List (Step C I)) (q : Queue C I) : Prop where
  parked : ∀ c ∈ q.awaiting, parkings c earlier ≠ []
  ordered : q.awaiting.Pairwise fun c d => parkings c earlier < parkings d earlier

section Step

variable {q : Queue C I} {s : Step C I} {earlier : List (Step C I)}

/-- A step that parks nothing that waits after it. -/
theorem InParkingOrder.keep (h : InParkingOrder earlier s.before)
    (hsub : s.after.awaiting.Sublist s.before.awaiting)
    (hnot : ∀ c ∈ s.after.awaiting, ¬s.Parks c) : InParkingOrder (s :: earlier) s.after := by
  constructor
  · intro c hc
    rw [parkings_of_not_parks (hnot c hc)]
    exact h.parked c (hsub.subset hc)
  · apply (h.ordered.sublist hsub).imp_of_mem
    intro c d hc hd hlt
    rwa [parkings_of_not_parks (hnot c hc), parkings_of_not_parks (hnot d hd)]

section Parked

variable {c d : C} {p : C → Bool} (hacc : s.accepted = [c])
  (hdis : s.displaced = s.before.awaiting.filter p) (hnew : c ∉ s.before.awaiting)
include hacc hdis hnew

theorem parkings_of_mem_filter (hd : d ∈ s.before.awaiting.filter p) :
    parkings d (s :: earlier) = earlier.length :: parkings d earlier := by
  apply parkings_of_displaced
  · rw [hacc, List.mem_singleton]
    rintro rfl
    exact hnew (List.mem_filter.1 hd).1
  · exact hdis ▸ hd

theorem parkings_of_mem_filter_not (hd : d ∈ s.before.awaiting.filter fun d => !p d) :
    parkings d (s :: earlier) = parkings d earlier := by
  obtain ⟨hd, hp⟩ := List.mem_filter.1 hd
  apply parkings_of_not_parks
  rw [Step.Parks, hacc, hdis, List.mem_singleton, List.mem_filter]
  rintro (rfl | ⟨-, hpd⟩)
  · exact hnew hd
  · simp [hpd] at hp

/-- A step that parks a new change and, behind it, those that `p` holds of. -/
theorem InParkingOrder.park (h : InParkingOrder earlier s.before)
    (hsub : s.after.awaiting.Sublist
      ((s.before.awaiting.filter fun d => !p d) ++ c :: s.before.awaiting.filter p)) :
    InParkingOrder (s :: earlier) s.after := by
  have hsubmitted : parkings c (s :: earlier) = [earlier.length] :=
    parkings_of_accepted (by simp [hacc])
  have hdisplaced {d : C} (hd : d ∈ s.before.awaiting.filter p) :
      parkings d (s :: earlier) = earlier.length :: parkings d earlier :=
    parkings_of_mem_filter hacc hdis hnew hd
  have hkept {d : C} (hd : d ∈ s.before.awaiting.filter fun d => !p d) :
      parkings d (s :: earlier) = parkings d earlier :=
    parkings_of_mem_filter_not hacc hdis hnew hd
  constructor
  · intro d hd
    have hd := hsub.subset hd
    rw [List.mem_append, List.mem_cons] at hd
    rcases hd with hd | rfl | hd
    · rw [hkept hd]
      exact h.parked d (List.mem_filter.1 hd).1
    · simp [hsubmitted]
    · simp [hdisplaced hd]
  · apply List.Pairwise.sublist hsub
    rw [List.pairwise_append, List.pairwise_cons]
    refine ⟨?_, ⟨?_, ?_⟩, ?_⟩
    · apply (h.ordered.sublist List.filter_sublist).imp_of_mem
      intro d e hd he hlt
      rwa [hkept hd, hkept he]
    · -- What was displaced was parked before this step, too.
      intro d hd
      obtain ⟨t, ts, hp⟩ := List.exists_cons_of_ne_nil (h.parked d (List.mem_filter.1 hd).1)
      rw [hsubmitted, hdisplaced hd, hp]
      exact .cons .nil
    · apply (h.ordered.sublist List.filter_sublist).imp_of_mem
      intro d e hd he hlt
      rw [hdisplaced hd, hdisplaced he]
      exact .cons hlt
    · intro d hd e he
      rw [hkept hd]
      rcases List.mem_cons.1 he with rfl | he
      · rw [hsubmitted]
        exact parkings_lt_cons (Nat.le_refl _)
      · rw [hdisplaced he]
        exact parkings_lt_cons (Nat.le_refl _)

end Parked

/-- A submission leaves what it does not displace in place, and nothing but what it parks is
behind. -/
theorem awaiting_submit_sublist {c : C} (h : ident c ∉ q.pool.map ident) :
    (q.submit c).2.awaiting.Sublist
      ((q.awaiting.filter fun d => !q.dependsOn c d) ++
        c :: q.awaiting.filter (q.dependsOn c)) := by
  rcases submit_cases c q with ⟨hlive, -⟩ | ⟨-, -, hsub⟩ | ⟨-, -, hsub⟩
  · exact absurd hlive h
  · rw [hsub, awaiting_without]
    exact List.sublist_append_left _ _
  · rw [hsub]
    simp only [awaiting_settle, awaiting_displace]
    exact (sublist_leftOver _ _).append_left _

theorem InParkingOrder.submit (h : InParkingOrder earlier q) (c : C) :
    InParkingOrder (q.step (.submit c) :: earlier) (q.submit c).2 := by
  by_cases hlive : ident c ∈ q.pool.map ident
  · have hdis : (q.step (.submit c)).displaced = [] := if_pos hlive
    apply h.keep (s := q.step (.submit c))
    · change (q.submit c).2.awaiting.Sublist q.awaiting
      rw [submit_of_holds hlive]
    · simp [Step.Parks, accepted_of_holds hlive, hdis]
  · exact h.park (s := q.step (.submit c)) (accepted_of_not_holds hlive) (if_neg hlive)
      (not_mem_awaiting_of_new hlive) (awaiting_submit_sublist hlive)

theorem awaiting_reopen_sublist : (q.act .reopen).2.awaiting.Sublist q.awaiting := by
  rcases act_reopen_cases q with hsame | ⟨q', hq, hnew⟩
  · rw [hsame]
  · obtain ⟨lane, -, -, rfl⟩ := reopen_eq_ok hq
    rw [hnew, awaiting_settle]
    exact sublist_leftOver _ _

theorem not_parks_of_not_submit {a : Action C} (h : ∀ c, a ≠ .submit c) (c : C) :
    ¬(q.step a).Parks c := by
  cases a with
  | submit d => exact absurd rfl (h d)
  | dispatch | report | reopen => simp [Step.Parks, step, Step.accepted, Step.displaced]

theorem InParkingOrder.act (h : InParkingOrder earlier q) (a : Action C) :
    InParkingOrder (q.step a :: earlier) (q.act a).2 := by
  cases a with
  | submit c => exact h.submit c
  | dispatch =>
    exact h.keep (s := q.step .dispatch) (.refl _) fun c _ => not_parks_of_not_submit nofun c
  | report verdict key =>
    exact h.keep (s := q.step (.report verdict key)) (sublist_report verdict key q).2
      fun c _ => not_parks_of_not_submit nofun c
  | reopen =>
    exact h.keep (s := q.step .reopen) awaiting_reopen_sublist
      fun c _ => not_parks_of_not_submit nofun c

end Step

theorem inParkingOrder_run (as : List (Action C)) :
    InParkingOrder (run .empty as).reverse (afterRun (.empty : Queue C I) as) := by
  apply run_induction (P := fun steps q => InParkingOrder steps.reverse q) ⟨nofun, .nil⟩
  intro steps q a h
  rw [List.reverse_concat]
  exact h.act a

section Moments

variable {c d : C} {s : Step C I} {earlier later : List (Step C I)}

/-- What the later steps do not park was parked by the earlier ones. -/
theorem parkings_append_of_not_parks (h : ∀ t ∈ later, ¬t.Parks c) :
    parkings c (later ++ earlier) = parkings c earlier := by
  induction later with
  | nil => rfl
  | cons t later ih =>
    rw [List.forall_mem_cons] at h
    rw [List.cons_append, parkings_of_not_parks h.1, ih h.2]

/-- What a step took in was parked last by it or by a later one. -/
theorem exists_parkings_of_accepted (earlier later : List (Step C I)) (h : d ∈ s.accepted) :
    ∃ t ts, parkings d (later ++ s :: earlier) = t :: ts ∧ earlier.length ≤ t := by
  induction later with
  | nil => exact ⟨_, [], parkings_of_accepted h, Nat.le_refl _⟩
  | cons u later ih =>
    obtain ⟨t, ts, hp, ht⟩ := ih
    have hlen : earlier.length ≤ (later ++ s :: earlier).length := by
      simp
      omega
    rw [List.cons_append, parkings]
    split
    · exact ⟨_, [], rfl, hlen⟩
    split
    · exact ⟨_, _, rfl, hlen⟩
    · exact ⟨t, ts, hp, ht⟩

/-- What is not parked from the moment on at which another is taken in was parked before that. -/
theorem parkings_lt_of_accepted (hd : d ∈ s.accepted) (hc : ∀ t ∈ later ++ [s], ¬t.Parks c) :
    parkings c (later ++ s :: earlier) < parkings d (later ++ s :: earlier) := by
  obtain ⟨t, ts, hp, ht⟩ := exists_parkings_of_accepted earlier later hd
  rw [hp, List.append_cons, parkings_append_of_not_parks hc]
  exact parkings_lt_cons ht

end Moments

/-- The changes that wait stand in the order of the moments at which they were parked, the latest
compared first. So of two of them the one that was taken in first stands first, unless it was
displaced by the other or since the other came. -/
theorem run_waits_in_parking_order (as : List (Action C)) :
    ((afterRun (.empty : Queue C I) as).awaiting.Pairwise fun c d =>
        parkings c (run (.empty : Queue C I) as).reverse <
          parkings d (run (.empty : Queue C I) as).reverse) ∧
      ∀ earlier s later, run (.empty : Queue C I) as = earlier ++ s :: later →
        ∀ front d back, (afterRun (.empty : Queue C I) as).awaiting = front ++ d :: back →
          d ∈ s.accepted → ∀ c ∈ (afterRun (.empty : Queue C I) as).awaiting,
            (∀ t ∈ s :: later, c ∉ t.accepted) → c ∈ front ∨ ∃ t ∈ s :: later, c ∈ t.displaced := by
  have horder := (inParkingOrder_run (I := I) as).ordered
  refine ⟨horder, ?_⟩
  intro earlier s later hrun front d back hwaits hd c hc hfirst
  rw [or_iff_not_imp_right]
  intro hnot
  have hlt : parkings c (run (.empty : Queue C I) as).reverse <
      parkings d (run (.empty : Queue C I) as).reverse := by
    rw [hrun, List.reverse_append, List.reverse_cons, List.append_assoc]
    apply parkings_lt_of_accepted hd
    intro t ht hparks
    have ht : t ∈ s :: later := by simpa [or_comm] using ht
    exact hparks.elim (hfirst t ht) fun hdis => hnot ⟨t, ht, hdis⟩
  rw [hwaits] at horder
  rw [hwaits, List.mem_append, List.mem_cons] at hc
  rcases hc with hc | rfl | hc
  · exact hc
  · exact absurd hlt (List.lt_irrefl _)
  · have hgt := List.rel_of_pairwise_cons (List.pairwise_append.1 horder).2.1 hc
    exact absurd hgt (List.lt_asymm hlt)

/-- A change waits for another, and a second one for a third. Then the other comes, and waits
too. -/
def overtaken : List (Action ChangeRecord) :=
  [.submit ⟨⟨"b"⟩, .ofList [⟨"a"⟩]⟩, .submit ⟨⟨"c"⟩, .ofList [⟨"w"⟩]⟩,
    .submit ⟨⟨"a"⟩, .ofList [⟨"z"⟩]⟩]

/-- The change that came first is displaced and waits behind both that came after it. -/
theorem first_waits_last :
    (run (.empty : Queue ChangeRecord ChangeId) overtaken).flatMap Step.accepted =
        [⟨⟨"b"⟩, .ofList [⟨"a"⟩]⟩, ⟨⟨"c"⟩, .ofList [⟨"w"⟩]⟩, ⟨⟨"a"⟩, .ofList [⟨"z"⟩]⟩] ∧
      (afterRun (.empty : Queue ChangeRecord ChangeId) overtaken).awaiting =
        [⟨⟨"c"⟩, .ofList [⟨"w"⟩]⟩, ⟨⟨"a"⟩, .ofList [⟨"z"⟩]⟩, ⟨⟨"b"⟩, .ofList [⟨"a"⟩]⟩] := by
  constructor <;> decide +kernel

theorem overtaken_waits_in_parking_order :
    (afterRun (.empty : Queue ChangeRecord ChangeId) overtaken).awaiting.map
        (fun c => parkings c (run .empty overtaken).reverse) = [[1], [2], [2, 0]] ∧
      (afterRun (.empty : Queue ChangeRecord ChangeId) overtaken).awaiting.Pairwise fun c d =>
        parkings c (run .empty overtaken).reverse < parkings d (run .empty overtaken).reverse :=
  ⟨by decide +kernel, (run_waits_in_parking_order overtaken).1⟩

end MergeQueue.Queue
