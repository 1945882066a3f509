import MergeQueue.Proofs.Queue.Missing

/-!
# Settling admits the least set

Passes over the candidates admit now more and now fewer of them, as the order of the candidates has
it. What is admitted when a pass admits nothing more is the same for every order: the least set that
has a candidate exactly if all it requires stands in the lane or belongs to a member. The members
join the last batch, each behind those that it requires, and the other candidates wait, in their
order, each for something.
-/
namespace MergeQueue.Queue

open Lane

variable {C I : Type} [Change C I] [DecidableEq I] [DecidableEq C] {q : Queue C I} {cs : List C}

theorem leftOver_eq_filter (h : cs.Nodup) :
    q.leftOver cs = cs.filter (· ∉ (q.settle cs).1) := by
  have hperm := perm_settle cs q
  obtain ⟨-, -, hdisj⟩ := List.nodup_append'.1 (hperm.nodup_iff.2 h)
  have hadded : (q.settle cs).1.filter (· ∉ (q.settle cs).1) = [] := by
    rw [List.filter_eq_nil_iff]
    intro c hc
    simpa using hc
  have hleft : (q.leftOver cs).filter (· ∉ (q.settle cs).1) = q.leftOver cs := by
    rw [List.filter_eq_self]
    intro c hc
    simpa using hdisj.symm hc
  have hsub := (sublist_leftOver cs q).filter (· ∉ (q.settle cs).1)
  have hlen := (hperm.filter (· ∉ (q.settle cs).1)).length_eq
  rw [hleft] at hsub
  rw [List.filter_append, hadded, hleft, List.nil_append] at hlen
  exact hsub.eq_of_length hlen

/-- What settling candidates on a queue does: which of them are added, where they go, and how the
others wait. -/
structure AdmitsLeast (q : Queue C I) (cs added : List C) (q' : Queue C I) : Prop where
  distinct : added.Nodup
  least : IsLeast {S | AdmitsExactly cs (· ∈ q.lane.changes.map ident) S} {c | c ∈ added}
  joins_last : ∀ front last, q.lane.batches = front ++ [last] →
    q'.lane = { q.lane with batches := front ++ [last ++ added] }
  behind_required : ∀ front c back, added = front ++ c :: back →
    ∀ i ∈ requires c, i ∈ q.lane.changes.map ident ∨ i ∈ front.map ident
  others_wait : q'.waiting = q.waiting ++
    (cs.filter (· ∉ added)).map (park (q'.lane.changes.map ident))
  others_miss : ∀ c ∈ cs, c ∉ added → (park (q'.lane.changes.map ident) c).missing ≠ []

section Settle

variable (h : NewTo q.lane cs)
include h

theorem isLeast_settle :
    IsLeast {S | AdmitsExactly cs (· ∈ q.lane.changes.map ident) S} {c | c ∈ (q.settle cs).1} := by
  have hset : {c | c ∈ (q.settle cs).1} =
      {c | c ∈ cs ∧ Available cs (· ∈ q.lane.changes.map ident) (ident c)} :=
    Set.ext fun c => mem_settle_iff h
  rw [hset]
  exact isLeast_available h.distinct h.not_in_lane

theorem waiting_settle_eq : (q.settle cs).2.waiting = q.waiting ++
    (cs.filter (· ∉ (q.settle cs).1)).map (park ((q.settle cs).2.lane.changes.map ident)) := by
  have hpark : park (C := C) ((q.settle cs).1.map ident ++ q.lane.changes.map ident) =
      park ((q.settle cs).2.lane.changes.map ident) := by
    funext c
    refine park_congr fun i _ => ?_
    rw [changes_settle h, List.map_append, List.mem_append, List.mem_append, or_comm]
  rw [← hpark, ← leftOver_eq_filter h.nodup]
  rfl

theorem admitsLeast_settle : AdmitsLeast q cs (q.settle cs).1 (q.settle cs).2 where
  distinct := h.admitted.nodup
  least := isLeast_settle h
  joins_last _ _ hb := enqueueAll_concat h.admitted.nodup h.admitted.not_mem hb
  behind_required front c back hadded i hi := by
    have hord := inOrder_settle cs q
    rw [hadded] at hord
    exact hord.of_requires hi
  others_wait := waiting_settle_eq h
  others_miss c hc hleft := by
    have hover : c ∈ q.leftOver cs := by
      rw [leftOver_eq_filter h.nodup, List.mem_filter]
      exact ⟨hc, decide_eq_true hleft⟩
    obtain ⟨i, hi, hmiss⟩ := misses_leftOver h c hover
    exact List.ne_nil_of_mem (List.mem_filter.2 ⟨hi, decide_eq_true hmiss⟩)

variable {ds : List C} (hperm : ds.Perm cs)
include hperm

/-- The order of the candidates does not decide which of them are admitted. -/
theorem perm_fst_settle : (q.settle ds).1.Perm (q.settle cs).1 := by
  rw [List.perm_ext_iff_of_nodup (h.perm hperm).admitted.nodup h.admitted.nodup]
  intro c
  rw [mem_settle_iff h, mem_settle_iff (h.perm hperm), hperm.mem_iff, and_congr_right_iff]
  exact fun _ => ⟨fun ha => ha.mono hperm.subset, fun ha => ha.mono hperm.symm.subset⟩

/-- Nor does it decide who waits, and for what. -/
theorem perm_waiting_settle : (q.settle ds).2.waiting.Perm (q.settle cs).2.waiting := by
  have hadded := perm_fst_settle h hperm
  have hfilter : ds.filter (· ∉ (q.settle ds).1) = ds.filter (· ∉ (q.settle cs).1) :=
    List.filter_congr fun c _ => decide_eq_decide.2 (not_congr hadded.mem_iff)
  have hpark : park (C := C) ((q.settle ds).2.lane.changes.map ident) =
      park ((q.settle cs).2.lane.changes.map ident) := by
    funext c
    refine park_congr fun i _ => ?_
    rw [changes_settle h, changes_settle (h.perm hperm)]
    exact ((hadded.append_left _).map ident).mem_iff
  rw [waiting_settle_eq h, waiting_settle_eq (h.perm hperm), hfilter, hpark]
  exact ((hperm.filter _).map _).append_left _

end Settle

/-- Candidates with identities of their own, none of which stands in the lane, are settled. Those
that are admitted are the least set of candidates that has a candidate exactly if each identity that
it requires stands in the lane or belongs to a member; they join the last batch, each behind what it
requires, and leave all else in the lane as it is. The others join those that wait, in their order,
each with what it then misses, which is something. Another order of the candidates admits the same
ones and leaves the same ones waiting for the same. -/
theorem settle_admits_least (distinct : (cs.map ident).Nodup)
    (new : ∀ c ∈ cs, ident c ∉ q.lane.changes.map ident) :
    AdmitsLeast q cs (q.settle cs).1 (q.settle cs).2 ∧
      ∀ ds, ds.Perm cs → (q.settle ds).1.Perm (q.settle cs).1 ∧
        (q.settle ds).2.waiting.Perm (q.settle cs).2.waiting :=
  have h : NewTo q.lane cs := ⟨distinct, new⟩
  ⟨admitsLeast_settle h, fun _ hperm => ⟨perm_fst_settle h hperm, perm_waiting_settle h hperm⟩⟩

def halfFull : Queue ChangeRecord ChangeId :=
  ⟨⟨[[⟨⟨"x"⟩, .empty⟩], [⟨⟨"y"⟩, .empty⟩]], some ⟨2⟩, 3⟩, []⟩

/-- Each but the last of the first three requires the one behind it. Then two require each other,
and one requires what is nowhere. -/
def candidates : List ChangeRecord :=
  [⟨⟨"c"⟩, .ofList [⟨"b"⟩, ⟨"y"⟩]⟩, ⟨⟨"b"⟩, .ofList [⟨"a"⟩]⟩, ⟨⟨"a"⟩, .ofList [⟨"x"⟩]⟩,
    ⟨⟨"p"⟩, .ofList [⟨"a"⟩, ⟨"q"⟩]⟩, ⟨⟨"q"⟩, .ofList [⟨"p"⟩]⟩, ⟨⟨"d"⟩, .ofList [⟨"c"⟩, ⟨"z"⟩]⟩]

theorem candidates_admitted_least :
    (halfFull.settle candidates).1.map (·.id.text) = ["a", "b", "c"] ∧
      (halfFull.settle candidates).2.waiting.map (·.missing.map (·.text)) = [["q"], ["p"], ["z"]] ∧
      AdmitsLeast halfFull candidates (halfFull.settle candidates).1
        (halfFull.settle candidates).2 ∧
      (halfFull.settle candidates.reverse).1.Perm (halfFull.settle candidates).1 := by
  have distinct : (candidates.map ident).Nodup := by decide +kernel
  have new : ∀ c ∈ candidates, ident c ∉ halfFull.lane.changes.map ident := by decide +kernel
  obtain ⟨hleast, horder⟩ := settle_admits_least distinct new
  exact ⟨by decide +kernel, by decide +kernel, hleast,
    (horder candidates.reverse (List.reverse_perm candidates)).1⟩

end MergeQueue.Queue
