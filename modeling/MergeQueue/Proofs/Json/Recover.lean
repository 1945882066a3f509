import MergeQueue.Json.Form
import MergeQueue.Proofs.Json.Scan

/-!
# What is written is read back

A form recovers a value if reading what it writes for the value gives the value again and leaves
what follows, and if what it writes can be laid out as a text. Lists, options and values with named
members are recovered with their parts. A text in either layout then parses to the value it was
written for.
-/
namespace MergeQueue.Json

open Text

section Writing

variable {ts us : List Token}

/-- Not a number, and written in any case. -/
def Token.IsMark (t : Token) : Prop := t.IsPlain ∧ ¬t.IsNumber

theorem Writable.nil : Writable [] := ⟨nofun, .nil⟩

theorem Writable.singleton {t : Token} (h : t.IsPlain) : Writable [t] :=
  ⟨by simpa using h, .singleton t⟩

theorem Writable.cons {t : Token} (ht : t.IsMark) (h : Writable ts) : Writable (t :: ts) :=
  ⟨List.forall_mem_cons.2 ⟨ht.1, h.1⟩, List.isChain_cons.2 ⟨fun _ _ hn => absurd hn ht.2, h.2⟩⟩

/-- A mark keeps two texts apart. -/
theorem Writable.append {t : Token} (h : Writable ts) (ht : t.IsMark) (hu : Writable us) :
    Writable (ts ++ t :: us) := by
  have hu := hu.cons ht
  refine ⟨List.forall_mem_append.2 ⟨h.1, hu.1⟩, List.isChain_append.2 ⟨h.2, hu.2, ?_⟩⟩
  rintro x _ y ⟨⟩ _
  exact ht.2

theorem isMark_comma : Token.comma.IsMark := ⟨trivial, nofun⟩

theorem isMark_colon : Token.colon.IsMark := ⟨trivial, nofun⟩

theorem isMark_string (s : String) : (Token.string (some s)).IsMark := ⟨nofun, nofun⟩

theorem writable_separated {xs : List (List Token)} (h : ∀ x ∈ xs, Writable x) :
    Writable (Form.separated xs) := by
  fun_induction Form.separated xs with
  | case1 => exact .nil
  | case2 x => exact h x List.mem_cons_self
  | case3 x y xs ih =>
    rw [List.forall_mem_cons] at h
    exact h.1.append isMark_comma (ih h.2)

theorem length_le_separated (xs : List (List Token)) (h : ∀ x ∈ xs, x ≠ []) :
    xs.length ≤ (Form.separated xs).length := by
  fun_induction Form.separated xs with
  | case1 => exact Nat.le_refl _
  | case2 x => exact List.length_pos_iff.2 (h x List.mem_cons_self)
  | case3 x y xs ih =>
    rw [List.forall_mem_cons] at h
    have := ih h.2
    simp only [List.length_cons, List.length_append] at this ⊢
    omega

end Writing

namespace Form

variable {α β : Type}

/-- The form reads back what it writes for `a`. -/
structure Recovers (f : Form α) (a : α) : Prop where
  read_write : ∀ rest, f.read (f.write a ++ rest) = .ok (a, rest)
  writable : Writable (f.write a)
  opens : ∃ t ts, f.write a = t :: ts ∧ t ≠ .closeList

theorem Recovers.ne_nil {f : Form α} {a : α} (h : f.Recovers a) : f.write a ≠ [] := by
  obtain ⟨t, ts, he, -⟩ := h.opens
  simp [he]

theorem parse_of_spells {f : Form α} {a : α} (h : f.Recovers a) {s : List Char}
    (hs : Spells s (f.write a)) : f.parse (symbols s) = .ok a := by
  have := h.read_write []
  rw [List.append_nil] at this
  rw [parse, hs.tokens_eq, this]

theorem Recovers.parse_compactText {f : Form α} {a : α} (h : f.Recovers a) :
    f.parse (Symbol.ofString (f.compactText a)) = .ok a := by
  rw [Symbol.ofString, compactText, String.toList_ofList]
  exact parse_of_spells h (spells_compact h.writable)

/-- The compact text of every value parses to this value. -/
def ReadsBack (f : Form α) : Prop := ∀ a, f.parse (Symbol.ofString (f.compactText a)) = .ok a

theorem readsBack_of_recovers {f : Form α} (h : ∀ a, f.Recovers a) : f.ReadsBack :=
  fun a => (h a).parse_compactText

theorem Recovers.parse_wideText {f : Form α} {a : α} (h : f.Recovers a) :
    f.parse (Symbol.ofString (f.wideText a)) = .ok a := by
  rw [Symbol.ofString, wideText, String.toList_ofList]
  exact parse_of_spells h (spells_wideFrom 0 h.writable)

theorem recovers_text (s : String) : text.Recovers s where
  read_write _ := rfl
  writable := .singleton nofun
  opens := ⟨_, _, rfl, nofun⟩

theorem recovers_integer {value : α → Int} {accept : Int → Option α} {a : α}
    (fits : FitsWord (value a)) (accepts : accept (value a) = some a) :
    (integer value accept).Recovers a where
  read_write rest := by
    change readInteger accept (.number (.integer (value a)) :: rest) = _
    rw [readInteger, accepts]
  writable := .singleton fits
  opens := ⟨_, _, rfl, nofun⟩

theorem recovers_word64 (n : UInt64) : word64.Recovers n := by
  have hn : n.toNat < UInt64.size := n.toNat_lt
  refine recovers_integer ⟨?_, Int.ofNat_lt.2 hn⟩ ?_
  · exact Int.le_trans (by decide) (Int.natCast_nonneg _)
  · rw [if_pos ⟨Int.natCast_nonneg _, Int.ofNat_lt.2 hn⟩, Int.toNat_natCast, UInt64.ofNat_toNat]

theorem recovers_word32 (n : UInt32) : word32.Recovers n := by
  have hn : n.toNat < UInt32.size := n.toNat_lt
  refine recovers_integer ⟨?_, Int.ofNat_lt.2 (Nat.lt_trans hn (by decide))⟩ ?_
  · exact Int.le_trans (by decide) (Int.natCast_nonneg _)
  · rw [if_pos ⟨Int.natCast_nonneg _, Int.ofNat_lt.2 hn⟩, Int.toNat_natCast, UInt32.ofNat_toNat]

theorem recovers_int64 (n : Int64) : int64.Recovers n := by
  have hle : n.toInt ≤ Int64.maxValue.toInt := Int64.toInt_le n
  refine recovers_integer ⟨Int64.minValue_le_toInt n, Int.lt_of_le_of_lt hle (by decide)⟩ ?_
  rw [if_pos ⟨Int64.minValue_le_toInt n, hle⟩, Int64.ofInt_toInt]

theorem Recovers.ofPartial {f : Form β} {view : α → β} {back : β → Option α} {a : α}
    (h : f.Recovers (view a)) (hb : back (view a) = some a) :
    (ofPartial view back f).Recovers a where
  read_write rest := by
    simp only [Form.ofPartial, h.read_write, hb]
  writable := h.writable
  opens := h.opens

theorem Recovers.ofMap {f : Form β} {view : α → β} {back : β → α} {a : α}
    (h : f.Recovers (view a)) (hb : back (view a) = a) : (ofMap view back f).Recovers a :=
  h.ofPartial (congrArg some hb)

theorem recovers_option {f : Form α} {a : Option α} (h : ∀ b ∈ a, f.Recovers b)
    (hn : ∀ b, (f.write b).head? ≠ some .null) : (option f).Recovers a := by
  cases a with
  | none => exact ⟨fun _ => rfl, .singleton trivial, _, _, rfl, nofun⟩
  | some b =>
    have hb := h b rfl
    refine ⟨fun rest => ?_, hb.writable, hb.opens⟩
    change readOption f.read (f.write b ++ rest) = _
    unfold readOption
    split
    · rename_i ts he
      obtain ⟨t, us, hw, -⟩ := hb.opens
      have := hn b
      rw [hw] at he this
      cases he
      exact absurd rfl this
    · rw [hb.read_write]

section Lists

variable {f : Form α}

theorem readItems_separated {as : List α} (h : ∀ a ∈ as, f.Recovers a) (hne : as ≠ [])
    (fuel : Nat) (hfuel : as.length ≤ fuel) (rest : List Token) :
    readItems f.read fuel (separated (as.map f.write) ++ .closeList :: rest) = .ok (as, rest) := by
  induction as generalizing fuel with
  | nil => exact absurd rfl hne
  | cons a as ih =>
    rw [List.forall_mem_cons] at h
    obtain ⟨fuel, rfl⟩ : ∃ k, fuel = k + 1 := Nat.exists_eq_add_one.2 (by simp at hfuel; omega)
    cases as with
    | nil => simp [separated, readItems, h.1.read_write]
    | cons b as =>
      have := ih h.2 (by simp) fuel (by simpa using hfuel)
      simp only [List.map_cons] at this
      simp only [List.map_cons, separated, List.append_assoc, List.cons_append, readItems,
        h.1.read_write, this]

theorem separated_cons_eq (t : Token) (ts : List Token) (xs : List (List Token)) :
    ∃ us, separated ((t :: ts) :: xs) = t :: us := by
  cases xs <;> exact ⟨_, rfl⟩

theorem recovers_list {as : List α} (h : ∀ a ∈ as, f.Recovers a) : (list f).Recovers as where
  read_write rest := by
    have hw : (list f).write as ++ rest =
        .openList :: (separated (as.map f.write) ++ .closeList :: rest) := by
      simp [list]
    rw [hw]
    change readList f.read _ = _
    cases as with
    | nil => rfl
    | cons a as =>
      have hlen := length_le_separated ((a :: as).map f.write) (by
        simp only [List.forall_mem_map]
        exact fun b hb => (h b hb).ne_nil)
      -- The first member does not begin like the end of the list.
      obtain ⟨t, ts, he, ht⟩ := (h a List.mem_cons_self).opens
      obtain ⟨us, hs⟩ := separated_cons_eq t ts (as.map f.write)
      have hread := readItems_separated h (by simp)
        (separated ((a :: as).map f.write) ++ .closeList :: rest).length
        (by simp at hlen ⊢; omega) rest
      rw [List.map_cons, he, hs] at hread ⊢
      unfold readList
      split
      · rename_i heq
        cases heq
        exact absurd rfl ht
      · rename_i heq
        cases heq
        exact hread
      · rename_i hne
        exact absurd rfl (hne _)
  writable := by
    refine Writable.cons ⟨trivial, nofun⟩ (Writable.append (writable_separated ?_) ?_ .nil)
    · simp only [List.forall_mem_map]
      exact fun a ha => (h a ha).writable
    · exact ⟨trivial, nofun⟩
  opens := ⟨_, _, rfl, nofun⟩

theorem recovers_every_list (h : ∀ a, f.Recovers a) (as : List α) : (list f).Recovers as :=
  recovers_list fun a _ => h a

end Lists

end Form

namespace Members

variable {P Q α β : Type}

/-- Reading these members one after another leads from what was read so far to `got'`. -/
inductive Takes (f : Members P α) : P → List (String × List Token) → P → Prop
  | nil (got : P) : Takes f got [] got
  | cons {got got' got'' : P} {name : String} {ts : List Token} {ms : List (String × List Token)}
      {read : Reader P} (claim : f.claim got name = .member read)
      (read_eq : ∀ rest, read (ts ++ rest) = .ok (got', rest)) (h : Takes f got' ms got'') :
      Takes f got ((name, ts) :: ms) got''

/-- The row of members reads back what it writes for `a`. -/
structure Recovers (f : Members P α) (a : α) : Prop where
  takes : ∃ got, Takes f f.start (f.write a) got ∧ f.finish got = .ok a
  writable : ∀ m ∈ f.write a, Writable m.2

theorem recovers_one {f : Member α} {a : α} (h : f.omits a = false → f.form.Recovers a)
    (ho : f.omits a = true → f.absent = some a) : (one f).Recovers a := by
  cases hf : f.omits a with
  | true =>
    have hw : (one f).write a = [] := by simp [one, hf]
    refine ⟨⟨none, hw ▸ .nil _, ?_⟩, by simp [hw]⟩
    simp [one, ho hf]
  | false =>
    have hw : (one f).write a = [(f.name, f.form.write a)] := by simp [one, hf]
    refine ⟨⟨some a, hw ▸ .cons (if_pos rfl) (fun rest => ?_) (.nil _), rfl⟩, ?_⟩
    · rw [(h hf).read_write]
    · simpa [hw] using (h hf).writable

theorem recovers_required {name : String} {f : Form α} {a : α} (h : f.Recovers a) :
    (one (.required name f)).Recovers a :=
  recovers_one (fun _ => h) nofun

theorem Takes.left {f : Members P α} {g : Members Q β} {p p' : P} {ms : List (String × List Token)}
    (h : Takes f p ms p') (q : Q) : Takes (f.and g) (p, q) ms (p', q) := by
  induction h with
  | nil => exact .nil _
  | @cons got _ _ name _ _ read claim read_eq _ ih =>
    have hclaim : (f.and g).claim (got, q) name = .member (updating read fun p => (p, q)) := by
      simp only [Members.and, claim]
    refine .cons hclaim (fun rest => ?_) ih
    simp only [updating, read_eq]

/-- The members of `g` are read behind those of `f` if `f` knows none of their names. -/
theorem Takes.right {f : Members P α} {g : Members Q β} {q q' : Q} {ms : List (String × List Token)}
    (h : Takes g q ms q') {p : P} (hf : ∀ m ∈ ms, f.claim p m.1 = .unknown) :
    Takes (f.and g) (p, q) ms (p, q') := by
  induction h with
  | nil => exact .nil _
  | @cons got _ _ name _ _ read claim read_eq _ ih =>
    rw [List.forall_mem_cons] at hf
    have hclaim : (f.and g).claim (p, got) name = .member (updating read fun q => (p, q)) := by
      simp only [Members.and, hf.1, claim]
    refine .cons hclaim (fun rest => ?_) (ih hf.2)
    simp only [updating, read_eq]

theorem Takes.append {f : Members P α} {p p' p'' : P} {ms ns : List (String × List Token)}
    (h : Takes f p ms p') (h' : Takes f p' ns p'') : Takes f p (ms ++ ns) p'' := by
  induction h with
  | nil => exact h'
  | cons claim read_eq _ ih => exact .cons claim read_eq (ih h')

/-- A member in front of a row that has none of its name. -/
theorem Recovers.cons {f : Member α} {g : Members Q β} {a : α} {b : β} (hf : (one f).Recovers a)
    (hg : g.Recovers b) (fresh : ∀ m ∈ g.write b, m.1 ≠ f.name) :
    ((one f).and g).Recovers (a, b) := by
  obtain ⟨p, hp, hpa⟩ := hf.takes
  obtain ⟨q, hq, hqb⟩ := hg.takes
  refine ⟨⟨(p, q), (hp.left _).append (hq.right fun m hm => if_neg (fresh m hm)), ?_⟩, ?_⟩
  · simp [Members.and, hpa, hqb]
  · exact List.forall_mem_append.2 ⟨hf.writable, hg.writable⟩

def entry (m : String × List Token) : List Token := .string (some m.1) :: .colon :: m.2

theorem readObject_entries {f : Members P α} {got got' : P} {ms : List (String × List Token)}
    (h : Takes f got ms got') (hne : ms ≠ []) {a : α} (ha : f.finish got' = .ok a) (fuel : Nat)
    (hfuel : ms.length ≤ fuel) (rest : List Token) :
    f.readObject fuel got (Form.separated (ms.map entry) ++ .closeObject :: rest) =
      .ok (a, rest) := by
  induction h generalizing fuel with
  | nil => exact absurd rfl hne
  | @cons got got' _ name ts ms read claim read_eq h ih =>
    obtain ⟨fuel, rfl⟩ : ∃ k, fuel = k + 1 := Nat.exists_eq_add_one.2 (by simp at hfuel; omega)
    cases ms with
    | nil =>
      cases h
      simp [Form.separated, entry, readObject, claim, read_eq, ha, Except.map]
    | cons m ms =>
      have := ih (by simp) ha fuel (by simpa using hfuel)
      simp only [List.map_cons] at this
      simp only [List.map_cons, Form.separated, entry, List.append_assoc, List.cons_append,
        readObject, claim, read_eq]
      exact this

theorem Recovers.form {f : Members P α} {a : α} (h : f.Recovers a) : f.form.Recovers a where
  read_write rest := by
    obtain ⟨got, hgot, ha⟩ := h.takes
    have hw : f.form.write a ++ rest =
        .openObject :: (Form.separated ((f.write a).map entry) ++ .closeObject :: rest) := by
      simp only [Members.form, List.cons_append, List.append_assoc, List.nil_append]
      rfl
    rw [hw]
    change f.read _ = _
    cases hm : f.write a with
    | nil =>
      rw [hm] at hgot
      cases hgot
      simp [Form.separated, read, ha, Except.map]
    | cons m ms =>
      have hlen := length_le_separated ((m :: ms).map entry) (by
        simp only [List.forall_mem_map]
        exact fun _ _ => List.cons_ne_nil _ _)
      have hread := readObject_entries (hm ▸ hgot) (by simp) ha
        (Form.separated ((m :: ms).map entry) ++ .closeObject :: rest).length
        (by simp at hlen ⊢; omega) rest
      obtain ⟨us, hs⟩ :=
        Form.separated_cons_eq (.string (some m.1)) (.colon :: m.2) (ms.map entry)
      rw [List.map_cons, entry, hs] at hread ⊢
      exact hread
  writable := by
    refine Writable.cons ⟨trivial, nofun⟩ (Writable.append (writable_separated ?_) ?_ .nil)
    · simp only [List.forall_mem_map]
      exact fun m hm => ((h.writable m hm).cons isMark_colon).cons (isMark_string _)
    · exact ⟨trivial, nofun⟩
  opens := ⟨_, _, rfl, nofun⟩

theorem recovers_required_pair {name name' : String} {f : Form α} {g : Form β} {a : α} {b : β}
    (ha : f.Recovers a) (hb : g.Recovers b) (hne : name' ≠ name) :
    ((one (.required name f)).and (one (.required name' g))).form.Recovers (a, b) := by
  refine ((recovers_required ha).cons (recovers_required hb) fun m hm => ?_).form
  cases List.mem_singleton.1 hm
  exact hne

end Members

end MergeQueue.Json
