import MergeQueue.Proofs.Timestamp.Calendar
import MergeQueue.Timestamp

/-!
# Points in time are read back

Padded numbers read back with whatever follows them, and so do the date, the time of day and the
fraction of a point in time. All points in time within the years that can be written are read from
their texts.
-/
namespace MergeQueue.Timestamp

open Text

section Numbers

variable {width n : ℕ}

theorem isDigit_of_mem_padded {c : Char} (h : c ∈ padded width n) : c.isDigit = true := by
  rw [padded, List.leftpad, List.mem_append] at h
  rcases h with h | h
  · rw [List.eq_of_mem_replicate h]
    rfl
  · exact isDigit_of_mem_decimal h

theorem ofDecimal_padded (width n : ℕ) : ofDecimal (padded width n) = n := by
  rw [padded, List.leftpad, ofDecimal, Nat.ofDigitChars_append, Nat.ofDigitChars_replicate_zero]
  exact ofDecimal_decimal n

theorem length_padded (hw : 0 < width) (hn : n < 10 ^ width) : (padded width n).length = width := by
  have : (decimal n).length ≤ width := (Nat.length_toDigits_le_iff (by decide) hw).2 hn
  rw [padded, List.leftpad, List.length_append, List.length_replicate]
  omega

theorem padded_eq_cons (width n : ℕ) : ∃ d ds, padded width n = d :: ds ∧ d.isDigit = true := by
  cases h : padded width n with
  | nil => exact absurd (List.append_eq_nil_iff.1 h).2 (decimal_ne_nil n)
  | cons d ds => exact ⟨d, ds, rfl, isDigit_of_mem_padded (h ▸ List.mem_cons_self)⟩

theorem takeWhile_padded {s : List Char} (hs : ∀ c ∈ s.head?, c.isDigit = false) :
    (padded width n ++ s).takeWhile Char.isDigit = padded width n := by
  rw [List.takeWhile_append_of_pos fun c hc => isDigit_of_mem_padded hc]
  cases s with
  | nil => simp
  | cons c s => simp [hs c rfl]

theorem readNumber_padded (width n : ℕ) {most : ℕ} {s : List Char}
    (hw : (padded width n).length ≤ most)
    (hs : (padded width n).length = most ∨ ∀ c ∈ s.head?, c.isDigit = false) :
    readNumber most (padded width n ++ s) = some (n, s) := by
  have htake : ((padded width n ++ s).take most).takeWhile Char.isDigit = padded width n := by
    rw [List.take_append, List.take_of_length_le hw]
    refine takeWhile_padded fun c hc => ?_
    rw [List.head?_take] at hc
    split at hc
    · cases hc
    · rename_i hk
      exact hs.elim (fun he => absurd (by omega) hk) fun hs => hs c hc
  obtain ⟨d, ds, hd, -⟩ := padded_eq_cons width n
  simp only [readNumber, htake, ofDecimal_padded, List.drop_left]
  exact if_neg (by simp [hd])

theorem not_isWhiteSpace_of_isDigit {c : Char} (h : c.isDigit = true) : isWhiteSpace c = false := by
  simp only [Char.isDigit, ge_iff_le, Bool.and_eq_true, decide_eq_true_eq] at h
  have h0 : 48 ≤ c.toNat := UInt32.le_iff_toNat_le.1 h.1
  have h9 : c.toNat ≤ 57 := UInt32.le_iff_toNat_le.1 h.2
  simp [isWhiteSpace, whiteSpaceRanges]
  omega

theorem skipSpace_cons {c : Char} (h : isWhiteSpace c = false) (s : List Char) :
    skipSpace (c :: s) = c :: s := List.dropWhile_cons_of_neg (by simp [h])

theorem skipSpace_padded (s : List Char) :
    skipSpace (padded width n ++ s) = padded width n ++ s := by
  obtain ⟨d, ds, hd, hdigit⟩ := padded_eq_cons width n
  rw [hd]
  exact skipSpace_cons (not_isWhiteSpace_of_isDigit hdigit) _

theorem readField_padded {least most : ℕ} (hl : least ≤ n) (hm : n ≤ most) (h : n < 100)
    (s : List Char) : readField least most (padded 2 n ++ s) = some (n, s) := by
  have hlen : (padded 2 n).length = 2 := length_padded (by decide) h
  rw [readField, skipSpace_padded, readNumber_padded 2 n hlen.le (.inl hlen)]
  exact if_pos ⟨hl, hm⟩

theorem readMark_cons {c : Char} (h : isWhiteSpace c = false) (s : List Char) :
    readMark c (c :: s) = some s := by
  rw [readMark, skipSpace_cons h]
  exact if_pos rfl

end Numbers

section Parts

theorem readYear_yearText (year : ℤ) (s : List Char) :
    readYear (yearText year ++ '-' :: s) = some (year, '-' :: s) := by
  have hs : ∀ c ∈ ('-' :: s).head?, c.isDigit = false := by
    rintro c ⟨⟩
    rfl
  rw [yearText]
  split
  · rename_i hy
    have hlen : (padded 4 year.toNat).length = 4 := length_padded (by decide) (by omega)
    obtain ⟨d, ds, hd, hdigit⟩ := padded_eq_cons 4 year.toNat
    have hread := readNumber_padded 4 year.toNat (s := '-' :: s) hlen.le (.inl hlen)
    rw [readYear, skipSpace_padded]
    rw [hd] at hread ⊢
    -- The text begins with a digit, so no sign is read.
    split
    · rename_i heq
      cases heq
      exact absurd hdigit (by decide)
    · rename_i heq
      cases heq
      exact absurd hdigit (by decide)
    · rw [hread, Option.map_some]
      exact congrArg (fun y => some (y, '-' :: s)) (Int.toNat_of_nonneg hy.1)
  · have hlen : (padded 4 year.natAbs).length ≤ (padded 4 year.natAbs ++ '-' :: s).length := by
      rw [List.length_append]
      exact Nat.le_add_right _ _
    have hread := readNumber_padded 4 year.natAbs hlen (.inr hs)
    split
    · rw [readYear, List.cons_append, skipSpace_cons (by decide)]
      simp only [hread, Option.map_some]
      congr 2
      omega
    · rw [readYear, List.cons_append, skipSpace_cons (by decide)]
      simp only [hread, Option.map_some]
      congr 2
      omega

theorem readDate_text {d : Date} (h : d.isValid = true) (s : List Char) :
    readDate (yearText d.year ++ '-' :: (padded 2 d.month ++ '-' :: (padded 2 d.day ++ s))) =
      some (d, s) := by
  have hv := h
  simp only [Date.isValid, Bool.and_eq_true, decide_eq_true_eq] at hv
  obtain ⟨⟨⟨⟨-, hm1⟩, hm12⟩, hd1⟩, hd⟩ := hv
  have hd31 : d.day ≤ 31 := hd.trans (by unfold Date.daysInMonth; split <;> (try split) <;> omega)
  have hmark : isWhiteSpace '-' = false := by decide
  simp only [readDate, readYear_yearText, readMark_cons hmark, readField_padded hm1 hm12 (by omega),
    readField_padded hd1 hd31 (by omega), Option.bind_eq_bind, Option.bind_some]
  exact if_pos h

theorem readFraction_padded {width n : ℕ} (hw : 0 < width) (hw9 : width ≤ 9) (hn : n < 10 ^ width) :
    readFraction ('.' :: padded width n ++ ['Z']) = some (n * 10 ^ (9 - width), ['Z']) := by
  have hlen := length_padded hw hn
  have hdigits : (padded width n ++ ['Z']).takeWhile Char.isDigit = padded width n := by
    refine takeWhile_padded ?_
    rintro c ⟨⟩
    rfl
  have hkept : (padded width n).take 9 = padded width n := List.take_of_length_le (by omega)
  have hvalue : ofDecimal (padded width n ++ List.replicate (9 - width) '0') =
      n * 10 ^ (9 - width) := by
    rw [ofDecimal, Nat.ofDigitChars_append, Nat.ofDigitChars_replicate_zero, mul_comm]
    exact congrArg (· * _) (ofDecimal_padded width n)
  have hne : (padded width n).isEmpty = false := by
    obtain ⟨d, ds, hd, -⟩ := padded_eq_cons width n
    rw [hd]
    rfl
  simp only [List.cons_append, readFraction, hdigits, hne, hkept, hlen, hvalue, List.drop_left',
    Bool.false_eq_true, if_false]

theorem readFraction_text {nano : ℕ} (h : nano < 1000000000) :
    readFraction (fractionText nano ++ ['Z']) = some (nano, ['Z']) := by
  unfold fractionText
  split
  · subst_vars
    rfl
  split
  · rw [readFraction_padded (by decide) (by decide) (by omega)]
    congr 2
    omega
  split
  · rw [readFraction_padded (by decide) (by decide) (by omega)]
    congr 2
    omega
  · rw [readFraction_padded (by decide) (by decide) (by omega), Nat.sub_self, pow_zero, mul_one]

/-- The time of day of a second that may be a leap second. -/
theorem readTime_text {ofDay nano : ℕ} (hd : ofDay < 86400) (hn : nano < 2000000000)
    (hleap : 1000000000 ≤ nano → ofDay % 60 = 59) :
    readTime (padded 2 (ofDay / 3600) ++ ':' :: (padded 2 (ofDay / 60 % 60) ++ ':' ::
      (padded 2 (ofDay % 60 + nano / 1000000000) ++ (fractionText (nano % 1000000000) ++ ['Z'])))) =
      some (ofDay, nano, ['Z']) := by
  have hmark : isWhiteSpace ':' = false := by decide
  have hsecond : ofDay % 60 + nano / 1000000000 ≤ 60 := by omega
  have hhour : ofDay / 3600 ≤ 23 := by omega
  have hminute : ofDay / 60 % 60 ≤ 59 := by omega
  simp only [readTime, readField_padded (Nat.zero_le _) hhour (by omega),
    readField_padded (Nat.zero_le _) hminute (by omega),
    readField_padded (Nat.zero_le _) hsecond (by omega), readMark_cons hmark,
    readFraction_text (Nat.mod_lt nano (by decide)), Option.bind_eq_bind, Option.bind_some]
  congr 2
  · omega
  · congr 1
    omega

end Parts

/-- A point in time is read from its text. -/
theorem read_text {t : Timestamp} (h : t.IsValid) : read t.text = some t := by
  obtain ⟨hy, hn, hleap⟩ := h
  have htime := readTime_text (show (t.second % 86400).toNat < 86400 by omega) hn (by omega)
  have hoffset : readOffset (skipSpace ['Z']) = some (0, []) := by decide
  have hsecond : (Date.ofDays (t.second / 86400)).toDays * 86400 +
      ((t.second % 86400).toNat : ℤ) - 0 = t.second := by
    rw [Date.toDays_ofDays]
    omega
  simp only [text, List.append_assoc, List.cons_append, read,
    readDate_text (Date.isValid_ofDays hy), htime, hoffset, hsecond, Option.bind_eq_bind,
    Option.bind_some]
  exact if_pos ⟨rfl, hy⟩

end MergeQueue.Timestamp
