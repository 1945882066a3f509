import MergeQueue.Json.Token
import MergeQueue.Json.Lexer
import Mathlib.Data.List.Chain

/-!
# What is written is cut into the same tokens

The text of a token is read as this token, whatever follows, except that a number must not run into
more digits, a point or an exponent. Texts of tokens with white space between them are cut into
these tokens again; both layouts write such texts.
-/
namespace MergeQueue.Json

open Text

abbrev symbols (s : List Char) : List Symbol := s.map .char

/-- No number goes on here. -/
def EndsNumber (s : List Char) : Prop :=
  ∀ c ∈ s.head?, c.isDigit = false ∧ c ≠ '.' ∧ c ≠ 'e' ∧ c ≠ 'E'

section Number

variable {ds s : List Char}

theorem scanDigits_append (hds : ∀ c ∈ ds, c.isDigit = true) (hs : EndsNumber s) :
    scanDigits (symbols (ds ++ s)) = (ds, symbols s) := by
  induction ds with
  | nil =>
    cases s with
    | nil => rfl
    | cons c s =>
      obtain ⟨hc, -⟩ := hs c rfl
      simp [symbols, scanDigits, hc]
  | cons d ds ih =>
    rw [List.forall_mem_cons] at hds
    have ih := ih hds.2
    simp only [symbols, List.cons_append, List.map_cons] at ih ⊢
    rw [scanDigits, if_pos hds.1, ih]

theorem scanPlaces_of_endsNumber (hs : EndsNumber s) :
    scanPlaces (symbols s) = some (none, symbols s) := by
  cases s with
  | nil => rfl
  | cons c s =>
    obtain ⟨-, hc, -⟩ := hs c rfl
    unfold scanPlaces
    split
    · simp_all
    · rfl

theorem scanExponent_of_endsNumber (hs : EndsNumber s) :
    scanExponent (symbols s) = some (none, symbols s) := by
  cases s with
  | nil => rfl
  | cons c s =>
    obtain ⟨-, -, he, hE⟩ := hs c rfl
    simp [scanExponent, he, hE]

/-- The digits of a number have no zero in front but for zero itself. -/
theorem scanNumber_decimal (negative : Bool) (n : Nat) (hs : EndsNumber s) :
    scanNumber negative (symbols (decimal n ++ s)) =
      some (.number (.ofParts negative (decimal n) none none), symbols s) := by
  unfold scanNumber
  rw [scanDigits_append (fun c hc => isDigit_of_mem_decimal hc) hs]
  split
  · rename_i h
    exact absurd (Prod.ext_iff.1 h).1 (decimal_ne_nil n)
  · rename_i d ds _ h
    have hd : decimal n = '0' :: d :: ds := (Prod.ext_iff.1 h).1
    have hn : n = 0 := eq_zero_of_decimal_eq hd
    subst hn
    exact absurd (congrArg List.length hd) (by simp [decimal])
  · rename_i h
    cases h
    simp only [scanPlaces_of_endsNumber hs, scanExponent_of_endsNumber hs]

/-- The integers that fit 64 bits, signed or unsigned. -/
def FitsWord (n : Int) : Prop := Int64.minValue.toInt ≤ n ∧ n < UInt64.size

theorem ofParts_natCast {n : Nat} (h : n < UInt64.size) :
    Number.ofParts false (decimal n) none none = .integer n := by
  have h' : (n : Int) < UInt64.size := by exact_mod_cast h
  simp only [Number.ofParts, ofDecimal_decimal, Bool.false_eq_true, if_false, h', decide_true,
    Option.isNone_none, and_self, if_true]

theorem ofParts_negSucc {n : Nat} (h : Int64.minValue.toInt ≤ Int.negSucc n) :
    Number.ofParts true (decimal (n + 1)) none none = .integer (.negSucc n) := by
  have hn : -((n + 1 : Nat) : Int) = Int.negSucc n := rfl
  simp only [Number.ofParts, ofDecimal_decimal, if_true, hn, Int.negSucc_lt_zero, h, decide_true,
    Option.isNone_none, and_self]

end Number

section Strings

variable (s : List Symbol)

theorem hexValue_digitChar {d : Nat} (h : d < 16) : hexValue (Nat.digitChar d) = some d := by
  exact (by decide : ∀ d < 16, hexValue (Nat.digitChar d) = some d) d h

theorem scanUnit_digitChar {n : Nat} (h : n < 0x20) :
    scanUnit (.char '0' :: .char '0' :: .char (Nat.digitChar (n / 16)) ::
      .char (Nat.digitChar (n % 16)) :: s) = some (.char (Char.ofNat n), s) := by
  have hz : hexValue '0' = some 0 := by decide
  have hn : ((0 * 16 + 0) * 16 + n / 16) * 16 + n % 16 = n := by omega
  simp only [scanUnit, codeUnit, hz, hexValue_digitChar (show n / 16 < 16 by omega),
    hexValue_digitChar (show n % 16 < 16 by omega), hn, Option.map_some, Piece.ofUnit]
  rw [if_neg (by omega)]

theorem scanPieces_escaped {e : List Symbol} {p : Piece} {r : List Symbol}
    (h : scanEscape e = some (p, r)) :
    scanPieces (.char '\\' :: e) = consPiece p (scanPieces r) := by
  rw [scanPieces, if_neg (by decide), if_pos rfl]
  split
  · rename_i h'
    rw [h] at h'
    cases h'
    rfl
  · rename_i h'
    rw [h] at h'
    cases h'

/-- Every character of a string is read back, escaped or not. -/
theorem scanPieces_escapeChar (c : Char) :
    scanPieces (symbols (escapeChar c) ++ s) = consPiece (.char c) (scanPieces s) := by
  unfold escapeChar
  split
  case h_8 hq hb _ _ _ _ _ =>
    split
    · rename_i hc
      have := scanUnit_digitChar s hc
      rw [Char.ofNat_toNat] at this
      exact scanPieces_escaped this
    · rename_i hc
      change scanPieces (.char c :: s) = _
      rw [scanPieces, if_neg hq, if_neg hb, if_neg hc]
  all_goals exact scanPieces_escaped rfl

theorem scanPieces_escape (cs s : List Char) :
    scanPieces (symbols (cs.flatMap escapeChar ++ ['"'] ++ s)) =
      some (cs.map .char, symbols s) := by
  induction cs with
  | nil =>
    change scanPieces (.char '"' :: symbols s) = _
    rw [scanPieces, if_pos rfl]
    rfl
  | cons c cs ih =>
    rw [List.flatMap_cons, List.append_assoc, List.append_assoc, symbols, List.map_append,
      scanPieces_escapeChar, ← List.append_assoc, ih]
    rfl

theorem assemble_map_char (cs : List Char) : assemble (cs.map .char) = some cs := by
  induction cs with
  | nil => rfl
  | cons c cs ih => rw [List.map_cons, assemble, ih]; rfl

end Strings

namespace Token

/-- Has a written form that says what it is. -/
def IsPlain : Token → Prop
  | .number (.integer n) => FitsWord n
  | .number _ => False
  | .string s => s ≠ none
  | .broken => False
  | _ => True

def IsNumber (t : Token) : Prop := ∃ n, t = .number n

end Token

section Cut

theorem afterWord_append (w s : List Char) : afterWord w (symbols (w ++ s)) = some (symbols s) := by
  induction w with
  | nil => rfl
  | cons c w ih => exact (if_pos rfl).trans ih

theorem scanToken_of_isDigit {c : Char} {s : List Symbol} (h : c.isDigit = true) :
    scanToken c s = scanNumber false (.char c :: s) := by
  unfold scanToken
  split <;> first | (exact absurd h (by decide)) | exact if_pos h

theorem tokens_of_isSpace {c : Char} (h : isSpace c = true) (s : List Symbol) :
    tokens (.char c :: s) = tokens s := by
  rw [tokens, if_pos h]

theorem tokens_of_scanToken {c : Char} {s r : List Symbol} {t : Token} (hc : isSpace c = false)
    (h : scanToken c s = some (t, r)) : tokens (.char c :: s) = t :: tokens r := by
  rw [tokens, if_neg (by simp [hc])]
  split
  · rename_i h'
    rw [h] at h'
    cases h'
    rfl
  · rename_i h'
    rw [h] at h'
    cases h'

theorem tokens_integerText {n : Int} (h : FitsWord n) {s : List Char} (hs : EndsNumber s) :
    tokens (symbols (integerText n ++ s)) = .number (.integer n) :: tokens (symbols s) := by
  cases n with
  | ofNat n =>
    have hscan := scanNumber_decimal false n hs
    rw [ofParts_natCast (Int.ofNat_lt.1 h.2)] at hscan
    cases hd : decimal n with
    | nil => exact absurd hd (decimal_ne_nil n)
    | cons d ds =>
      have hdigit : d.isDigit = true := isDigit_of_mem_decimal (hd ▸ List.mem_cons_self)
      rw [hd] at hscan
      rw [integerText, hd]
      refine tokens_of_scanToken ?_ ((scanToken_of_isDigit hdigit).trans hscan)
      simp only [isSpace, Bool.or_eq_false_iff, decide_eq_false_iff_not]
      refine ⟨⟨⟨?_, ?_⟩, ?_⟩, ?_⟩ <;>
      · rintro rfl
        exact absurd hdigit (by decide)
  | negSucc n =>
    refine tokens_of_scanToken (by decide) ?_
    rw [← ofParts_negSucc h.1]
    exact scanNumber_decimal true (n + 1) hs

/-- The text of a token is cut off as this token. -/
theorem tokens_text_append {t : Token} (plain : t.IsPlain) {s : List Char}
    (ends : t.IsNumber → EndsNumber s) :
    tokens (symbols (t.text ++ s)) = t :: tokens (symbols s) := by
  cases t with
  | openList | closeList | openObject | closeObject | comma | colon =>
    exact tokens_of_scanToken (by decide) rfl
  | null =>
    refine tokens_of_scanToken (by decide) ?_
    exact congrArg (Option.map fun r => (Token.null, r)) (afterWord_append ['u', 'l', 'l'] s)
  | bool b =>
    cases b with
    | false =>
      refine tokens_of_scanToken (by decide) ?_
      exact congrArg (Option.map fun r => (Token.bool false, r))
        (afterWord_append ['a', 'l', 's', 'e'] s)
    | true =>
      refine tokens_of_scanToken (by decide) ?_
      exact congrArg (Option.map fun r => (Token.bool true, r)) (afterWord_append ['r', 'u', 'e'] s)
  | number n =>
    cases n with
    | integer n => exact tokens_integerText plain (ends ⟨_, rfl⟩)
    | fraction => exact plain.elim
    | overflow => exact plain.elim
  | string v =>
    cases v with
    | none => exact absurd rfl plain
    | some v =>
      refine tokens_of_scanToken (by decide) ?_
      have hv : (assemble (v.toList.map .char)).map String.ofList = some v := by
        rw [assemble_map_char, Option.map_some, String.ofList_toList]
      refine (congrArg (Option.map fun x => (Token.string ((assemble x.1).map String.ofList), x.2))
        (scanPieces_escape v.toList s)).trans ?_
      rw [Option.map_some, hv]
  | broken => exact plain.elim

end Cut

/-- A text of these tokens, with white space before and behind them. -/
inductive Spells : List Char → List Token → Prop
  | nil : Spells [] []
  | space {c : Char} {s : List Char} {ts : List Token} (space : isSpace c = true)
      (h : Spells s ts) : Spells (c :: s) ts
  | token {t : Token} {s : List Char} {ts : List Token} (plain : t.IsPlain)
      (ends : t.IsNumber → EndsNumber s) (h : Spells s ts) : Spells (t.text ++ s) (t :: ts)

theorem Spells.tokens_eq {s : List Char} {ts : List Token} (h : Spells s ts) :
    tokens (symbols s) = ts := by
  induction h with
  | nil => rw [symbols, List.map_nil, tokens]
  | space space _ ih => exact (tokens_of_isSpace space _).trans ih
  | token plain ends _ ih => rw [tokens_text_append plain ends, ih]

theorem Spells.replicate {s : List Char} {ts : List Token} (n : Nat) (h : Spells s ts) :
    Spells (List.replicate n ' ' ++ s) ts := by
  induction n with
  | zero => exact h
  | succ n ih => exact .space rfl ih

theorem Spells.newline {s : List Char} {ts : List Token} (depth : Nat) (h : Spells s ts) :
    Spells (newline depth ++ s) ts := .space rfl (h.replicate _)

/-- Every token has a written form, and no number stands next to another. -/
def Writable (ts : List Token) : Prop :=
  (∀ t ∈ ts, t.IsPlain) ∧ ts.IsChain fun t u => t.IsNumber → ¬u.IsNumber

/-- What does not begin with a number ends the number in front of it. -/
theorem Spells.endsNumber {s : List Char} {ts : List Token} (h : Spells s ts)
    (hts : ∀ t ∈ ts.head?, ¬t.IsNumber) : EndsNumber s := by
  cases h with
  | nil => nofun
  | space space _ =>
    rintro c ⟨⟩
    simp only [isSpace, Bool.or_eq_true, decide_eq_true_eq] at space
    rcases space with ((rfl | rfl) | rfl) | rfl <;> decide
  | @token t _ _ plain _ _ =>
    have ht := hts t rfl
    cases t with
    | openList | closeList | openObject | closeObject | comma | colon | null =>
      rintro c ⟨⟩
      decide
    | bool b =>
      cases b <;>
      · rintro c ⟨⟩
        decide
    | number n => exact absurd ⟨n, rfl⟩ ht
    | string v =>
      cases v with
      | none => exact absurd rfl plain
      | some v =>
        rintro c ⟨⟩
        decide
    | broken => exact plain.elim

theorem Writable.tail {t : Token} {ts : List Token} (h : Writable (t :: ts)) : Writable ts :=
  ⟨fun u hu => h.1 u (List.mem_cons_of_mem t hu), h.2.tail⟩

theorem Writable.spells_cons {t : Token} {ts : List Token} {s : List Char}
    (h : Writable (t :: ts)) (hs : Spells s ts) : Spells (t.text ++ s) (t :: ts) := by
  refine .token (h.1 t List.mem_cons_self) (fun ht => hs.endsNumber fun u hu => ?_) hs
  exact (List.isChain_cons.1 h.2).1 u hu ht

theorem spells_compact {ts : List Token} (h : Writable ts) : Spells (compact ts) ts := by
  induction ts with
  | nil => exact .nil
  | cons t ts ih => exact h.spells_cons (ih h.tail)

theorem spells_wideFrom (depth : Nat) {ts : List Token} (h : Writable ts) :
    Spells (wideFrom depth ts) ts := by
  fun_induction wideFrom depth ts with
  | case1 => exact .nil
  | case2 depth ts ih =>
    exact h.spells_cons (h.tail.spells_cons (ih h.tail.tail))
  | case3 depth ts ih => exact h.spells_cons (h.tail.spells_cons (ih h.tail.tail))
  | case4 depth ts _ ih => exact h.spells_cons ((ih h.tail).newline _)
  | case5 depth ts _ ih => exact h.spells_cons ((ih h.tail).newline _)
  | case6 depth ts ih => exact (h.spells_cons (ih h.tail)).newline _
  | case7 depth ts ih => exact (h.spells_cons (ih h.tail)).newline _
  | case8 depth ts ih => exact h.spells_cons ((ih h.tail).newline _)
  | case9 depth ts ih => exact h.spells_cons (.space rfl (ih h.tail))
  | case10 => rename_i ih; exact h.spells_cons (ih h.tail)

end MergeQueue.Json
