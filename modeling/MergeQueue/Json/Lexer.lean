import MergeQueue.Json.Token
import MergeQueue.Text.Basic

/-!
# Cutting a text into tokens

A text is cut from left to right. Where it goes wrong the list ends with `broken`, so that a reader
who stops earlier never learns of it.
-/
namespace MergeQueue.Json

open Text

def isSpace (c : Char) : Bool := c = ' ' || c = '\t' || c = '\n' || c = '\r'

def scanDigits : List Symbol → List Char × List Symbol
  | .char c :: s =>
    if c.isDigit then
      let (ds, r) := scanDigits s
      (c :: ds, r)
    else ([], .char c :: s)
  | s => ([], s)

/-- A sign in front, true for minus, and the rest. -/
def scanSign : List Symbol → Bool × List Symbol
  | .char '-' :: s => (true, s)
  | .char '+' :: s => (false, s)
  | s => (false, s)

/-- A point and the digits behind it, if a point stands in front. -/
def scanPlaces : List Symbol → Option (Option (List Char) × List Symbol)
  | .char '.' :: s =>
    match scanDigits s with
    | ([], _) => none
    | (ds, r) => some (some ds, r)
  | s => some (none, s)

def scanExponent : List Symbol → Option (Option Int × List Symbol)
  | .char c :: s =>
    if c = 'e' ∨ c = 'E' then
      match scanDigits (scanSign s).2 with
      | ([], _) => none
      | (ds, r) => some (some (if (scanSign s).1 then -(ofDecimal ds : Int) else ofDecimal ds), r)
    else some (none, .char c :: s)
  | s => some (none, s)

/-- A number whose sign is read. A zero in front stands alone. -/
def scanNumber (negative : Bool) (s : List Symbol) : Option (Token × List Symbol) :=
  match scanDigits s with
  | ([], _) => none
  | ('0' :: _ :: _, _) => none
  | (whole, s) =>
    match scanPlaces s with
    | none => none
    | some (places, s) =>
      match scanExponent s with
      | none => none
      | some (exponent, s) => some (.number (.ofParts negative whole places exponent), s)

/-- A piece of a string: a character, half a surrogate pair, or a stray byte. -/
inductive Piece
  | char (c : Char)
  | half (unit : Nat)
  | stray
deriving DecidableEq, Repr

def Piece.ofUnit (unit : Nat) : Piece :=
  if 0xd800 ≤ unit ∧ unit < 0xe000 then .half unit else .char (Char.ofNat unit)

def codeUnit (a b c d : Char) : Option Nat :=
  match hexValue a, hexValue b, hexValue c, hexValue d with
  | some a, some b, some c, some d => some (((a * 16 + b) * 16 + c) * 16 + d)
  | _, _, _, _ => none

def unescape : Char → Option Char
  | '"' => some '"'
  | '\\' => some '\\'
  | '/' => some '/'
  | 'b' => some '\x08'
  | 'f' => some '\x0c'
  | 'n' => some '\n'
  | 'r' => some '\r'
  | 't' => some '\t'
  | _ => none

def scanUnit : List Symbol → Option (Piece × List Symbol)
  | .char a :: .char b :: .char c :: .char d :: s =>
    (codeUnit a b c d).map fun unit => (.ofUnit unit, s)
  | _ => none

/-- The piece that an escape stands for, its backslash being read, and the rest. -/
def scanEscape : List Symbol → Option (Piece × List Symbol)
  | .char e :: s => if e = 'u' then scanUnit s else (unescape e).map fun c => (.char c, s)
  | _ => none

theorem length_scanUnit {s r : List Symbol} {p : Piece} (h : scanUnit s = some (p, r)) :
    r.length < s.length := by
  unfold scanUnit at h
  split at h
  · obtain ⟨_, _, he⟩ := Option.map_eq_some_iff.1 h
    cases he
    simp only [List.length_cons]
    omega
  · cases h

theorem length_scanEscape {s r : List Symbol} {p : Piece} (h : scanEscape s = some (p, r)) :
    r.length < s.length := by
  unfold scanEscape at h
  split at h
  · split at h
    · exact Nat.lt_succ_of_lt (length_scanUnit h)
    · obtain ⟨_, _, he⟩ := Option.map_eq_some_iff.1 h
      cases he
      exact Nat.lt_succ_self _
  · cases h

def consPiece (p : Piece) (rest : Option (List Piece × List Symbol)) :
    Option (List Piece × List Symbol) :=
  rest.map fun (ps, r) => (p :: ps, r)

/-- The pieces up to the closing quote, and what follows it. -/
def scanPieces (s : List Symbol) : Option (List Piece × List Symbol) :=
  match s with
  | [] => none
  | .stray :: s => consPiece .stray (scanPieces s)
  | .char c :: s =>
    if c = '"' then some ([], s)
    else if c = '\\' then
      match _h : scanEscape s with
      | some (p, r) => consPiece p (scanPieces r)
      | none => none
    else if c.toNat < 0x20 then none
    else consPiece (.char c) (scanPieces s)
termination_by s.length
decreasing_by
  · simp
  · have := length_scanEscape _h
    simp only [List.length_cons]
    omega
  · simp

/-- The text made of pieces. Two halves next to one another make one character if they are a high
and a low one in this order; a half that is left alone, or a stray byte, makes no text. -/
def assemble : List Piece → Option (List Char)
  | [] => some []
  | .char c :: ps => (assemble ps).map (c :: ·)
  | .half high :: .half low :: ps =>
    if high < 0xdc00 ∧ 0xdc00 ≤ low then
      (assemble ps).map (Char.ofNat (0x10000 + (high - 0xd800) * 0x400 + (low - 0xdc00)) :: ·)
    else none
  | .half _ :: _ => none
  | .stray :: _ => none

def afterWord : List Char → List Symbol → Option (List Symbol)
  | [], s => some s
  | w :: ws, .char c :: s => if c = w then afterWord ws s else none
  | _ :: _, _ => none

def scanToken (c : Char) (s : List Symbol) : Option (Token × List Symbol) :=
  match c with
  | '[' => some (.openList, s)
  | ']' => some (.closeList, s)
  | '\x7b' => some (.openObject, s)
  | '\x7d' => some (.closeObject, s)
  | ',' => some (.comma, s)
  | ':' => some (.colon, s)
  | 'n' => (afterWord ['u', 'l', 'l'] s).map fun r => (.null, r)
  | 't' => (afterWord ['r', 'u', 'e'] s).map fun r => (.bool true, r)
  | 'f' => (afterWord ['a', 'l', 's', 'e'] s).map fun r => (.bool false, r)
  | '"' => (scanPieces s).map fun (ps, r) => (.string ((assemble ps).map String.ofList), r)
  | '-' => scanNumber true s
  | c => if c.isDigit then scanNumber false (.char c :: s) else none

theorem length_scanDigits (s : List Symbol) :
    (scanDigits s).1.length + (scanDigits s).2.length = s.length := by
  induction s with
  | nil => simp [scanDigits]
  | cons x s ih =>
    cases x with
    | stray => simp [scanDigits]
    | char c =>
      rw [scanDigits]
      split
      · simp
        omega
      · simp

theorem length_scanSign (s : List Symbol) : (scanSign s).2.length ≤ s.length := by
  fun_cases scanSign s <;> simp

theorem length_scanPlaces {s r : List Symbol} {ds : Option (List Char)}
    (h : scanPlaces s = some (ds, r)) : r.length ≤ s.length := by
  revert h
  fun_cases scanPlaces s <;> intro h
  · cases h
  · rename_i s ds' r' _ hd
    cases h
    have := length_scanDigits s
    simp only [hd, List.length_cons] at this ⊢
    omega
  · cases h
    simp

theorem length_scanExponent {s r : List Symbol} {e : Option Int}
    (h : scanExponent s = some (e, r)) : r.length ≤ s.length := by
  revert h
  fun_cases scanExponent s <;> intro h
  · cases h
  · rename_i c s _ ds r' _ hd
    cases h
    have := length_scanDigits (scanSign s).2
    have := length_scanSign s
    simp only [hd, List.length_cons] at *
    omega
  · cases h
    simp
  · cases h
    simp

theorem length_scanNumber {negative : Bool} {s r : List Symbol} {t : Token}
    (h : scanNumber negative s = some (t, r)) : r.length < s.length := by
  revert h
  fun_cases scanNumber negative s <;> intro h <;> try cases h
  rename_i whole s' hne _ hd places s'' hp exponent he
  have h₁ := length_scanDigits s
  have h₂ := length_scanPlaces hp
  have h₃ := length_scanExponent he
  rw [hd] at h₁
  have : whole ≠ [] := by
    rintro rfl
    simp at hne
  have := List.length_pos_iff.2 this
  simp only at h₁
  omega

theorem length_of_consPiece {p : Piece} {x : Option (List Piece × List Symbol)} {ps : List Piece}
    {r : List Symbol} {n : Nat} (h : consPiece p x = some (ps, r))
    (hx : ∀ {qs t}, x = some (qs, t) → t.length < n) : r.length < n := by
  obtain ⟨⟨qs, t⟩, hs, he⟩ := Option.map_eq_some_iff.1 h
  cases he
  exact hx hs

theorem length_scanPieces {s r : List Symbol} {ps : List Piece}
    (h : scanPieces s = some (ps, r)) : r.length < s.length := by
  fun_induction scanPieces s generalizing ps r with
  | case1 => cases h
  | case2 s ih => exact Nat.lt_succ_of_lt (length_of_consPiece h ih)
  | case3 s =>
    cases h
    exact Nat.lt_succ_self _
  | case4 s p t hp _ ih =>
    have := length_scanEscape hp
    have := length_of_consPiece h ih
    simp only [List.length_cons]
    omega
  | case5 => cases h
  | case6 => cases h
  | case7 c s _ _ _ ih => exact Nat.lt_succ_of_lt (length_of_consPiece h ih)

theorem length_afterWord {w : List Char} {s r : List Symbol} (h : afterWord w s = some r) :
    r.length ≤ s.length := by
  fun_induction afterWord w s <;> simp_all
  omega

theorem length_scanToken {c : Char} {s r : List Symbol} {t : Token}
    (h : scanToken c s = some (t, r)) : r.length ≤ s.length := by
  have word {w : List Char} {x : Token}
      (h : (afterWord w s).map (fun r => (x, r)) = some (t, r)) : r.length ≤ s.length := by
    obtain ⟨_, hw, he⟩ := Option.map_eq_some_iff.1 h
    cases he
    exact length_afterWord hw
  unfold scanToken at h
  split at h
  case h_7 | h_8 | h_9 => exact word h
  case h_10 =>
    obtain ⟨⟨ps, _⟩, hp, he⟩ := Option.map_eq_some_iff.1 h
    cases he
    exact Nat.le_of_lt (length_scanPieces hp)
  case h_11 => exact Nat.le_of_lt (length_scanNumber h)
  case h_12 =>
    split at h
    · exact Nat.le_of_lt_succ (length_scanNumber h)
    · cases h
  all_goals
    cases h
    exact Nat.le_refl _

def tokens (s : List Symbol) : List Token :=
  match s with
  | [] => []
  | .stray :: _ => [.broken]
  | .char c :: s =>
    if isSpace c then tokens s
    else
      match _h : scanToken c s with
      | some (t, r) => t :: tokens r
      | none => [.broken]
termination_by s.length
decreasing_by
  · simp
  · have := length_scanToken _h
    simp only [List.length_cons]
    omega

end MergeQueue.Json
