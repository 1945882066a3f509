/-!
# Characters of a text

White space and trimming, decimal and hexadecimal digits, and the symbols of a text that comes as
bytes.
-/
namespace MergeQueue.Text

/-!
## White space

The characters with the property White_Space, and trimming by them. A text is blank when nothing
is left of it after trimming.
-/

/-- The code points with the property White_Space, as closed ranges in increasing order. -/
def whiteSpaceRanges : List (Nat × Nat) := [
  (0x9, 0xd), (0x20, 0x20), (0x85, 0x85), (0xa0, 0xa0), (0x1680, 0x1680), (0x2000, 0x200a),
  (0x2028, 0x2029), (0x202f, 0x202f), (0x205f, 0x205f), (0x3000, 0x3000)]

def isWhiteSpace (c : Char) : Bool :=
  whiteSpaceRanges.any fun r => r.1 ≤ c.toNat && c.toNat ≤ r.2

/-- Takes white space away at both ends. -/
def trim (s : List Char) : List Char :=
  ((s.dropWhile isWhiteSpace).reverse.dropWhile isWhiteSpace).reverse

def isBlank (s : List Char) : Bool := s.all isWhiteSpace

theorem dropWhile_isWhiteSpace_eq_nil_iff {s : List Char} :
    s.dropWhile isWhiteSpace = [] ↔ isBlank s = true := by
  induction s with
  | nil => simp [isBlank]
  | cons c s ih =>
    by_cases h : isWhiteSpace c = true
    · rw [List.dropWhile_cons_of_pos h, ih]
      simp [isBlank, h]
    · simp [isBlank, h]

theorem trim_eq_nil_iff {s : List Char} : trim s = [] ↔ isBlank s = true := by
  rw [trim, List.reverse_eq_nil_iff, dropWhile_isWhiteSpace_eq_nil_iff]
  constructor
  · intro h
    refine dropWhile_isWhiteSpace_eq_nil_iff.1 ?_
    cases hd : s.dropWhile isWhiteSpace with
    | nil => rfl
    | cons c r =>
      have hc := List.head?_dropWhile_not isWhiteSpace s
      simp only [hd, isBlank, List.all_reverse, List.all_cons, Bool.and_eq_true] at h hc
      simp [h.1] at hc
  · intro h
    rw [dropWhile_isWhiteSpace_eq_nil_iff.2 h]
    rfl

/-!
## Decimal and hexadecimal digits

Natural numbers in decimal digits, and the value of a hexadecimal digit. Reading the digits that
were written gives the number again.
-/

def decimal (n : Nat) : List Char := Nat.toDigits 10 n

def ofDecimal (ds : List Char) : Nat := Nat.ofDigitChars 10 ds 0

theorem ofDecimal_decimal (n : Nat) : ofDecimal (decimal n) = n := by
  simp [ofDecimal, decimal]

theorem decimal_ne_nil (n : Nat) : decimal n ≠ [] := Nat.toDigits_ne_nil

theorem isDigit_of_mem_decimal {n : Nat} {c : Char} (h : c ∈ decimal n) : c.isDigit = true :=
  Nat.isDigit_of_mem_toDigits (by decide) (by decide) h

/-- Only zero is written with a zero in front. -/
theorem eq_zero_of_decimal_eq {n : Nat} {ds : List Char} (h : decimal n = '0' :: ds) : n = 0 := by
  induction n using Nat.strongRecOn generalizing ds with
  | ind n ih =>
    unfold decimal at h
    rw [Nat.toDigits_eq_if (by decide)] at h
    split at h
    · exact Nat.digitChar_eq_zero.1 (List.cons.inj h).1
    · rename_i hn
      cases hd : decimal (n / 10) with
      | nil => exact absurd hd (decimal_ne_nil _)
      | cons d front =>
        unfold decimal at hd
        rw [hd, List.cons_append] at h
        obtain ⟨rfl, -⟩ := List.cons.inj h
        have := ih (n / 10) (by omega) hd
        omega

/-- The value of a hexadecimal digit of either case. -/
def hexValue (c : Char) : Option Nat :=
  if c.isDigit then some (c.toNat - '0'.toNat)
  else if 'a' ≤ c ∧ c ≤ 'f' then some (c.toNat - 'a'.toNat + 10)
  else if 'A' ≤ c ∧ c ≤ 'F' then some (c.toNat - 'A'.toNat + 10)
  else none

/-!
## Symbols of a text

A text that comes as bytes is read as a list of symbols: its characters, and the bytes that belong
to no character because they break the UTF-8 encoding.
-/

/-- A character of a text, or a byte that is part of none. -/
inductive Symbol
  | char (c : Char)
  | stray
deriving DecidableEq, Repr

namespace Symbol

def ofString (s : String) : List Symbol := s.toList.map char

/-- The symbols from position `i` on. -/
def ofBytesFrom (bytes : ByteArray) (i : Nat) : List Symbol :=
  if i < bytes.size then
    match bytes.utf8DecodeChar? i with
    | some c => .char c :: ofBytesFrom bytes (i + c.utf8Size)
    | none => .stray :: ofBytesFrom bytes (i + 1)
  else []
termination_by bytes.size - i
decreasing_by
  · have := c.utf8Size_pos
    omega
  · omega

def ofBytes (bytes : ByteArray) : List Symbol := ofBytesFrom bytes 0

/-- The characters that were encoded behind `front`. -/
theorem ofBytesFrom_utf8Encode (front : ByteArray) (cs : List Char) :
    ofBytesFrom (front ++ cs.utf8Encode) front.size = cs.map char := by
  induction cs generalizing front with
  | nil =>
    rw [ofBytesFrom]
    simp
  | cons c cs ih =>
    have hdecode : (front ++ (c :: cs).utf8Encode).utf8DecodeChar? front.size = some c := by
      rw [ByteArray.utf8DecodeChar?_eq_utf8DecodeChar?_extract, ByteArray.size_append,
        ByteArray.extract_append_eq_right rfl rfl, List.utf8DecodeChar?_utf8Encode_cons]
    have hlt : front.size < (front ++ (c :: cs).utf8Encode).size :=
      ByteArray.lt_size_of_isSome_utf8DecodeChar? (by rw [hdecode]; rfl)
    have hsize : [c].utf8Encode.size = c.utf8Size := by
      rw [List.utf8Encode_singleton, List.size_toByteArray, String.length_utf8EncodeChar]
    have hrest := ih (front ++ [c].utf8Encode)
    rw [ByteArray.append_assoc, ← List.utf8Encode_cons, ByteArray.size_append, hsize] at hrest
    rw [ofBytesFrom, if_pos hlt, hdecode, List.map_cons, ← hrest]

/-- The bytes of a string are read as its characters. -/
theorem ofBytes_toUTF8 (s : String) : ofBytes s.toUTF8 = ofString s := by
  have h := ofBytesFrom_utf8Encode .empty s.toList
  rwa [String.utf8Encode_toList, ByteArray.empty_append] at h

end Symbol

end MergeQueue.Text
