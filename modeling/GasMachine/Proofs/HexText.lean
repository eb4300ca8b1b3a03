import GasMachine.Bytes.Hex
import GasMachine.Proofs.Success

/-!
# Hexadecimal text read back

The text of a byte string has two digits a byte, and reading it gives the byte string. What is read
are pairs of digits of either case and nothing else (`exists_decode_iff`), and the text of what was
read has these digits in lower case. Reading goes by the bytes of UTF-8, while all of this is about
characters: a digit is a byte, and every other character has a byte that is no digit. The order of
byte strings is that of their texts, because digits are ordered as their values.
-/

set_option autoImplicit false

namespace GasMachine.Hex

/-! ## Digits -/

/-- A digit is a character of one byte. -/
theorem utf8EncodeChar_digit : ∀ n < 16,
    String.utf8EncodeChar (digit n) = [UInt8.ofNat (digit n).toNat] := by
  decide

@[simp] theorem value?_digit : ∀ n < 16, value? (UInt8.ofNat (digit n).toNat) = some n := by
  decide

theorem readDigit_digit {n : Nat} (small : n < 16) (position : Nat) :
    readDigit (UInt8.ofNat (digit n).toNat) position = .ok n := by
  simp only [readDigit, value?_digit n small]

/-- The upper half of a byte is a digit. -/
theorem upper_lt (byte : UInt8) : byte.toNat / 16 < 16 := by
  have small := byte.toNat_lt
  omega

/-- The lower half of a byte is a digit. -/
theorem lower_lt (byte : UInt8) : byte.toNat % 16 < 16 := Nat.mod_lt _ (by decide)

/-- A byte is put together again from its halves. -/
theorem ofNat_halves (byte : UInt8) :
    UInt8.ofNat (16 * (byte.toNat / 16) + byte.toNat % 16) = byte := by
  rw [Nat.div_add_mod, UInt8.ofNat_toNat]

/-! ## Texts -/

theorem encode_cons (byte : UInt8) (rest : Bytes) :
    Utf8.encode (encode (byte :: rest)) =
      UInt8.ofNat (digit (byte.toNat / 16)).toNat :: UInt8.ofNat (digit (byte.toNat % 16)).toNat ::
        Utf8.encode (encode rest) := by
  simp [encode, digits, Utf8.encode, utf8EncodeChar_digit _ (upper_lt byte),
    utf8EncodeChar_digit _ (lower_lt byte)]

theorem readPairs_encode (bytes : Bytes) (position : Nat) :
    readPairs position (Utf8.encode (encode bytes)) = .ok bytes := by
  induction bytes generalizing position with
  | nil => rfl
  | cons byte rest ih =>
    rw [encode_cons, readPairs, readDigit_digit (upper_lt byte), readDigit_digit (lower_lt byte),
      ih]
    simp only [bind, Except.bind, pure, Except.pure, ofNat_halves]

/-- Two digits a byte. -/
theorem length_encode (bytes : Bytes) :
    (Utf8.encode (encode bytes)).length = 2 * bytes.length := by
  induction bytes with
  | nil => rfl
  | cons byte rest ih =>
    simp only [encode_cons, List.length_cons, ih]
    omega

theorem decode_encode (bytes : Bytes) : decode (encode bytes) = .ok bytes := by
  have even : ¬(Utf8.encode (encode bytes)).length % 2 = 1 := by rw [length_encode]; omega
  rw [decode, decodeBytes, if_neg even, readPairs_encode]

/-! ## Digits of either case -/

/-- A digit of either case. -/
def IsDigit (c : Char) : Prop :=
  ('0' ≤ c ∧ c ≤ '9') ∨ ('a' ≤ c ∧ c ≤ 'f') ∨ ('A' ≤ c ∧ c ≤ 'F')

instance : DecidablePred IsDigit := fun _ => inferInstanceAs (Decidable (_ ∨ _))

theorem IsDigit.toNat_lt {c : Char} (digit : IsDigit c) : c.toNat < 128 := by
  rcases digit with ⟨-, last⟩ | ⟨-, last⟩ | ⟨-, last⟩ <;>
    exact Nat.lt_of_le_of_lt (UInt32.le_iff_toNat_le.1 last) (by decide)

theorem isSome_value?_ofNat : ∀ n < 128,
    (value? (UInt8.ofNat n)).isSome ↔ IsDigit (Char.ofNat n) := by
  decide +kernel

theorem digit_value? : ∀ n < 128, ∀ v ∈ value? (UInt8.ofNat n),
    v < 16 ∧ digit v = (Char.ofNat n).toLower := by
  decide +kernel

theorem value?_of_ge {byte : UInt8} (large : 128 ≤ byte.toNat) : value? byte = none := by
  unfold value?
  rw [if_neg, if_neg, if_neg] <;> omega

theorem utf8EncodeChar_of_lt {c : Char} (small : c.toNat < 128) :
    String.utf8EncodeChar c = [UInt8.ofNat c.toNat] :=
  if_pos (Nat.le_of_lt_succ small)

/-- The last byte of a character outside ASCII is one of those that only occur in such. -/
theorem exists_utf8EncodeChar_ge {c : Char} (large : 128 ≤ c.toNat) :
    ∃ byte ∈ String.utf8EncodeChar c, 128 ≤ byte.toNat := by
  refine ⟨UInt8.ofNat (c.toNat % 64 + 128), ?_, ?_⟩
  · have long : ¬c.val.toNat ≤ 127 := Nat.not_le.2 large
    simp only [String.utf8EncodeChar, if_neg long]
    split
    · simp
    · split <;> simp
  · rw [UInt8.toNat_ofNat']
    omega

theorem isDigit_iff {c : Char} :
    IsDigit c ↔ ∀ byte ∈ String.utf8EncodeChar c, (value? byte).isSome := by
  rcases Nat.lt_or_ge c.toNat 128 with small | large
  · rw [utf8EncodeChar_of_lt small, List.forall_mem_singleton, isSome_value?_ofNat _ small,
      Char.ofNat_toNat]
  · refine iff_of_false (fun digit => Nat.not_lt.2 large digit.toNat_lt) fun all => ?_
    obtain ⟨byte, member, outside⟩ := exists_utf8EncodeChar_ge large
    have valued := all byte member
    rw [value?_of_ge outside] at valued
    cases valued

/-- A digit is one byte, with the value of the digit in lower case. -/
theorem IsDigit.exists_value {c : Char} (isDigit : IsDigit c) :
    ∃ byte v, String.utf8EncodeChar c = [byte] ∧ value? byte = some v ∧ v < 16 ∧
      digit v = c.toLower := by
  have small := isDigit.toNat_lt
  rw [← Char.ofNat_toNat c, ← isSome_value?_ofNat _ small] at isDigit
  obtain ⟨v, valued⟩ := Option.isSome_iff_exists.1 isDigit
  obtain ⟨bound, lowered⟩ := digit_value? _ small v valued
  rw [Char.ofNat_toNat] at lowered
  exact ⟨_, v, utf8EncodeChar_of_lt small, valued, bound, lowered⟩

/-! ## What is read -/

theorem readDigit_eq_ok_iff {byte : UInt8} {position v : Nat} :
    readDigit byte position = .ok v ↔ value? byte = some v := by
  unfold readDigit
  cases value? byte <;> simp

theorem isSome_value?_of_readPairs : ∀ (text : Bytes) (position : Nat) (bytes : Bytes),
    text.length % 2 = 0 → readPairs position text = .ok bytes →
      ∀ byte ∈ text, (value? byte).isSome
  | [], _, _, _, _ => List.forall_mem_nil _
  | [_], _, _, odd, _ => nomatch odd
  | high :: low :: rest, position, bytes, even, read => by
    simp only [readPairs, bind_eq_ok_iff, readDigit_eq_ok_iff] at read
    obtain ⟨h, upper, l, lower, others, readOthers, -⟩ := read
    rw [List.forall_mem_cons, List.forall_mem_cons, upper, lower]
    exact ⟨rfl, rfl, isSome_value?_of_readPairs rest _ others (Nat.add_mod_right _ 2 ▸ even)
      readOthers⟩

theorem digits_ofNat {h l : Nat} (upper : h < 16) (lower : l < 16) :
    digits (UInt8.ofNat (16 * h + l)) = [digit h, digit l] := by
  have whole : (UInt8.ofNat (16 * h + l)).toNat = 16 * h + l := by
    rw [UInt8.toNat_ofNat']
    omega
  have first : (16 * h + l) / 16 = h := by omega
  have second : (16 * h + l) % 16 = l := by omega
  rw [digits, whole, first, second]

/-- Digits in pairs are read, and written again in lower case. -/
theorem exists_readPairs : ∀ (text : List Char) (position : Nat),
    (∀ c ∈ text, IsDigit c) → text.length % 2 = 0 →
      ∃ bytes, readPairs position (text.flatMap String.utf8EncodeChar) = .ok bytes ∧
        bytes.flatMap digits = text.map Char.toLower
  | [], _, _, _ => ⟨[], rfl, rfl⟩
  | [_], _, _, odd => nomatch odd
  | high :: low :: rest, position, all, even => by
    rw [List.forall_mem_cons, List.forall_mem_cons] at all
    obtain ⟨highByte, h, highOne, highValue, highBound, highLower⟩ := all.1.exists_value
    obtain ⟨lowByte, l, lowOne, lowValue, lowBound, lowLower⟩ := all.2.1.exists_value
    obtain ⟨bytes, read, written⟩ := exists_readPairs rest (position + 2) all.2.2
      (Nat.add_mod_right _ 2 ▸ even)
    refine ⟨UInt8.ofNat (16 * h + l) :: bytes, ?_, ?_⟩
    · simp only [List.flatMap_cons, highOne, lowOne, List.cons_append, List.nil_append, readPairs,
        readDigit_eq_ok_iff.2 highValue, readDigit_eq_ok_iff.2 lowValue, read]
      rfl
    · simp only [List.flatMap_cons, digits_ofNat highBound lowBound, written, highLower, lowLower,
        List.cons_append, List.nil_append, List.map_cons]

theorem length_flatMap_of_digits : ∀ {text : List Char}, (∀ c ∈ text, IsDigit c) →
    (text.flatMap String.utf8EncodeChar).length = text.length
  | [], _ => rfl
  | c :: rest, all => by
    rw [List.forall_mem_cons] at all
    rw [List.flatMap_cons, utf8EncodeChar_of_lt all.1.toNat_lt, List.singleton_append,
      List.length_cons, length_flatMap_of_digits all.2, List.length_cons]

/-- What is read are pairs of digits. -/
theorem exists_decode_iff {text : String} :
    (∃ bytes, decode text = .ok bytes) ↔
      (∀ c ∈ text.toList, IsDigit c) ∧ text.toList.length % 2 = 0 := by
  unfold decode decodeBytes Utf8.encode
  constructor
  · rintro ⟨bytes, read⟩
    split at read
    case isTrue => cases read
    case isFalse even =>
      have valued := isSome_value?_of_readPairs _ 0 bytes (Nat.mod_two_ne_one.1 even) read
      have all : ∀ c ∈ text.toList, IsDigit c := fun c member =>
        isDigit_iff.2 fun byte inside => valued byte (List.mem_flatMap_of_mem member inside)
      exact ⟨all, Nat.mod_two_ne_one.1 (length_flatMap_of_digits all ▸ even)⟩
  · rintro ⟨all, even⟩
    obtain ⟨bytes, read, -⟩ := exists_readPairs text.toList 0 all even
    rw [length_flatMap_of_digits all, if_neg (Nat.mod_two_ne_one.2 even)]
    exact ⟨bytes, read⟩

/-- The text of what was read has the same digits, in lower case. -/
theorem encode_of_decode {text : String} {bytes : Bytes} (read : decode text = .ok bytes) :
    encode bytes = String.ofList (text.toList.map Char.toLower) := by
  obtain ⟨all, even⟩ := exists_decode_iff.1 ⟨bytes, read⟩
  obtain ⟨again, readAgain, written⟩ := exists_readPairs text.toList 0 all even
  unfold decode decodeBytes Utf8.encode at read
  rw [length_flatMap_of_digits all, if_neg (Nat.mod_two_ne_one.2 even), readAgain] at read
  cases read
  rw [encode, written]

/-- Two digits are read for each byte. -/
theorem length_of_decode {text : String} {bytes : Bytes} (read : decode text = .ok bytes) :
    text.toList.length = 2 * bytes.length := by
  have written := congrArg String.toList (encode_of_decode read)
  rw [encode, String.toList_ofList, String.toList_ofList] at written
  rw [← List.length_map Char.toLower, ← written]
  simp [digits, Nat.mul_comm]

/-! ## Order -/

theorem digit_lt_digit_iff : ∀ m < 16, ∀ n < 16, digit m < digit n ↔ m < n := by
  decide

theorem digit_eq_digit_iff : ∀ m < 16, ∀ n < 16, digit m = digit n ↔ m = n := by
  decide

theorem digits_append_lt_iff {x y : UInt8} {xs ys : List Char} :
    digits x ++ xs < digits y ++ ys ↔ x < y ∨ x = y ∧ xs < ys := by
  simp only [digits, List.cons_append, List.nil_append, List.cons_lt_cons_iff,
    digit_lt_digit_iff _ (upper_lt x) _ (upper_lt y),
    digit_lt_digit_iff _ (lower_lt x) _ (lower_lt y),
    digit_eq_digit_iff _ (upper_lt x) _ (upper_lt y),
    digit_eq_digit_iff _ (lower_lt x) _ (lower_lt y), UInt8.lt_iff_toNat_lt, ← UInt8.toNat_inj]
  grind

theorem compare_cons_eq_lt_iff {x y : UInt8} {xs ys : Bytes} :
    compare (x :: xs) (y :: ys) = .lt ↔ x < y ∨ x = y ∧ compare xs ys = .lt := by
  rw [List.compare_cons_cons, Ordering.then_eq_lt, Std.compare_eq_lt,
    Std.LawfulEqOrd.compare_eq_iff_eq]

/-- Byte strings are ordered as their texts. -/
theorem compare_eq_lt_iff {a b : Bytes} : compare a b = .lt ↔ encode a < encode b := by
  simp only [encode, String.lt_iff, String.toList_ofList]
  induction a generalizing b with
  | nil => cases b <;> simp [digits]
  | cons x xs ih =>
    cases b with
    | nil => simp
    | cons y ys =>
      rw [compare_cons_eq_lt_iff, ih, List.flatMap_cons, List.flatMap_cons, digits_append_lt_iff]

end GasMachine.Hex
