import GasMachine.Hash
import GasMachine.Proofs.HexText

/-!
# The text of a hash

A text is that of a hash of `n` bytes exactly if it has `2 * n` hexadecimal digits, of either case,
behind at most one marker `0x`. A second marker, or one in upper case, is not hexadecimal. Texts
that are refused are told apart: an even number of digits that is not `2 * n` is a wrong length, all
else is not hexadecimal. A hash comes back from its own text, and the order of hashes is that of
their texts.
-/

set_option autoImplicit false

namespace GasMachine.Hash

variable {n : Nat}

/-! ## The marker -/

/-- The characters of a text behind its marker, or all of them if it begins with none. -/
def unmarked (text : String) : List Char :=
  if ['0', 'x'] <+: text.toList then text.toList.drop 2 else text.toList

theorem toList_dropMarker (text : String) : (Hex.dropMarker text).toList = unmarked text := by
  unfold Hex.dropMarker unmarked
  split
  case h_1 rest marked =>
    rw [marked, if_pos ⟨rest, rfl⟩, String.toList_ofList]
    rfl
  case h_2 unmarked =>
    rw [if_neg]
    rintro ⟨rest, marked⟩
    exact unmarked rest marked.symm

theorem toList_toText (hash : Hash n) :
    hash.toText.toList = '0' :: 'x' :: (Hex.encode hash.bytes).toList :=
  String.toList_append

theorem dropMarker_toText (hash : Hash n) : Hex.dropMarker hash.toText = Hex.encode hash.bytes := by
  apply String.toList_inj.1
  rw [toList_dropMarker, unmarked, toList_toText]
  exact if_pos ⟨_, rfl⟩

/-! ## Reading -/

theorem ofBytes_eq_ok_iff {bytes : Bytes} {hash : Hash n} :
    ofBytes bytes = .ok hash ↔ hash.bytes = bytes := by
  unfold ofBytes
  split
  case isTrue length =>
    rw [Except.ok.injEq, eq_comm, Hash.ext_iff]
  case isFalse length =>
    refine iff_of_false nofun ?_
    rintro rfl
    exact length hash.length_eq

theorem ofBytes_eq_error_iff {bytes : Bytes} {cause : Error} :
    (ofBytes bytes : Except Error (Hash n)) = .error cause ↔
      bytes.length ≠ n ∧ cause = .invalidLength n bytes.length := by
  unfold ofBytes
  split
  case isTrue length => exact iff_of_false nofun fun other => other.1 length
  case isFalse length =>
    rw [Except.error.injEq, eq_comm]
    exact (and_iff_right length).symm

theorem ofText_eq_ok_iff {text : String} {hash : Hash n} :
    ofText text = .ok hash ↔ Hex.decode (Hex.dropMarker text) = .ok hash.bytes := by
  unfold ofText
  cases Hex.decode (Hex.dropMarker text) with
  | error cause => exact iff_of_false nofun nofun
  | ok bytes => rw [ofBytes_eq_ok_iff, Except.ok.injEq, eq_comm]

theorem ofText_eq_invalidLength_iff {text : String} {expected got : Nat} :
    (ofText text : Except Error (Hash n)) = .error (.invalidLength expected got) ↔
      (∃ bytes, Hex.decode (Hex.dropMarker text) = .ok bytes ∧ bytes.length = got) ∧
        got ≠ n ∧ expected = n := by
  unfold ofText
  cases Hex.decode (Hex.dropMarker text) with
  | error cause => exact iff_of_false nofun nofun
  | ok bytes =>
    simp only [ofBytes_eq_error_iff, Except.ok.injEq, Error.invalidLength.injEq]
    constructor
    · rintro ⟨other, rfl, rfl⟩
      exact ⟨⟨bytes, rfl, rfl⟩, other, rfl⟩
    · rintro ⟨⟨_, rfl, rfl⟩, other, rfl⟩
      exact ⟨other, rfl, rfl⟩

theorem ofText_eq_invalidHex_iff {text : String} {cause : Hex.Error} :
    (ofText text : Except Error (Hash n)) = .error (.invalidHex cause) ↔
      Hex.decode (Hex.dropMarker text) = .error cause := by
  unfold ofText
  cases Hex.decode (Hex.dropMarker text) with
  | error found => rw [Except.error.injEq, Except.error.injEq, Error.invalidHex.injEq]
  | ok bytes => exact iff_of_false (fun refused => nomatch (ofBytes_eq_error_iff.1 refused).2) nofun

/-! ## The form -/

/-- Behind its marker, a text has two digits for each of so many bytes and nothing else. -/
def HasPairs (text : String) (count : Nat) : Prop :=
  (∀ c ∈ unmarked text, Hex.IsDigit c) ∧ (unmarked text).length = 2 * count

theorem hasPairs_iff {text : String} {count : Nat} :
    HasPairs text count ↔
      ∃ bytes, Hex.decode (Hex.dropMarker text) = .ok bytes ∧ bytes.length = count := by
  rw [HasPairs, ← toList_dropMarker]
  constructor
  · rintro ⟨all, length⟩
    obtain ⟨bytes, read⟩ := Hex.exists_decode_iff.2 ⟨all, by omega⟩
    have same := Hex.length_of_decode read
    exact ⟨bytes, read, by omega⟩
  · rintro ⟨bytes, read, rfl⟩
    exact ⟨(Hex.exists_decode_iff.1 ⟨bytes, read⟩).1, Hex.length_of_decode read⟩

/-- What the texts of hashes of `n` bytes are, and what becomes of other texts. -/
structure TextForm (n : Nat) : Prop where
  /-- Two digits for each byte are read, and nothing else. -/
  accepts : ∀ text, (∃ hash : Hash n, ofText text = .ok hash) ↔ HasPairs text n
  /-- The text of what was read has the same digits in lower case. -/
  lowers : ∀ text (hash : Hash n), ofText text = .ok hash →
    hash.toText = "0x" ++ String.ofList ((unmarked text).map Char.toLower)
  /-- Two digits for each byte of another number of bytes are of the wrong length. -/
  wrongLength : ∀ text expected got,
    (ofText text : Except Error (Hash n)) = .error (.invalidLength expected got) ↔
      HasPairs text got ∧ got ≠ n ∧ expected = n
  /-- All else is not hexadecimal. -/
  notHex : ∀ text, (∃ cause, (ofText text : Except Error (Hash n)) = .error (.invalidHex cause)) ↔
    ¬∃ count, HasPairs text count
  /-- A hash comes back from its text. -/
  readsBack : ∀ hash : Hash n, ofText hash.toText = .ok hash
  /-- Hashes are ordered as their texts. -/
  ordered : ∀ a b : Hash n, compare a b = .lt ↔ a.toText < b.toText

theorem textForm (n : Nat) : TextForm n := by
  constructor
  case accepts =>
    intro text
    rw [hasPairs_iff]
    constructor
    · rintro ⟨hash, read⟩
      exact ⟨hash.bytes, ofText_eq_ok_iff.1 read, hash.length_eq⟩
    · rintro ⟨bytes, read, length⟩
      exact ⟨⟨bytes, length⟩, ofText_eq_ok_iff.2 read⟩
  case lowers =>
    intro text hash read
    rw [toText, Hex.encode_of_decode (ofText_eq_ok_iff.1 read), toList_dropMarker]
  case wrongLength =>
    intro text expected got
    rw [hasPairs_iff, ofText_eq_invalidLength_iff]
  case notHex =>
    intro text
    simp only [ofText_eq_invalidHex_iff, hasPairs_iff]
    cases Hex.decode (Hex.dropMarker text) with
    | error cause => exact iff_of_true ⟨cause, rfl⟩ nofun
    | ok bytes => exact iff_of_false nofun (not_not_intro ⟨_, bytes, rfl, rfl⟩)
  case readsBack =>
    intro hash
    rw [ofText_eq_ok_iff, dropMarker_toText, Hex.decode_encode]
  case ordered =>
    intro a b
    rw [compare_def, Hex.compare_eq_lt_iff, String.lt_iff, String.lt_iff, toList_toText,
      toList_toText, List.cons_lt_cons_self, List.cons_lt_cons_self]

/-- Of two markers the second is no digit. -/
example : ofText (n := 2) "0x0x00" = .error (.invalidHex (.invalidCharacter 'x' 1)) := by
  decide +kernel

end GasMachine.Hash
