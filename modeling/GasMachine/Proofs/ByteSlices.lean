import GasMachine.Proofs.Outcomes

/-!
# Slices are exact

A range of bytes is cut out or overwritten exactly if it ends inside the bytes, where its end is a
sum of natural numbers: the two counts that it is made of are words, their sum need not be one. So
the check before the access is what decides, and what comes out is a formula with `take` and `drop`
(`substring_eq`, `copyInto_eq`). Cutting at the left and at the right are ranges from the start and
up to the end, and what they leave of one another joins to the whole.
-/

set_option autoImplicit false

namespace GasMachine

open TwosComplement (wordMax signed)

namespace Item

variable {limit n i : Nat} {bytes : Bytes} {source length index : Item}

/-- The fault of a range that ends beyond the bytes. -/
def beyond (stop size : Nat) : Fault := .indexOutOfRange (signed (min stop wordMax)) size

/-- The range of some bytes from a place on, if it ends inside. -/
def rangeOf (start count : Nat) (bytes : Bytes) : Except Fault Item :=
  if start + count ≤ bytes.length then .ok (.buffer ((bytes.drop start).take count))
  else .error (beyond (start + count) bytes.length)

theorem rangeOf_fails_iff {start count : Nat} :
    (∃ fault, rangeOf start count bytes = .error fault) ↔ bytes.length < start + count := by
  unfold rangeOf
  split
  · rename_i inside
    exact iff_of_false nofun (Nat.not_lt.2 inside)
  · rename_i outside
    exact iff_of_true ⟨_, rfl⟩ (Nat.not_le.1 outside)

theorem rangeOf_zero (inside : n ≤ bytes.length) :
    rangeOf 0 n bytes = .ok (.buffer (bytes.take n)) :=
  if_pos ((Nat.zero_add n).symm ▸ inside)

theorem rangeOf_to_end (inside : n ≤ bytes.length) :
    rangeOf n (bytes.length - n) bytes = .ok (.buffer (bytes.drop n)) := by
  unfold rangeOf
  rw [if_pos (Nat.add_sub_of_le inside).le, ← List.length_drop, List.take_length]

theorem toCount_le {item : Item} (counted : item.toCount limit = .ok n) : n ≤ wordMax :=
  (item.toCount_sound limit : Sound True _ _).ensures n counted

theorem checkRange_of_le {start count size : Nat} (inside : start + count ≤ size) :
    checkRange start count size = .ok () := if_pos inside

theorem checkRange_of_lt {start count size : Nat} (outside : size < start + count) :
    checkRange start count size = .error (beyond (start + count) size) :=
  if_neg (Nat.not_le.2 outside)

theorem slice_of_le {start count : Nat} (inside : start + count ≤ bytes.length) :
    slice start count bytes = .ok ((bytes.drop start).take count) := if_pos inside

/-- The check before the access is what decides. -/
theorem cut_eq (start count : Nat) (bytes : Bytes) :
    (do
      checkRange start count bytes.length
      return .buffer (← slice start count bytes)) = rangeOf start count bytes := by
  unfold rangeOf
  split
  · rename_i inside
    rw [checkRange_of_le inside, slice_of_le inside]
    rfl
  · rename_i outside
    rw [checkRange_of_lt (Nat.not_le.1 outside)]
    rfl

theorem substring_eq (written : source.toBytes = .ok bytes) (start : index.toCount limit = .ok i)
    (count : length.toCount limit = .ok n) :
    substring limit length index source = rangeOf i n bytes := by
  rw [← cut_eq]
  unfold substring
  rw [written, start, count]
  rfl

theorem left_eq (written : source.toBytes = .ok bytes) (count : length.toCount limit = .ok n) :
    left limit length source = rangeOf 0 n bytes := by
  rw [← cut_eq]
  unfold left
  rw [written, count]
  rfl

theorem right_eq (written : source.toBytes = .ok bytes) (count : length.toCount limit = .ok n) :
    right limit length source =
      if n ≤ bytes.length then rangeOf (bytes.length - n) n bytes
      else .error (beyond n bytes.length) := by
  have word : min n wordMax = n := Nat.min_eq_left (toCount_le count)
  unfold right
  rw [written, count]
  dsimp only [bind, Except.bind]
  split
  · rename_i inside
    have fits : bytes.length - n + n ≤ bytes.length := by omega
    unfold rangeOf
    rw [if_pos fits, slice_of_le fits]
    rfl
  · unfold beyond
    rw [word]
    rfl

/-- Whatever is in the way of a copy, the range to read from comes before the range to write to. -/
theorem copyInto_eq {targetIndex : Item} {target : Bytes} {k : Nat}
    (written : source.toBytes = .ok bytes) (start : index.toCount limit = .ok i)
    (place : targetIndex.toCount limit = .ok k) (count : length.toCount limit = .ok n) :
    copyInto limit length index source targetIndex (.buffer target) =
      if i + n ≤ bytes.length then
        if k + n ≤ target.length then
          .ok (.buffer (target.take k ++ (bytes.drop i).take n ++ target.drop (k + n)))
        else .error (beyond (k + n) target.length)
      else .error (beyond (i + n) bytes.length) := by
  unfold copyInto
  rw [count, written, start, place]
  dsimp only [bind, Except.bind]
  by_cases readable : i + n ≤ bytes.length
  · have length : ((bytes.drop i).take n).length = n := by
      rw [List.length_take, List.length_drop]
      omega
    rw [if_pos readable, checkRange_of_le readable, slice_of_le readable]
    by_cases writable : k + n ≤ target.length
    · rw [if_pos writable, checkRange_of_le writable]
      dsimp only
      unfold splice
      rw [length, if_pos writable]
      rfl
    · rw [if_neg writable, checkRange_of_lt (Nat.not_le.1 writable)]
  · rw [if_neg readable, checkRange_of_lt (Nat.not_le.1 readable)]

theorem join_eq {first second : Item} {others : Bytes} (written : first.toBytes = .ok bytes)
    (next : second.toBytes = .ok others) : first.join second = .ok (.buffer (bytes ++ others)) := by
  unfold join
  rw [written, next]
  rfl

/-! ## Modest outcomes -/

theorem modest_buffer {arguments : List Item} (some_ : 1 ≤ arguments.length) (bytes : Bytes) :
    Modest arguments (.ok (.buffer bytes)) :=
  .ok (Nat.le_add_right_of_le some_)

theorem modest_beyond (arguments : List Item) (stop size : Nat) :
    Modest arguments (.error (beyond stop size)) :=
  .error rfl

theorem modest_rangeOf {arguments : List Item} (some_ : 1 ≤ arguments.length) (start count : Nat)
    (bytes : Bytes) : Modest arguments (rangeOf start count bytes) := by
  unfold rangeOf
  split
  · exact modest_buffer some_ _
  · exact modest_beyond _ _ _

end Item

namespace Opcode

variable {limits : Limits} {bytes : Bytes} {source length index : Item} {n i : Nat}
  {outcome : Except Fault Item}

theorem yields_substring (written : source.toBytes = .ok bytes)
    (start : index.toCount limits.integerSize = .ok i)
    (count : length.toCount limits.integerSize = .ok n) :
    SUBSTR.Yields limits [length, index, source] outcome ↔ Item.rangeOf i n bytes = outcome := by
  refine yields_iff ?_ rfl rfl (by simp) (Item.modest_rangeOf (by simp) i n bytes)
  rintro host instruction frame world rfl
  exact congrArg (Except.map (Results.one · world)) (Item.substring_eq written start count)

theorem yields_left (written : source.toBytes = .ok bytes)
    (count : length.toCount limits.integerSize = .ok n) :
    LEFT.Yields limits [length, source] outcome ↔ Item.rangeOf 0 n bytes = outcome := by
  refine yields_iff ?_ rfl rfl (by simp) (Item.modest_rangeOf (by simp) 0 n bytes)
  rintro host instruction frame world rfl
  exact congrArg (Except.map (Results.one · world)) (Item.left_eq written count)

theorem yields_right (written : source.toBytes = .ok bytes)
    (count : length.toCount limits.integerSize = .ok n) :
    RIGHT.Yields limits [length, source] outcome ↔
      (if n ≤ bytes.length then Item.rangeOf (bytes.length - n) n bytes
        else .error (Item.beyond n bytes.length)) = outcome := by
  have modest : Modest [length, source] (if n ≤ bytes.length
      then Item.rangeOf (bytes.length - n) n bytes else .error (Item.beyond n bytes.length)) := by
    split
    · exact Item.modest_rangeOf (by simp) _ _ _
    · exact Item.modest_beyond _ _ _
  refine yields_iff ?_ rfl rfl (by simp) modest
  rintro host instruction frame world rfl
  exact congrArg (Except.map (Results.one · world)) (Item.right_eq written count)

theorem yields_copyInto {targetIndex : Item} {target : Bytes} {k : Nat}
    (written : source.toBytes = .ok bytes) (start : index.toCount limits.integerSize = .ok i)
    (place : targetIndex.toCount limits.integerSize = .ok k)
    (count : length.toCount limits.integerSize = .ok n) :
    MEMCPY.Yields limits [length, index, source, targetIndex, .buffer target] outcome ↔
      (if i + n ≤ bytes.length then
        if k + n ≤ target.length then
          .ok (.buffer (target.take k ++ (bytes.drop i).take n ++ target.drop (k + n)))
        else .error (Item.beyond (k + n) target.length)
      else .error (Item.beyond (i + n) bytes.length)) = outcome := by
  have copied : Item.copyInto _ length index source targetIndex (.buffer target) = _ :=
    Item.copyInto_eq written start place count
  rw [← copied]
  have modest : Modest [length, index, source, targetIndex, .buffer target]
      (Item.copyInto limits.integerSize length index source targetIndex (.buffer target)) := by
    rw [copied]
    split
    · split
      · exact Item.modest_buffer (by simp) _
      · exact Item.modest_beyond _ _ _
    · exact Item.modest_beyond _ _ _
  refine yields_iff ?_ rfl rfl (by simp) modest
  rintro host instruction frame world rfl
  rfl

/-- The bytes of two items are joined. -/
theorem makes_join {first second : Item} {others all : Bytes} (written : first.toBytes = .ok bytes)
    (next : second.toBytes = .ok others) (whole : bytes ++ others = all) :
    CAT.Makes limits [second, first] (.ok (.buffer all)) := by
  subst whole
  rintro host instruction frame world rfl
  exact congrArg (Except.map (Results.one · world)) (Item.join_eq written next)

/-- The machine does it if the limits allow for as many bytes. -/
theorem performs_join {first second : Item} {others all : Bytes}
    (written : first.toBytes = .ok bytes) (next : second.toBytes = .ok others)
    (whole : bytes ++ others = all) (fits : all.length ≤ limits.itemSize) :
    CAT.Performs limits [second, first] (.ok (.buffer all)) := by
  refine (makes_join written next whole).performs rfl (Item.modest_buffer (by simp) _)
    fun host frame rest _ stack => ⟨_, ?_, rfl⟩
  have below : frame.peekLength 1 = bytes.length :=
    Frame.peekLength_of_toBytes (congrArg (·[1]?) stack) written
  have top : frame.peekLength 0 = others.length :=
    Frame.peekLength_of_toBytes (congrArg (·[0]?) stack) next
  have announced : saturate (frame.peekLength 1 + frame.peekLength 0) ≤ limits.itemSize := by
    rw [below, top, ← List.length_append, whole]
    exact (Nat.min_le_left _ _).trans fits
  have fewer : (1 : Int) + 0 ≤ 2 := by decide
  exact ⟨⟨rfl, rfl, rfl, Nat.zero_le _, announced⟩, rfl, rfl, fewer, rfl⟩

end Opcode

/-! ## What the opcodes yield -/

/-- What the opcodes for slices yield of an item with a form in bytes. Counts and indices are items
that read as words. -/
structure Limits.SlicesExactly (limits : Limits) (source : Item) (bytes : Bytes) : Prop where
  /-- A range is cut out exactly if it ends inside the bytes, wherever it starts. -/
  substring : ∀ length index n i, length.toCount limits.integerSize = .ok n →
    index.toCount limits.integerSize = .ok i →
      Opcode.SUBSTR.Yields limits [length, index, source]
        (if i + n ≤ bytes.length then .ok (.buffer ((bytes.drop i).take n))
          else .error (Item.beyond (i + n) bytes.length))
  /-- Cutting at the left is cutting out from the start. -/
  left : ∀ length zero n, length.toCount limits.integerSize = .ok n →
    zero.toCount limits.integerSize = .ok 0 → ∀ outcome,
      Opcode.LEFT.Yields limits [length, source] outcome ↔
        Opcode.SUBSTR.Yields limits [length, zero, source] outcome
  /-- Cutting at the right is cutting out up to the end. -/
  right : ∀ length index n, length.toCount limits.integerSize = .ok n → n ≤ bytes.length →
    index.toCount limits.integerSize = .ok (bytes.length - n) → ∀ outcome,
      Opcode.RIGHT.Yields limits [length, source] outcome ↔
        Opcode.SUBSTR.Yields limits [length, index, source] outcome
  /-- Both fault exactly if there are not as many bytes. -/
  faults : ∀ opcode length n, opcode ∈ [Opcode.LEFT, .RIGHT] →
    length.toCount limits.integerSize = .ok n →
      ((∃ fault, opcode.Yields limits [length, source] (.error fault)) ↔ bytes.length < n)
  /-- What is cut off at the left and what is left at the right join to the whole. -/
  whole : ∀ front back n, front.toCount limits.integerSize = .ok n → n ≤ bytes.length →
    back.toCount limits.integerSize = .ok (bytes.length - n) → ∃ first second,
      Opcode.LEFT.Yields limits [front, source] (.ok first) ∧
        Opcode.RIGHT.Yields limits [back, source] (.ok second) ∧
          Opcode.CAT.Makes limits [second, first] (.ok (.buffer bytes)) ∧
            (bytes.length ≤ limits.itemSize →
              Opcode.CAT.Performs limits [second, first] (.ok (.buffer bytes)))
  /-- Bytes are copied if both ranges end inside; only the bytes of the target range change. -/
  copy : ∀ length index targetIndex target n i k, length.toCount limits.integerSize = .ok n →
    index.toCount limits.integerSize = .ok i → targetIndex.toCount limits.integerSize = .ok k →
      i + n ≤ bytes.length → k + n ≤ target.length → ∃ result : Bytes,
        Opcode.MEMCPY.Yields limits [length, index, source, targetIndex, .buffer target]
            (.ok (.buffer result)) ∧
          result = target.take k ++ (bytes.drop i).take n ++ target.drop (k + n) ∧
            result.length = target.length
  /-- Otherwise the copy faults, at the range to be read first. -/
  copyFaults : ∀ length index targetIndex target n i k, length.toCount limits.integerSize = .ok n →
    index.toCount limits.integerSize = .ok i → targetIndex.toCount limits.integerSize = .ok k →
      ¬(i + n ≤ bytes.length ∧ k + n ≤ target.length) →
        Opcode.MEMCPY.Yields limits [length, index, source, targetIndex, .buffer target]
          (.error (if i + n ≤ bytes.length then Item.beyond (k + n) target.length
            else Item.beyond (i + n) bytes.length))

theorem Limits.slicesExactly (limits : Limits) (source : Item) (bytes : Bytes)
    (written : source.toBytes = .ok bytes) : limits.SlicesExactly source bytes := by
  constructor
  case substring =>
    intro length index n i count start
    exact (Opcode.yields_substring written start count).2 rfl
  case left =>
    intro length zero n count start outcome
    rw [Opcode.yields_left written count, Opcode.yields_substring written start count]
  case right =>
    intro length index n count inside start outcome
    rw [Opcode.yields_right written count, Opcode.yields_substring written start count,
      if_pos inside]
  case faults =>
    intro opcode length n member count
    rcases List.mem_pair.1 member with rfl | rfl
    · simp_rw [Opcode.yields_left written count]
      exact Item.rangeOf_fails_iff.trans (by rw [Nat.zero_add])
    · simp_rw [Opcode.yields_right written count]
      split
      · rename_i inside
        rw [Item.rangeOf_fails_iff, Nat.sub_add_cancel inside]
        exact iff_of_false (Nat.lt_irrefl _) (Nat.not_lt.2 inside)
      · rename_i outside
        exact iff_of_true ⟨_, rfl⟩ (Nat.not_le.1 outside)
  case whole =>
    intro front back n count inside others
    have rest : bytes.length - n ≤ bytes.length := Nat.sub_le _ _
    have first := (Opcode.yields_left written count).2 (Item.rangeOf_zero inside)
    have second : Opcode.RIGHT.Yields limits [back, source] (.ok (.buffer (bytes.drop n))) := by
      rw [Opcode.yields_right written others, if_pos rest, Nat.sub_sub_self inside]
      exact Item.rangeOf_to_end inside
    have joined := List.take_append_drop n bytes
    refine ⟨_, _, first, second, Opcode.makes_join rfl rfl joined, fun fits => ?_⟩
    exact Opcode.performs_join rfl rfl joined fits
  case copy =>
    intro length index targetIndex target n i k count start place readable writable
    refine ⟨_, (Opcode.yields_copyInto written start place count).2 ?_, rfl, ?_⟩
    · rw [if_pos readable, if_pos writable]
    · simp only [List.length_append, List.length_take, List.length_drop]
      omega
  case copyFaults =>
    intro length index targetIndex target n i k count start place refused
    refine (Opcode.yields_copyInto written start place count).2 ?_
    split
    · rename_i readable
      rw [if_neg fun writable => refused ⟨readable, writable⟩]
    · rfl

/-- A range that starts at the last word ends beyond all words, and is refused; the bytes of the
same number are cut in two, with counts of other kinds, and joined. -/
theorem Limits.slicesExactly_number :
    let number : Item := .integer 0x030201
    number.toBytes = .ok [1, 2, 3] ∧
    Opcode.SUBSTR.Yields {} [.integer 2, .integer (2 ^ 64 - 1), number]
      (.error (.indexOutOfRange (-1) 3)) ∧
    ∃ first second, Opcode.LEFT.Yields {} [.boolean true, number] (.ok first) ∧
      Opcode.RIGHT.Yields {} [.byteString [2, 0], number] (.ok second) ∧
        Opcode.CAT.Performs {} [second, first] (.ok (.buffer [1, 2, 3])) := by
  have written : (Item.integer 0x030201).toBytes = .ok [1, 2, 3] := by decide +kernel
  have slices := slicesExactly {} (.integer 0x030201) [1, 2, 3] written
  have far := slices.substring (.integer 2) (.integer (2 ^ 64 - 1)) 2 (2 ^ 64 - 1)
    (by decide +kernel) (by decide +kernel)
  obtain ⟨first, second, left, right, _, joins⟩ := slices.whole (.boolean true)
    (.byteString [2, 0]) 1 (by decide +kernel) (by decide) (by decide +kernel)
  exact ⟨written, far, first, second, left, right, joins (by decide)⟩

end GasMachine
