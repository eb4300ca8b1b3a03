import GasMachine.Hash

/-!
# Keccak-256

The sponge over the 1600-bit permutation with a rate of 136 bytes and padding without suffix (a one
bit, zeros, a one bit). The state is 25 lanes of 64 bits; lane `(x, y)` is number `x + 5 * y`.
-/

set_option autoImplicit false

namespace GasMachine.Keccak

abbrev State := Vector UInt64 25

/-- Lane `(x, y)`; both coordinates wrap around at 5. -/
def lane (state : State) (x y : Nat) : UInt64 :=
  state.get ⟨x % 5 + 5 * (y % 5), by omega⟩

def State.ofLanes (f : Nat → Nat → UInt64) : State :=
  Vector.ofFn fun i => f (i.val % 5) (i.val / 5)

/-- Rotation towards the most significant bit. -/
def rotate (word : UInt64) (amount : UInt64) : UInt64 :=
  (word <<< amount) ||| (word >>> (64 - amount))

def offsets : Vector UInt64 25 :=
  #v[0, 1, 62, 28, 27, 36, 44, 6, 55, 20, 3, 10, 43, 25, 39, 41, 45, 15, 21, 8, 18, 2, 61, 56, 14]

def roundConstants : List UInt64 :=
  [0x0000000000000001, 0x0000000000008082, 0x800000000000808a, 0x8000000080008000,
   0x000000000000808b, 0x0000000080000001, 0x8000000080008081, 0x8000000000008009,
   0x000000000000008a, 0x0000000000000088, 0x0000000080008009, 0x000000008000000a,
   0x000000008000808b, 0x800000000000008b, 0x8000000000008089, 0x8000000000008003,
   0x8000000000008002, 0x8000000000000080, 0x000000000000800a, 0x800000008000000a,
   0x8000000080008081, 0x8000000000008080, 0x0000000080000001, 0x8000000080008008]

/-- Mix the parity of two neighbouring columns into every lane. -/
def theta (state : State) : State :=
  let parity : Vector UInt64 5 := Vector.ofFn fun x =>
    lane state x 0 ^^^ lane state x 1 ^^^ lane state x 2 ^^^ lane state x 3 ^^^ lane state x 4
  let column (x : Nat) : UInt64 := parity.get ⟨x % 5, by omega⟩
  let mixed : Vector UInt64 5 := Vector.ofFn fun x => column (x + 4) ^^^ rotate (column (x + 1)) 1
  .ofLanes fun x y => lane state x y ^^^ mixed.get ⟨x % 5, by omega⟩

/-- Rotate the lanes and move lane `(x, y)` to `(y, 2x + 3y)`. -/
def rhoPi (state : State) : State :=
  .ofLanes fun x y => rotate (lane state (x + 3 * y) x) (lane offsets (x + 3 * y) x)

/-- The only step that is not linear: each lane from itself and the next two of its row. -/
def chi (state : State) : State :=
  .ofLanes fun x y => lane state x y ^^^ (~~~ lane state (x + 1) y &&& lane state (x + 2) y)

def iota (constant : UInt64) (state : State) : State :=
  .ofLanes fun x y => if x = 0 ∧ y = 0 then lane state x y ^^^ constant else lane state x y

def permute (state : State) : State :=
  roundConstants.foldl (fun s constant => iota constant (chi (rhoPi (theta s)))) state

def rate : Nat := 136

def padding (length : Nat) : Bytes :=
  let missing := rate - length % rate
  if missing = 1 then [0x81] else 0x01 :: (List.replicate (missing - 2) 0x00 ++ [0x80])

/-- Mix one block into the first 17 lanes, then permute. -/
def absorb (state : State) (block : Bytes) : State :=
  let words : Array UInt64 :=
    ((Bytes.blocks 8 17 block).map fun bytes => UInt64.ofNat (Bytes.toNat bytes)).toArray
  permute (.ofLanes fun x y => lane state x y ^^^ words.getD (x + 5 * y) 0)

def absorbAll (message : Bytes) : State :=
  let padded := message ++ padding message.length
  (Bytes.blocks rate (padded.length / rate) padded).foldl absorb (.replicate 25 0)

/-- The Keccak-256 digest: the first four lanes of the final state. -/
def digest (message : Bytes) : Hash 32 :=
  let final := absorbAll message
  ⟨[0, 1, 2, 3].flatMap fun x => Bytes.ofNat 8 (lane final x 0).toNat, by simp⟩

end GasMachine.Keccak
