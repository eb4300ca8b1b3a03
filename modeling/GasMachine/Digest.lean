import GasMachine.Digest.Keccak
import GasMachine.Digest.Sha256

/-!
# Identities derived from digests

A script is identified by the last 20 bytes of the Keccak-256 digest of its code, and a service by
the first four bytes of the SHA-256 digest of its name.
-/

set_option autoImplicit false

namespace GasMachine

/-- Identity of the script with the given code. -/
def scriptHash (code : Bytes) : ScriptHash :=
  ⟨(Keccak.digest code).bytes.drop 12, by simp [(Keccak.digest code).length_eq]⟩

/-- Id of the service with the given name, given as bytes: four digest bytes read little-endian,
which is how system calls encode it. -/
def serviceId (name : Bytes) : Nat :=
  Bytes.toNat ((Sha256.digest name).bytes.take 4)

end GasMachine
