import Yuance.Lib.Bytes

/-!
# Yuance.Lib.Crypto

The cryptographic primitives a program calls, as structures whose fields are the operations and
the laws the callers rely on: an authenticated cipher with a tag of fixed length (`Aead`) and a
hash function with a digest of fixed length (`Digest`). A key and a nonce carry their length.
-/

namespace Lib

/-- A byte string of `n` bytes, such as `[u8; n]`. -/
abbrev FixedBytes (n : Nat) := { b : Bytes // b.length = n }

def FixedBytes.fill (n : Nat) (b : UInt8) : FixedBytes n := ⟨List.replicate n b, List.length_replicate⟩

/-- Twelve bytes as the nonce they are. -/
def asNonce (bytes : Bytes) : Option (FixedBytes 12) :=
  if h : bytes.length = 12 then some ⟨bytes, h⟩ else none

theorem asNonce_val (nonce : FixedBytes 12) : asNonce nonce.val = some nonce :=
  dif_pos nonce.property

theorem val_of_asNonce {bytes : Bytes} {nonce : FixedBytes 12} (h : asNonce bytes = some nonce) :
    bytes = nonce.val := by
  unfold asNonce at h
  split at h
  · rw [← Option.some.inj h]
  · cases h

/-- An authenticated cipher with a 16-byte tag: decrypting undoes encrypting under the same key, nonce
and associated data. -/
structure Aead where
  encrypt : FixedBytes 32 → FixedBytes 12 → (aad msg : Bytes) → Bytes
  decrypt : FixedBytes 32 → FixedBytes 12 → (aad ct : Bytes) → Option Bytes
  decrypt_encrypt : ∀ k n aad msg, decrypt k n aad (encrypt k n aad msg) = some msg
  length_encrypt : ∀ k n aad msg, (encrypt k n aad msg).length = msg.length + 16

/-- A hash function with a 32-byte digest. -/
structure Digest where
  hash : Bytes → Bytes
  length_hash : ∀ b, (hash b).length = 32

/-- The cipher that appends sixteen zero bytes: an instance of the laws to evaluate with. -/
def Aead.plain : Aead where
  encrypt := fun _ _ _ msg => msg ++ zeros 16
  decrypt := fun _ _ _ ct => some (ct.take (ct.length - 16))
  decrypt_encrypt := by intro k n aad msg; simp [zeros]
  length_encrypt := by intro k n aad msg; simp

/-- What decrypts is as long as its ciphertext without the tag. -/
def Aead.Sized (A : Aead) : Prop :=
  ∀ key nonce aad ct msg, A.decrypt key nonce aad ct = some msg → ct.length = msg.length + 16

/-- The cipher that appends sixteen zero bytes and accepts no other tag. -/
def Aead.tagged : Aead where
  encrypt := fun _ _ _ msg => msg ++ zeros 16
  decrypt := fun _ _ _ ct =>
    if 16 ≤ ct.length ∧ ct.drop (ct.length - 16) = zeros 16 then some (ct.take (ct.length - 16))
    else none
  decrypt_encrypt := by intro k n aad msg; simp
  length_encrypt := by intro k n aad msg; simp

theorem Aead.tagged_sized : Aead.tagged.Sized := by
  intro key nonce aad ct msg h
  unfold Aead.tagged at h
  dsimp only at h
  split at h
  · rename_i htag
    obtain rfl := Option.some.inj h
    rw [List.length_take]
    omega
  · cases h

/-- The constant digest. -/
def Digest.const : Digest where
  hash := fun _ => zeros 32
  length_hash := by intro b; simp

end Lib
