import Yuance.Lib.Crypto

/-!
# Yuance.FileCrypto.Format

The `YUANCE-ENC-v1` file format in its own terms: what an encrypted file of a plaintext is, byte
for byte, given the key, the file object id and the nonce of each chunk. The encoders of the
server, the command-line client, the desktop application and the browser are each shown to
produce `encoded`, and each decoder to return the plaintext of `encoded`.

* `header`: magic, version, chunk size, plaintext size, plaintext digest, chunk count and nonces.
* `body`: the sealed chunks one after another.
* `encoded_split`: where sealed chunk `i` stands in the file.
-/

namespace Yuance
namespace FileCrypto

open Lib

/-- The primitives that all implementations call. -/
structure Prims where
  aead : Aead
  sha : Digest

abbrev Key := FixedBytes 32
abbrev Nonce := FixedBytes 12

namespace Format

def chunkSize : Nat := 1024 * 1024

def magic : Bytes := ascii "YUANCE-ENC-v1"

/-- Length of the header without the nonces. -/
def fixedLen : Nat := 65

@[simp] theorem magic_length : magic.length = 13 := by decide

def count (n : Nat) : Nat := ceilDiv n chunkSize

/-- Associated data of chunk `i`. -/
def aad (fileObjectId : Int) (i : Nat) : Bytes :=
  ascii "yuance-file-enc:v1:" ++ toBE 8 (asU64 fileObjectId) ++ [58] ++ toBE 4 i

/-- The associated data with another byte in place of the colon. -/
def aadWith (fileObjectId : Int) (i : Nat) (separator : UInt8) : Bytes :=
  ascii "yuance-file-enc:v1:" ++ toBE 8 (asU64 fileObjectId) ++ [separator] ++ toBE 4 i

section Encoded

variable (P : Prims) (key : Key) (fileObjectId : Int) (nonce : Nat → Nonce) (plaintext : Bytes)

/-- The header up to the chunk count. -/
def fixedHeader : Bytes :=
  magic ++ toBE 4 1 ++ toBE 4 chunkSize ++ toBE 8 plaintext.length ++ P.sha.hash plaintext
    ++ toBE 4 (count plaintext.length)

def nonceTable : Bytes := (List.range (count plaintext.length)).flatMap fun i => (nonce i).val

def header : Bytes := fixedHeader P plaintext ++ nonceTable nonce plaintext

/-- Sealed chunk `i`. -/
def sealed (i : Nat) : Bytes :=
  P.aead.encrypt key (nonce i) (aad fileObjectId i) (chunk chunkSize plaintext i)

def body : Bytes :=
  (List.range (count plaintext.length)).flatMap (sealed P key fileObjectId nonce plaintext)

/-- The encrypted file. -/
def encoded : Bytes := header P nonce plaintext ++ body P key fileObjectId nonce plaintext

end Encoded

section Layout

variable {P : Prims} {key : Key} {fileObjectId : Int} {nonce : Nat → Nonce} {plaintext : Bytes}

@[simp] theorem fixedHeader_length : (fixedHeader P plaintext).length = fixedLen := by
  simp [fixedHeader, fixedLen, P.sha.length_hash]

theorem flatMap_nonce_length (k : Nat) :
    ((List.range k).flatMap fun i => (nonce i).val).length = k * 12 := by
  induction k with
  | zero => rfl
  | succ k ih =>
    rw [List.range_succ, List.flatMap_append, List.length_append, ih, List.flatMap_singleton,
      (nonce k).property, Nat.succ_mul]

@[simp] theorem nonceTable_length :
    (nonceTable nonce plaintext).length = count plaintext.length * 12 :=
  flatMap_nonce_length _

@[simp] theorem header_length :
    (header P nonce plaintext).length = fixedLen + count plaintext.length * 12 := by
  simp [header]

theorem sealed_length (i : Nat) : (sealed P key fileObjectId nonce plaintext i).length
    = min chunkSize (plaintext.length - i * chunkSize) + 16 := by
  rw [sealed, P.aead.length_encrypt, chunk_length]

/-- Offset of sealed chunk `i` in the body: every earlier chunk is full. -/
def bodyOffset (plaintext : Bytes) (i : Nat) : Nat :=
  min plaintext.length (i * chunkSize) + i * 16

theorem sealedPrefix_length (k : Nat) :
    ((List.range k).flatMap (sealed P key fileObjectId nonce plaintext)).length
      = bodyOffset plaintext k := by
  induction k with
  | zero => simp [bodyOffset]
  | succ k ih =>
    rw [List.range_succ, List.flatMap_append, List.length_append, ih, List.flatMap_singleton,
      sealed_length, bodyOffset, bodyOffset, Nat.succ_mul, Nat.succ_mul]
    omega

theorem bodyOffset_count :
    bodyOffset plaintext (count plaintext.length)
      = plaintext.length + count plaintext.length * 16 := by
  have hle : plaintext.length ≤ count plaintext.length * chunkSize :=
    le_ceilDiv_mul (by decide)
  rw [bodyOffset]
  omega

theorem body_length : (body P key fileObjectId nonce plaintext).length
    = plaintext.length + count plaintext.length * 16 := by
  rw [body, sealedPrefix_length, bodyOffset_count]

theorem encoded_length : (encoded P key fileObjectId nonce plaintext).length
    = fixedLen + count plaintext.length * 12 + (plaintext.length + count plaintext.length * 16) := by
  rw [encoded, List.length_append, header_length, body_length]

/-- A flat list of pieces is the pieces before `i`, piece `i` and the pieces behind it. -/
theorem flatMap_range_split {α : Type} (f : Nat → List α) {i k : Nat} (hi : i < k) :
    (List.range k).flatMap f = (List.range i).flatMap f ++ f i
      ++ (List.range' (i + 1) (k - (i + 1))).flatMap f := by
  have hk : List.range k = List.range i ++ [i] ++ List.range' (i + 1) (k - (i + 1)) := by
    rw [← List.range_succ, List.range_eq_range', List.range_eq_range',
      show List.range' (i + 1) (k - (i + 1)) = List.range' (0 + 1 * (i + 1)) (k - (i + 1)) by simp,
      List.range'_append]
    congr 1
    omega
  rw [hk, List.flatMap_append, List.flatMap_append, List.flatMap_singleton]

/-- Sealed chunk `i` stands in the body at `bodyOffset i`. -/
theorem body_split {i : Nat} (hi : i < count plaintext.length) :
    ∃ pre post, body P key fileObjectId nonce plaintext
        = pre ++ sealed P key fileObjectId nonce plaintext i ++ post
      ∧ pre.length = bodyOffset plaintext i :=
  ⟨_, _, flatMap_range_split _ hi, sealedPrefix_length i⟩

/-- Sealed chunk `i` stands in the file at `bodyOffset i` behind the header. -/
theorem encoded_split {i : Nat} (hi : i < count plaintext.length) :
    ∃ pre post, encoded P key fileObjectId nonce plaintext
        = pre ++ sealed P key fileObjectId nonce plaintext i ++ post
      ∧ pre.length = (header P nonce plaintext).length + bodyOffset plaintext i := by
  obtain ⟨pre, post, h, hl⟩ := @body_split P key fileObjectId nonce plaintext i hi
  refine ⟨header P nonce plaintext ++ pre, post, ?_, ?_⟩
  · rw [encoded, h]
    simp [List.append_assoc]
  · rw [List.length_append, hl]

/-- Nonce `i` stands in the nonce table at `12 * i`. -/
theorem nonceTable_split {i : Nat} (hi : i < count plaintext.length) :
    ∃ pre post, nonceTable nonce plaintext = pre ++ (nonce i).val ++ post
      ∧ pre.length = i * 12 :=
  ⟨_, _, flatMap_range_split _ hi, flatMap_nonce_length i⟩

/-- Plaintext length of chunk `i`, for an index below the count. -/
theorem chunk_len_eq {n i : Nat} (hi : i < count n) :
    min chunkSize (n - i * chunkSize) = min (n - i * chunkSize) chunkSize
      ∧ i * chunkSize < n :=
  ⟨Nat.min_comm _ _, mul_lt_of_lt_ceilDiv hi⟩

theorem bodyOffset_succ {i : Nat} (hi : i < count plaintext.length) :
    bodyOffset plaintext (i + 1)
      = bodyOffset plaintext i + min (plaintext.length - i * chunkSize) chunkSize + 16 := by
  have := (chunk_len_eq hi).2
  rw [bodyOffset, bodyOffset, Nat.succ_mul, Nat.succ_mul]
  omega

theorem bodyOffset_mono {i j : Nat} (hij : i ≤ j) :
    bodyOffset plaintext i ≤ bodyOffset plaintext j := by
  have := Nat.mul_le_mul_right chunkSize hij
  unfold bodyOffset
  omega

theorem bodyOffset_le_body {i : Nat} (hi : i ≤ count plaintext.length) :
    bodyOffset plaintext i ≤ (body P key fileObjectId nonce plaintext).length := by
  rw [body_length, ← bodyOffset_count]
  exact bodyOffset_mono hi

theorem sealed_at {i : Nat} (hi : i < count plaintext.length) :
    slice? (encoded P key fileObjectId nonce plaintext)
      (fixedLen + count plaintext.length * 12 + bodyOffset plaintext i)
      (fixedLen + count plaintext.length * 12 + bodyOffset plaintext i
        + (min (plaintext.length - i * chunkSize) chunkSize + 16))
      = some (sealed P key fileObjectId nonce plaintext i) := by
  obtain ⟨pre, post, h, hl⟩ := @encoded_split P key fileObjectId nonce plaintext i hi
  rw [header_length] at hl
  rw [h, ← hl]
  refine slice?_mid rfl ?_
  rw [sealed_length, Nat.min_comm]

theorem nonce_at {i : Nat} (hi : i < count plaintext.length) :
    slice? (encoded P key fileObjectId nonce plaintext) (fixedLen + i * 12)
      (fixedLen + i * 12 + 12) = some (nonce i).val := by
  obtain ⟨pre, post, h, hl⟩ := @nonceTable_split nonce plaintext i hi
  have hp : (fixedHeader P plaintext ++ pre).length = fixedLen + i * 12 := by
    rw [List.length_append, fixedHeader_length, hl]
  have he : encoded P key fileObjectId nonce plaintext
      = fixedHeader P plaintext ++ pre ++ (nonce i).val
        ++ (post ++ body P key fileObjectId nonce plaintext) := by
    rw [encoded, header, h]
    simp only [List.append_assoc]
  rw [he, ← hp]
  refine slice?_mid rfl ?_
  rw [(nonce i).property]

theorem subarray_nonceTable {i : Nat} (hi : i < count plaintext.length) :
    subarray (nonceTable nonce plaintext) (i * 12) ((i + 1) * 12) = (nonce i).val := by
  obtain ⟨pre, post, h, hl⟩ := @nonceTable_split nonce plaintext i hi
  rw [h]
  refine subarray_mid hl.symm ?_
  rw [(nonce i).property, hl, Nat.succ_mul]

/-- Where the parts of an encrypted file stand, as `slice?` reads them. -/
structure Fields (P : Prims) (nonce : Nat → Nonce) (plaintext body c : Bytes) : Prop where
  length : c.length = fixedLen + count plaintext.length * 12 + body.length
  magic : c.take 13 = magic
  version : slice? c 13 17 = some (toBE 4 1)
  chunkSize : slice? c 17 21 = some (toBE 4 chunkSize)
  plaintextSize : slice? c 21 29 = some (toBE 8 plaintext.length)
  sha : slice? c 29 61 = some (P.sha.hash plaintext)
  count : slice? c 61 65 = some (toBE 4 (count plaintext.length))
  nonces : slice? c 65 (65 + Format.count plaintext.length * 12)
    = some (nonceTable nonce plaintext)
  body : slice? c (65 + Format.count plaintext.length * 12) c.length = some body

/-- A header and whatever stands behind it. -/
theorem header_fields (tail : Bytes) :
    Fields P nonce plaintext tail (header P nonce plaintext ++ tail) := by
  obtain ⟨sha, hs⟩ : ∃ sha, P.sha.hash plaintext = sha := ⟨_, rfl⟩
  have hsha : sha.length = 32 := by rw [← hs]; exact P.sha.length_hash plaintext
  have hlen : (header P nonce plaintext ++ tail).length
      = fixedLen + count plaintext.length * 12 + tail.length := by
    rw [List.length_append, header_length]
  have e : header P nonce plaintext ++ tail = magic ++ toBE 4 1 ++ toBE 4 chunkSize
      ++ toBE 8 plaintext.length ++ sha ++ toBE 4 (count plaintext.length)
      ++ nonceTable nonce plaintext ++ tail := by
    rw [header, fixedHeader, hs]
  -- each field is cut out of the same bytes, grouped around that field
  refine ⟨hlen, ?_, ?_, ?_, ?_, ?_, ?_, ?_, ?_⟩
  · rw [e]
    simp only [List.append_assoc]
    exact List.take_left' magic_length
  · rw [e]
    simp only [List.append_assoc (magic ++ toBE 4 1)]
    exact slice?_mid (by simp) (by simp)
  · rw [e]
    simp only [List.append_assoc (magic ++ toBE 4 1 ++ toBE 4 chunkSize)]
    exact slice?_mid (by simp) (by simp)
  · rw [e]
    simp only [List.append_assoc (magic ++ toBE 4 1 ++ toBE 4 chunkSize
      ++ toBE 8 plaintext.length)]
    exact slice?_mid (by simp) (by simp)
  · rw [e, hs]
    simp only [List.append_assoc (magic ++ toBE 4 1 ++ toBE 4 chunkSize
      ++ toBE 8 plaintext.length ++ sha)]
    exact slice?_mid (by simp) (by simp [hsha])
  · rw [e]
    simp only [List.append_assoc (magic ++ toBE 4 1 ++ toBE 4 chunkSize
      ++ toBE 8 plaintext.length ++ sha ++ toBE 4 (count plaintext.length))]
    exact slice?_mid (by simp [hsha]) (by simp [hsha])
  · rw [e]
    exact slice?_mid (by simp [hsha]) (by simp [hsha])
  · have hl : 65 + count plaintext.length * 12
        = (magic ++ toBE 4 1 ++ toBE 4 chunkSize ++ toBE 8 plaintext.length ++ sha
          ++ toBE 4 (count plaintext.length) ++ nonceTable nonce plaintext).length := by
      simp only [List.length_append, magic_length, toBE_length, hsha, nonceTable_length]
    rw [hlen, e, ← List.append_nil (_ ++ tail)]
    refine slice?_mid hl ?_
    rw [← hl, fixedLen]

theorem encoded_fields : Fields P nonce plaintext (body P key fileObjectId nonce plaintext)
    (encoded P key fileObjectId nonce plaintext) := header_fields _

theorem size_lt {n : Nat} (h : count n < 2 ^ 32) : n < 2 ^ 52 := by
  have hle : n ≤ count n * chunkSize := le_ceilDiv_mul (by decide)
  have hc : chunkSize = 1048576 := rfl
  rw [hc] at hle
  omega

/-- Putting the chunks together again. -/
theorem flatMap_chunk :
    (List.range (count plaintext.length)).flatMap (chunk chunkSize plaintext) = plaintext :=
  flatMap_chunks (by decide) plaintext

end Layout

end Format
end FileCrypto
end Yuance
