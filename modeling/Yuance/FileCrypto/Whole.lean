import Yuance.FileCrypto.Interop
import Yuance.FileCrypto.Ranges

/-!
# Yuance.FileCrypto.Whole

Which byte strings the decoders of the file format accept. The header is not sealed, so that a decoder
learns only from its own checks whether a file was cut off or lengthened; the command-line client
checks the sizes against each other, the others do not.

* `Format.Raw`: what stands in a header, whatever that is.
* `Format.Whole`: the sizes and the count of a header go with each other and with the file.
* `Cli.decryptFile_of_whole`, `Cli.whole_of_decryptFile`: the client opens the whole files only.
* `sizesHold_iff`, `clientAccepts_iff`: what is to be shown of another decoder.
-/

namespace Yuance
namespace FileCrypto

open Lib

namespace Format

/-- What stands in the header of a file. -/
structure Raw (c : Bytes) (chunkSize size count : Nat) (sha : Bytes) : Prop where
  table : fixedLen + count * 12 ≤ c.length
  magic : c.take 13 = magic
  version : (slice? c 13 17).map ofBE = some 1
  chunks : (slice? c 17 21).map ofBE = some chunkSize
  positive : chunkSize ≠ 0
  total : (slice? c 21 29).map ofBE = some size
  digest : slice? c 29 61 = some sha
  counted : (slice? c 61 65).map ofBE = some count

def chunkLen (chunkSize size i : Nat) : Nat := min (size - i * chunkSize) chunkSize

/-- Where sealed chunk `i` begins behind the header. -/
def chunkOffset (chunkSize size i : Nat) : Nat := min size (i * chunkSize) + i * 16

/-- The header tells the count that its sizes call for, and the file ends behind the last chunk. -/
structure Whole (c : Bytes) (chunkSize size count : Nat) : Prop where
  fits : count = ceilDiv size chunkSize
  ends : c.length = fixedLen + count * 12 + (size + count * 16)

/-- Either associated data opens a chunk. -/
def opened (P : Prims) (key : Key) (fileObjectId : Int) (i : Nat) (nonce : Nonce) (sealedChunk : Bytes) :
    Option Bytes :=
  (P.aead.decrypt key nonce (aad fileObjectId i) sealedChunk).orElse fun _ =>
    P.aead.decrypt key nonce (aadWith fileObjectId i 0) sealedChunk

/-- Sealed chunk `i` of the file opens with its nonce. -/
def Opens (P : Prims) (key : Key) (fileObjectId : Int) (c : Bytes) (chunkSize size count i : Nat)
    (piece : Bytes) : Prop :=
  ∃ (nonce : Nonce) (sealedChunk : Bytes),
    slice? c (fixedLen + i * 12) (fixedLen + i * 12 + 12) = some nonce.val ∧
    slice? c (fixedLen + count * 12 + chunkOffset chunkSize size i)
      (fixedLen + count * 12 + chunkOffset chunkSize size i + (chunkLen chunkSize size i + 16))
      = some sealedChunk ∧
    opened P key fileObjectId i nonce sealedChunk = some piece

section Sizes

variable {P : Prims} {key : Key} {fileObjectId : Int} {c sha piece : Bytes}
  {chunkSize size count i : Nat}

theorem chunkOffset_zero : chunkOffset chunkSize size 0 = 0 := by
  unfold chunkOffset
  omega

theorem chunkOffset_succ : chunkOffset chunkSize size (i + 1)
    = chunkOffset chunkSize size i + (chunkLen chunkSize size i + 16) := by
  unfold chunkOffset chunkLen
  rw [Nat.succ_mul, Nat.succ_mul]
  omega

theorem read_lt {a b n : Nat} (h : (slice? c a b).map ofBE = some n) : n < 256 ^ (b - a) := by
  obtain ⟨bytes, hbytes, rfl⟩ := Option.map_eq_some_iff.mp h
  have hlt := ofBE_lt bytes
  rwa [slice?_length hbytes] at hlt

theorem Raw.count_lt (raw : Raw c chunkSize size count sha) : count < 2 ^ 32 := read_lt raw.counted

theorem Whole.size_le (whole : Whole c chunkSize size count) (hpos : chunkSize ≠ 0) :
    size ≤ count * chunkSize := by
  rw [whole.fits]
  exact le_ceilDiv_mul (Nat.pos_of_ne_zero hpos)

theorem Whole.length_offset (whole : Whole c chunkSize size count) (hpos : chunkSize ≠ 0) :
    c.length = fixedLen + count * 12 + chunkOffset chunkSize size count := by
  rw [whole.ends, chunkOffset, Nat.min_eq_left (whole.size_le hpos)]

theorem opened_length (hsized : P.aead.Sized) {nonce : Nonce} {sealedChunk : Bytes}
    (h : opened P key fileObjectId i nonce sealedChunk = some piece) :
    sealedChunk.length = piece.length + 16 := by
  unfold opened at h
  cases hfirst : P.aead.decrypt key nonce (aad fileObjectId i) sealedChunk with
  | some msg =>
    rw [hfirst] at h
    obtain rfl := Option.some.inj h
    exact hsized _ _ _ _ _ hfirst
  | none =>
    rw [hfirst] at h
    exact hsized _ _ _ _ _ h

theorem Opens.length (hsized : P.aead.Sized)
    (h : Opens P key fileObjectId c chunkSize size count i piece) :
    piece.length = chunkLen chunkSize size i := by
  obtain ⟨nonce, sealedChunk, _, hslice, hopened⟩ := h
  have hlen := opened_length hsized hopened
  rw [slice?_length hslice] at hlen
  omega

/-- The pieces of the chunks before `k` together. -/
theorem pieces_length (hsized : P.aead.Sized) {piece : Nat → Bytes} {k : Nat}
    (h : ∀ i, i < k → Opens P key fileObjectId c chunkSize size count i (piece i)) :
    ((List.range k).flatMap piece).length = min size (k * chunkSize) := by
  induction k with
  | zero => simp
  | succ k ih =>
    rw [List.range_succ, List.flatMap_append, List.length_append, ih fun i hi => h i (by omega),
      List.flatMap_singleton, (h k (by omega)).length hsized, chunkLen, Nat.succ_mul]
    omega

theorem pieces_length_le (hsized : P.aead.Sized) {piece : Nat → Bytes}
    (h : ∀ i, i < count → Opens P key fileObjectId c chunkSize size count i (piece i)) :
    ((List.range count).flatMap piece).length ≤ c.length := by
  rw [pieces_length hsized h]
  cases count with
  | zero => omega
  | succ k =>
    obtain ⟨_, _, _, hslice, _⟩ := h k (by omega)
    obtain ⟨_, hend, _⟩ := slice?_eq_some.mp hslice
    rw [Nat.add_assoc, ← chunkOffset_succ] at hend
    unfold chunkOffset at hend
    omega

/-- What a loop opens at an offset: as much of a chunk of `len` bytes as there is. -/
def OpensAt (P : Prims) (key : Key) (fileObjectId : Int) (c : Bytes) (len i offset : Nat)
    (next : Bytes × Nat) : Prop :=
  ∃ (nonce : Nonce) (sealedChunk : Bytes), sealedChunk = subarray c offset (offset + (len + 16)) ∧
    slice? c (fixedLen + i * 12) (fixedLen + i * 12 + 12) = some nonce.val ∧
    opened P key fileObjectId i nonce sealedChunk = some next.1 ∧
    next.2 = offset + sealedChunk.length

section Loop

variable {ε : Type} {step : Nat → Nat → Except ε (Bytes × Nat)} {out : Bytes × Nat}
  {len : Nat → Nat}

theorem loop_length_le (hsized : P.aead.Sized) (htable : fixedLen + count * 12 ≤ c.length)
    (hstep : ∀ i offset next, i < count → step i offset = .ok next →
      OpensAt P key fileObjectId c (len i) i offset next)
    (h : forChunks step count (fixedLen + count * 12) = .ok out) : out.1.length ≤ c.length := by
  obtain ⟨hle, hbound⟩ := forChunks_length_le h htable (by
    intro i offset next hi hoffset hnext
    obtain ⟨nonce, sealedChunk, hsealed, _, hopened, hmoved⟩ := hstep i offset next hi hnext
    have hlen := opened_length hsized hopened
    have hshort : sealedChunk.length ≤ c.length - offset := by
      rw [hsealed]
      simp only [subarray, List.length_take, List.length_drop]
      omega
    omega)
  omega

/-- In a whole file every chunk is there in full. -/
theorem loop_pieces (hpos : chunkSize ≠ 0) (whole : Whole c chunkSize size count)
    (hlen : ∀ i, len i = chunkLen chunkSize size i)
    (hstep : ∀ i offset next, i < count → step i offset = .ok next →
      OpensAt P key fileObjectId c (len i) i offset next)
    (h : forChunks step count (fixedLen + count * 12) = .ok out) :
    ∃ piece : Nat → Bytes,
      (∀ i, i < count → Opens P key fileObjectId c chunkSize size count i (piece i)) ∧
        out.1 = (List.range count).flatMap piece := by
  have hfile := whole.length_offset hpos
  obtain ⟨piece, hpiece, hout⟩ := @forChunks_pieces _ step
    (fun i => fixedLen + count * 12 + chunkOffset chunkSize size i)
    (fun i piece => Opens P key fileObjectId c chunkSize size count i piece) count out
    (by rw [chunkOffset_zero]; exact h) (by
    intro i next hi hnext
    obtain ⟨nonce, sealedChunk, hsealed, hnonce, hopened, hmoved⟩ := hstep i _ next hi hnext
    have hroom : chunkOffset chunkSize size (i + 1) ≤ chunkOffset chunkSize size count := by
      have := Nat.mul_le_mul_right chunkSize (show i + 1 ≤ count from hi)
      unfold chunkOffset
      omega
    rw [chunkOffset_succ] at hroom ⊢
    rw [hlen i] at hsealed
    have hfull : sealedChunk.length = chunkLen chunkSize size i + 16 := by
      rw [hsealed, subarray_length (by omega), Nat.add_sub_cancel_left]
    refine ⟨⟨nonce, sealedChunk, hnonce, ?_, hopened⟩, ?_⟩
    · rw [hsealed]
      exact slice?_eq_subarray (by omega) (by omega)
    · rw [hmoved, hfull]
      omega)
  exact ⟨piece, hpiece, congrArg Prod.fst hout⟩

end Loop

/-- A length that is counted with rounded offsets, as JavaScript counts it. -/
theorem roundedLen_eq (hsize : size < 2 ^ 53) :
    (if toNumber (i * chunkSize) ≥ size then 0 else min (size - toNumber (i * chunkSize)) chunkSize)
      = chunkLen chunkSize size i := by
  unfold chunkLen
  by_cases hexact : i * chunkSize < 2 ^ 53
  · rw [toNumber_of_lt hexact]
    split
    · omega
    · rfl
  · have hround := le_toNumber (Nat.le_of_not_lt hexact)
    rw [if_pos (by omega)]
    omega

end Sizes

end Format

/-! ## The command-line client -/

namespace Cli

variable {P : Prims} {key : Key} {fileObjectId : Int} {c sha : Bytes} {chunkSize size count : Nat}
  {shaText : String}

theorem readUInt_eq_ok {width offset value : Nat} :
    readUInt width c offset = .ok value ↔
      (slice? c offset (offset + width)).map ofBE = some value := by
  unfold readUInt
  cases hslice : slice? c offset (offset + width) with
  | none =>
    rw [okOr_none, error_bind]
    simp
  | some bytes =>
    rw [okOr_some, ok_bind, pure_ok]
    simp

theorem decryptStep_opens (hsized : P.aead.Sized) {i : Nat} {piece : Bytes} (hi : i < 2 ^ 32)
    (h : Format.Opens P key fileObjectId c Format.chunkSize size count i piece) :
    decryptStep P c fileObjectId key size Format.fixedLen i
      (Format.fixedLen + count * 12 + Format.chunkOffset Format.chunkSize size i)
      = .ok (piece, Format.fixedLen + count * 12
          + Format.chunkOffset Format.chunkSize size (i + 1)) := by
  have hlen := h.length hsized
  obtain ⟨nonce, sealedChunk, hnonce, hslice, hopened⟩ := h
  have hi32 : asU32 i = i := Nat.mod_eq_of_lt hi
  have hplain : plaintextChunkLen size i = Format.chunkLen Format.chunkSize size i := rfl
  have hguard : ¬ piece.length ≠ Format.chunkLen Format.chunkSize size i := not_not_intro hlen
  unfold decryptStep
  dsimp only
  rw [hplain, hslice, okOr_some, ok_bind, nonceLength_eq, hnonce, okOr_some, ok_bind, asNonce_val,
    okOr_some, ok_bind, hi32, show (P.aead.decrypt key nonce (chunkAad fileObjectId i) sealedChunk).orElse
      (fun _ => P.aead.decrypt key nonce (legacyChunkAad fileObjectId i) sealedChunk)
      = some piece from hopened, okOr_some, ok_bind, rejectIf_neg hguard, ok_bind, pure_ok,
    Format.chunkOffset_succ, Nat.add_assoc]

theorem expectedSha_same (hsha : sha.length = 32)
    (htext : shaText = "" ∨ shaText = hexEncode sha) :
    ∃ expected, expectedSha shaText = .ok expected ∧ ∀ e ∈ expected, e = sha := by
  rcases htext with rfl | rfl
  · exact ⟨none, rfl, fun e he => (by cases he)⟩
  · exact ⟨some sha, expectedSha_hexEncode sha hsha, fun e he => (Option.some.inj he).symm⟩

/-- A whole file whose chunks open is accepted. -/
theorem decryptFile_of_whole (hsized : P.aead.Sized)
    (raw : Format.Raw c Format.chunkSize size count sha)
    (whole : Format.Whole c Format.chunkSize size count) (hid : 1 ≤ fileObjectId)
    {piece : Nat → Bytes}
    (hopens : ∀ i, i < count →
      Format.Opens P key fileObjectId c Format.chunkSize size count i (piece i))
    (hsha : P.sha.hash ((List.range count).flatMap piece) = sha)
    (htext : shaText = "" ∨ shaText = hexEncode sha) :
    decryptFile P c fileObjectId key size shaText = .ok ((List.range count).flatMap piece) := by
  have hm : magic.length = 13 := by decide
  have hcount : count = Format.count size := whole.fits
  have hlt := raw.count_lt
  have hsize := Format.size_lt (hcount ▸ hlt)
  have htotal := encryptedTotalSize_of_count (hcount ▸ hlt)
  have hends := whole.ends
  have hle := whole.size_le raw.positive
  have hfixed : headerFixedLength = Format.fixedLen := by decide
  have hlength := slice?_length raw.digest
  obtain ⟨expected, hexpected, hsame⟩ := expectedSha_same hlength htext
  have hloop := @forChunks_ok _ _ piece (fun i => Format.fixedLen + count * 12
    + Format.chunkOffset Format.chunkSize size i) count
    (fun i hi => decryptStep_opens hsized (show i < 2 ^ 32 by omega) (hopens i hi))
  rw [Format.chunkOffset_zero, ← whole.length_offset raw.positive] at hloop
  have hout : ((List.range count).flatMap piece).length = size := by
    rw [Format.pieces_length hsized hopens]
    omega
  refine decryptFile_of_header hid (by omega) hexpected hsame ?_ ?_ raw.magic ?_ ?_ ?_ raw.digest ?_ ?_
    ?_ hout hsha
  · rw [htotal, hends, hcount]
  · rw [hfixed, hends]
    omega
  · exact readUInt_eq_ok.mpr raw.version
  · exact readUInt_eq_ok.mpr raw.chunks
  · exact readUInt_eq_ok.mpr raw.total
  · rw [chunkCount_eq, ← hcount]
    exact readUInt_eq_ok.mpr raw.counted
  · rw [chunkCount_eq, ← hcount, nonceLength_eq]
    exact raw.table
  · rw [chunkCount_eq, ← hcount, nonceLength_eq]
    exact hloop

/-- What is accepted is a whole file of the size that it is told. -/
theorem whole_of_decryptFile {n : Nat} {out : Bytes}
    (raw : Format.Raw c Format.chunkSize size count sha)
    (h : decryptFile P c fileObjectId key n shaText = .ok out) :
    n = size ∧ Format.Whole c Format.chunkSize size count ∧ 1 ≤ fileObjectId := by
  unfold decryptFile at h
  dsimp only at h
  obtain ⟨_, hid, h⟩ := bind_eq_ok.mp h
  obtain ⟨expected, _, h⟩ := bind_eq_ok.mp h
  obtain ⟨_, hlength, h⟩ := bind_eq_ok.mp h
  obtain ⟨version, _, h⟩ := bind_eq_ok.mp h
  obtain ⟨headerChunkSize, _, h⟩ := bind_eq_ok.mp h
  obtain ⟨headerSize, htotal, h⟩ := bind_eq_ok.mp h
  obtain ⟨headerSha, _, h⟩ := bind_eq_ok.mp h
  obtain ⟨headerCount, hcounted, h⟩ := bind_eq_ok.mp h
  obtain ⟨_, hfields, _⟩ := bind_eq_ok.mp h
  have hid := rejectIf_eq_ok.mp hid
  have hlength := rejectIf_eq_ok.mp hlength
  have hfields := rejectIf_eq_ok.mp hfields
  have hsize : headerSize = size :=
    Option.some.inj ((readUInt_eq_ok.mp htotal).symm.trans raw.total)
  have hcount : headerCount = count :=
    Option.some.inj ((readUInt_eq_ok.mp hcounted).symm.trans raw.counted)
  simp only [not_or, ne_eq, not_not] at hfields hlength
  obtain ⟨_, _, hn, hfits, _⟩ := hfields
  rw [hsize] at hn
  subst hn
  rw [hcount, chunkCount_eq] at hfits
  have hlt := raw.count_lt
  rw [hfits] at hlt
  have htotal := encryptedTotalSize_of_count hlt
  refine ⟨rfl, ⟨hfits, ?_⟩, by omega⟩
  rw [hlength.1, htotal, hfits]

end Cli

/-! ## What is said of a decoder -/

/-- The sizes that the header tells are those of the plaintext, and the file ends at `ends`. -/
def SizesHold (c out : Bytes) (chunkSize size count ends : Nat) : Prop :=
  size = out.length ∧ count = ceilDiv out.length chunkSize ∧ c.length = ends

/-- The command-line client opens the file, told the size of the header and the digest or none. -/
def ClientAccepts (P : Prims) (key : Key) (fileObjectId : Int) (c out : Bytes) (size : Nat) : Prop :=
  ∀ shaText, shaText = "" ∨ shaText = hexEncode (P.sha.hash out) →
    ∃ opened, Cli.decryptFile P c fileObjectId key size shaText = .ok opened

/-- A number that is below the rounded ones is exact. -/
theorem exact_of_toNumber {n m : Nat} (h : m = toNumber n) (hm : m < 2 ^ 53) : n = m := by
  by_cases hexact : n < 2 ^ 53
  · rw [h, toNumber_of_lt hexact]
  · have := le_toNumber (Nat.le_of_not_lt hexact)
    omega

section Verdict

variable {P : Prims} {key : Key} {fileObjectId : Int} {c out sha : Bytes}
  {chunkSize size rawSize count ends : Nat}

theorem sizesHold_iff (hsized : P.aead.Sized) (raw : Format.Raw c chunkSize rawSize count sha)
    (hout : out.length ≤ c.length)
    (hends : size ≤ c.length →
      ends = Format.fixedLen + count * 12 + Format.chunkOffset chunkSize size count)
    (hpieces : Format.Whole c chunkSize size count → ∃ piece : Nat → Bytes,
      (∀ i, i < count → Format.Opens P key fileObjectId c chunkSize size count i (piece i)) ∧
        out = (List.range count).flatMap piece) :
    SizesHold c out chunkSize size count ends ↔ Format.Whole c chunkSize size count := by
  constructor
  · rintro ⟨rfl, hcount, hlength⟩
    have hle : out.length ≤ count * chunkSize := by
      rw [hcount]
      exact le_ceilDiv_mul (Nat.pos_of_ne_zero raw.positive)
    refine ⟨hcount, ?_⟩
    rw [hlength, hends hout, Format.chunkOffset, Nat.min_eq_left hle]
  · intro whole
    have hle := whole.size_le raw.positive
    have hfile := whole.length_offset raw.positive
    have hsize : size ≤ c.length := by
      rw [whole.ends]
      omega
    obtain ⟨piece, hopens, hsame⟩ := hpieces whole
    have hlength : size = out.length := by
      rw [hsame, Format.pieces_length hsized hopens, Nat.min_eq_left hle]
    exact ⟨hlength, hlength ▸ whole.fits, hfile.trans (hends hsize).symm⟩

theorem clientAccepts_iff (hsized : P.aead.Sized)
    (raw : Format.Raw c chunkSize rawSize count sha) (hchunk : chunkSize = Format.chunkSize)
    (hraw : size ≤ c.length → rawSize = size) (hsha : P.sha.hash out = sha)
    (hpieces : Format.Whole c chunkSize size count → ∃ piece : Nat → Bytes,
      (∀ i, i < count → Format.Opens P key fileObjectId c chunkSize size count i (piece i)) ∧
        out = (List.range count).flatMap piece) :
    ClientAccepts P key fileObjectId c out size ↔
      Format.Whole c chunkSize size count ∧ 1 ≤ fileObjectId := by
  subst hchunk
  constructor
  · intro haccepts
    obtain ⟨opened, hopened⟩ := haccepts "" (.inl rfl)
    obtain ⟨rfl, whole, hid⟩ := Cli.whole_of_decryptFile raw hopened
    exact ⟨whole, hid⟩
  · rintro ⟨whole, hid⟩ shaText htext
    have hsize : size ≤ c.length := by
      rw [whole.ends]
      omega
    obtain ⟨piece, hopens, hsame⟩ := hpieces whole
    rw [hraw hsize] at raw
    rw [hsha] at htext
    rw [hsame] at hsha
    exact ⟨_, Cli.decryptFile_of_whole hsized raw whole hid hopens hsha htext⟩

end Verdict

/-! ## The server -/

namespace Server

variable {P : Prims} {key : Key} {fileObjectId : Int} {c : Bytes}

theorem readUInt_eq_ok {width cursor : Nat} {read : Nat × Nat} :
    readUInt width c cursor = .ok read ↔
      (slice? c cursor (cursor + width)).map ofBE = some read.1 ∧ read.2 = cursor + width := by
  unfold readUInt
  cases hslice : slice? c cursor (cursor + width) with
  | none =>
    rw [okOr_none, error_bind]
    simp
  | some bytes =>
    rw [okOr_some, ok_bind, pure_ok]
    simp [Prod.ext_iff, eq_comm]

/-- The nonces of a table of `k` times twelve bytes. -/
theorem chunksExact_get {k : Nat} {bytes : Bytes} (hlen : bytes.length = k * 12) {i : Nat}
    (hi : i < k) :
    ∃ nonce, (chunksExact k bytes)[i]? = some nonce ∧
      subarray bytes (i * 12) (i * 12 + 12) = nonce.val := by
  induction k generalizing bytes i with
  | zero => omega
  | succ k ih =>
    have htake : (bytes.take nonceLen).length = 12 := by
      rw [List.length_take, nonceLen]
      omega
    rw [chunksExact, dif_pos htake]
    cases i with
    | zero => exact ⟨_, rfl, by simp [subarray, nonceLen]⟩
    | succ i =>
      have hrest : (bytes.drop nonceLen).length = k * 12 := by
        rw [List.length_drop, nonceLen]
        omega
      obtain ⟨nonce, hget, hnonce⟩ := ih hrest (i := i) (by omega)
      refine ⟨nonce, by rw [List.getElem?_cons_succ, hget], ?_⟩
      rw [← hnonce]
      unfold subarray
      rw [List.drop_drop, nonceLen, show 12 + i * 12 = (i + 1) * 12 by omega]
      congr 1
      omega

theorem chunksExact_length_le (k : Nat) (bytes : Bytes) : (chunksExact k bytes).length ≤ k := by
  induction k generalizing bytes with
  | zero => exact Nat.le_refl 0
  | succ k ih =>
    unfold chunksExact
    split
    · exact Nat.succ_le_succ (ih _)
    · exact Nat.zero_le _

theorem parseHeader_raw {header : FileEncryptionHeader} {body : Bytes}
    (h : parseHeader c = .ok (header, body)) :
    Format.Raw c header.chunkSize header.plaintextByteSize header.chunkCount header.plaintextSha256
      ∧ body = c.drop (Format.fixedLen + header.chunkCount * 12)
      ∧ (∀ i, i < header.chunkCount → ∃ nonce, header.nonces[i]? = some nonce ∧
          slice? c (Format.fixedLen + i * 12) (Format.fixedLen + i * 12 + 12)
            = some nonce.val)
      ∧ header.nonces.length ≤ header.chunkCount := by
  have hm : fileMagic.length = 13 := by decide
  unfold parseHeader at h
  dsimp only at h
  rw [hm] at h
  obtain ⟨_, hguard, h⟩ := bind_eq_ok.mp h
  obtain ⟨⟨version, cursor₁⟩, hversion, h⟩ := bind_eq_ok.mp h
  obtain ⟨_, hversion', h⟩ := bind_eq_ok.mp h
  obtain ⟨⟨chunkSize, cursor₂⟩, hchunks, h⟩ := bind_eq_ok.mp h
  obtain ⟨_, hpositive, h⟩ := bind_eq_ok.mp h
  obtain ⟨⟨size, cursor₃⟩, htotal, h⟩ := bind_eq_ok.mp h
  obtain ⟨sha, hdigest, h⟩ := bind_eq_ok.mp h
  obtain ⟨⟨count, cursor₄⟩, hcounted, h⟩ := bind_eq_ok.mp h
  obtain ⟨nonceBytes, hnonces, h⟩ := bind_eq_ok.mp h
  obtain ⟨rest, hbody, h⟩ := bind_eq_ok.mp h
  obtain ⟨rfl, rfl⟩ := Prod.ext_iff.mp (Except.ok.inj h)
  obtain ⟨hversion, rfl⟩ := readUInt_eq_ok.mp hversion
  obtain ⟨hchunks, rfl⟩ := readUInt_eq_ok.mp hchunks
  obtain ⟨htotal, rfl⟩ := readUInt_eq_ok.mp htotal
  obtain ⟨hcounted, rfl⟩ := readUInt_eq_ok.mp hcounted
  have hdigest := okOr_eq_ok.mp hdigest
  have hnonces := okOr_eq_ok.mp hnonces
  have hbody := okOr_eq_ok.mp hbody
  have hguard := rejectIf_eq_ok.mp hguard
  have hone : version = 1 := not_not.mp (rejectIf_eq_ok.mp hversion')
  subst hone
  simp only [not_or, ne_eq, not_not] at hguard
  simp only [nonceLen, Nat.reduceAdd] at hversion hchunks htotal hdigest hcounted hnonces hbody ⊢
  have hfixed : Format.fixedLen = 65 := rfl
  obtain ⟨hfrom, _, rfl⟩ := slice?_eq_some.mp hbody
  refine ⟨⟨hfrom, hguard.2, hversion, hchunks, rejectIf_eq_ok.mp hpositive, htotal, hdigest,
    hcounted⟩, ?_, ?_, ?_⟩
  · unfold subarray
    rw [← List.length_drop, List.take_length]
    rfl
  · intro i hi
    have hlen := slice?_length hnonces
    rw [Nat.add_sub_cancel_left] at hlen
    obtain ⟨_, hto, hbytes⟩ := slice?_eq_some.mp hnonces
    obtain ⟨nonce, hget, hnonce⟩ := chunksExact_get hlen hi
    refine ⟨nonce, by rw [hlen, Nat.mul_div_cancel _ (by decide)]; exact hget, ?_⟩
    rw [slice?_eq_subarray (by omega) (by omega), ← hnonce, ← hbytes, hfixed,
      subarray_subarray (by omega), ← Nat.add_assoc]
  · have hlen := slice?_length hnonces
    rw [Nat.add_sub_cancel_left] at hlen
    have hle := chunksExact_length_le (nonceBytes.length / 12) nonceBytes
    rwa [hlen, Nat.mul_div_cancel _ (by decide)] at hle ⊢

theorem chunkPlaintextLen_eq (chunkSize size i : Nat) :
    chunkPlaintextLen chunkSize size i = Format.chunkLen chunkSize size i := by
  unfold chunkPlaintextLen Format.chunkLen
  dsimp only
  split
  · omega
  · rfl

theorem bodyOffsetForChunk_offset (header : FileEncryptionHeader) (i : Nat) :
    bodyOffsetForChunk header i
      = Format.chunkOffset header.chunkSize header.plaintextByteSize i := by
  induction i with
  | zero => rw [Format.chunkOffset_zero]; rfl
  | succ i ih =>
    rw [Format.chunkOffset_succ, ← ih, ← chunkPlaintextLen_eq]
    simp [bodyOffsetForChunk, List.range_succ, chunkCiphertextLen, tagLen]

theorem opened_of_decryptChunk {i : Nat} {nonce : Nonce} {sealedChunk piece : Bytes}
    (h : decryptChunk P key fileObjectId i nonce sealedChunk = .ok piece) :
    Format.opened P key fileObjectId i nonce sealedChunk = some piece := by
  unfold decryptChunk at h
  unfold Format.opened
  split at h
  · rename_i plaintext hplain
    obtain rfl := Except.ok.inj h
    rw [show P.aead.decrypt key nonce (Format.aad fileObjectId i) sealedChunk = some plaintext
      from hplain]
    rfl
  · rename_i hnone
    rw [show P.aead.decrypt key nonce (Format.aad fileObjectId i) sealedChunk = none from hnone]
    split at h
    · rename_i plaintext hplain
      obtain rfl := Except.ok.inj h
      exact hplain
    · cases h

/-- What the server returns are the pieces of the chunks. -/
theorem pieces_of_decrypted {out : Bytes} (h : decryptCiphertextFull P key fileObjectId c = .ok out) :
    ∃ header body piece, parseHeader c = .ok (header, body) ∧
      (∀ i, i < header.chunkCount → Format.Opens P key fileObjectId c header.chunkSize
        header.plaintextByteSize header.chunkCount i (piece i)) ∧
      out = (List.range header.chunkCount).flatMap piece ∧
      P.sha.hash out = header.plaintextSha256 := by
  unfold decryptCiphertextFull at h
  obtain ⟨⟨header, body⟩, hparse, h⟩ := bind_eq_ok.mp h
  obtain ⟨⟨plaintext, offset⟩, hloop, h⟩ := bind_eq_ok.mp h
  obtain ⟨_, hverify, h⟩ := bind_eq_ok.mp h
  obtain rfl := Except.ok.inj h
  have hsha := not_not.mp (rejectIf_eq_ok.mp hverify)
  obtain ⟨raw, hbody, hnonces, _⟩ := parseHeader_raw hparse
  rw [← @Format.chunkOffset_zero header.chunkSize header.plaintextByteSize] at hloop
  obtain ⟨piece, hpiece, hout⟩ := forChunks_pieces (Q := fun i piece =>
    Format.Opens P key fileObjectId c header.chunkSize header.plaintextByteSize header.chunkCount i
      piece) hloop (by
    intro i next hi hstep
    unfold decryptStep at hstep
    dsimp only at hstep
    obtain ⟨sealedChunk, hslice, hstep⟩ := bind_eq_ok.mp hstep
    obtain ⟨nonce, hnonce, hstep⟩ := bind_eq_ok.mp hstep
    obtain ⟨plaintext, hplain, hstep⟩ := bind_eq_ok.mp hstep
    obtain rfl := Except.ok.inj hstep
    obtain ⟨nonce', hget, htable⟩ := hnonces i hi
    obtain rfl : nonce' = nonce := Option.some.inj (hget.symm.trans (okOr_eq_ok.mp hnonce))
    have hslice := okOr_eq_ok.mp hslice
    rw [chunkPlaintextLen_eq, tagLen, Nat.add_assoc, hbody] at hslice
    have hslice := slice?_drop raw.table hslice
    rw [← Nat.add_assoc] at hslice
    refine ⟨⟨nonce', sealedChunk, htable, hslice, opened_of_decryptChunk hplain⟩, ?_⟩
    · rw [Format.chunkOffset_succ, ← chunkPlaintextLen_eq]
      rfl)
  obtain ⟨rfl, _⟩ := Prod.ext_iff.mp hout
  exact ⟨header, body, piece, hparse, hpiece, rfl, hsha⟩

end Server

end FileCrypto
end Yuance
