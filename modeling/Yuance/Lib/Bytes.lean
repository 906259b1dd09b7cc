import Yuance.Lib.Except

/-!
# Yuance.Lib.Bytes

Byte strings: big-endian integers, slices as Rust (`slice?`) and JavaScript (`subarray`) take
them, writes into a preallocated buffer, hexadecimal text, and the loop that walks over the
chunks of a byte string with a running offset (`forChunks`).

* `ofBE_toBE`: reading back a big-endian integer.
* `slice?_mid`, `subarray_mid`: cutting a segment out of a concatenation.
* `writeAt_zeros`: filling a zeroed buffer from left to right is concatenation.
* `forChunks_ok`: a chunk loop whose body succeeds at every offset yields the concatenation.
-/

namespace Lib

/-- A byte string. -/
abbrev Bytes := List UInt8

/-! ## Big-endian integers -/

/-- The low `w` bytes of `n`, most significant first. -/
def toBE : Nat → Nat → Bytes
  | 0, _ => []
  | w + 1, n => toBE w (n / 256) ++ [UInt8.ofNat n]

/-- The number a byte string denotes, most significant byte first. -/
def ofBE (b : Bytes) : Nat := b.foldl (fun acc x => acc * 256 + x.toNat) 0

@[simp] theorem toBE_length (w n : Nat) : (toBE w n).length = w := by
  induction w generalizing n with
  | zero => rfl
  | succ w ih => simp [toBE, ih]

theorem ofBE_append_singleton (b : Bytes) (x : UInt8) :
    ofBE (b ++ [x]) = ofBE b * 256 + x.toNat := by
  simp [ofBE, List.foldl_append]

theorem ofBE_toBE (w n : Nat) : ofBE (toBE w n) = n % 256 ^ w := by
  induction w generalizing n with
  | zero => simp [toBE, ofBE, Nat.mod_one]
  | succ w ih =>
    have hx : (UInt8.ofNat n).toNat = n % 256 := by simp
    rw [toBE, ofBE_append_singleton, ih, hx, Nat.pow_succ, Nat.mul_comm (256 ^ w) 256,
      Nat.mod_mul]
    omega

theorem ofBE_toBE_of_lt {w n : Nat} (h : n < 256 ^ w) : ofBE (toBE w n) = n := by
  rw [ofBE_toBE, Nat.mod_eq_of_lt h]

theorem ofBE_lt (b : Bytes) : ofBE b < 256 ^ b.length := by
  induction b using List.reverseRecOn with
  | nil => decide
  | append_singleton b x ih =>
    have hx := x.toNat_lt
    rw [ofBE_append_singleton, List.length_append, List.length_singleton, Nat.pow_succ]
    omega

/-- An `i64` reinterpreted as `u64`. -/
def asU64 (z : Int) : Nat := (z % 2 ^ 64).toNat

/-! ## Slices -/

/-- `bytes.get(a..b)`: nothing when the range is reversed or leaves the slice. -/
def slice? (bs : Bytes) (a b : Nat) : Option Bytes :=
  if a ≤ b ∧ b ≤ bs.length then some ((bs.drop a).take (b - a)) else none

/-- `bytes.subarray(a, b)`: both ends are clamped to the array. -/
def subarray (bs : Bytes) (a b : Nat) : Bytes := (bs.drop a).take (b - a)

theorem subarray_mid {pre seg post : Bytes} {a b : Nat} (ha : a = pre.length)
    (hb : b = pre.length + seg.length) : subarray (pre ++ seg ++ post) a b = seg := by
  subst ha hb
  simp [subarray, List.append_assoc]

theorem slice?_mid {pre seg post : Bytes} {a b : Nat} (ha : a = pre.length)
    (hb : b = pre.length + seg.length) : slice? (pre ++ seg ++ post) a b = some seg := by
  have hle : a ≤ b ∧ b ≤ (pre ++ seg ++ post).length := by
    subst ha hb
    simp only [List.length_append]
    omega
  rw [slice?, if_pos hle]
  exact congrArg some (subarray_mid ha hb)

theorem slice?_eq_subarray {bs : Bytes} {a b : Nat} (hab : a ≤ b) (hb : b ≤ bs.length) :
    slice? bs a b = some (subarray bs a b) := by
  simp [slice?, subarray, hab, hb]

theorem subarray_of_slice? {bs x : Bytes} {a b : Nat} (h : slice? bs a b = some x) :
    subarray bs a b = x := by
  unfold slice? at h
  split at h
  · exact Option.some.inj h
  · cases h

theorem slice?_eq_some {bs x : Bytes} {a b : Nat} :
    slice? bs a b = some x ↔ a ≤ b ∧ b ≤ bs.length ∧ subarray bs a b = x := by
  unfold slice? subarray
  split
  · rename_i h
    simp [h]
  · rename_i h
    simp only [reduceCtorEq, false_iff]
    rintro ⟨hab, hb, _⟩
    exact h ⟨hab, hb⟩

theorem slice?_length {bs x : Bytes} {a b : Nat} (h : slice? bs a b = some x) : x.length = b - a := by
  obtain ⟨hab, hb, rfl⟩ := slice?_eq_some.mp h
  simp only [subarray, List.length_take, List.length_drop]
  omega

/-- A part of a part. -/
theorem subarray_subarray {bs : Bytes} {lo hi a b : Nat} (hb : lo + b ≤ hi) :
    subarray (subarray bs lo hi) a b = subarray bs (lo + a) (lo + b) := by
  unfold subarray
  rw [List.drop_take, List.drop_drop, List.take_take, Nat.add_sub_add_left, Nat.min_eq_left]
  omega

/-- A slice of what is behind `k` bytes. -/
theorem slice?_drop {bs x : Bytes} {k a b : Nat} (hk : k ≤ bs.length)
    (h : slice? (bs.drop k) a b = some x) : slice? bs (k + a) (k + b) = some x := by
  obtain ⟨hab, hb, rfl⟩ := slice?_eq_some.mp h
  rw [List.length_drop] at hb
  rw [slice?_eq_subarray (by omega) (by omega)]
  unfold subarray
  rw [List.drop_drop, Nat.add_sub_add_left]

/-- A slice that lies in a part of the bytes is a slice of that part. -/
theorem slice?_subarray {bs x : Bytes} {a b lo hi : Nat} (h : slice? bs a b = some x)
    (ha : lo ≤ a) (hb : b ≤ hi) : slice? (subarray bs lo hi) (a - lo) (b - lo) = some x := by
  obtain ⟨hab, hbound, hx⟩ := slice?_eq_some.mp h
  have hlen : b - lo ≤ (subarray bs lo hi).length := by
    simp only [subarray, List.length_take, List.length_drop]
    omega
  rw [slice?_eq_subarray (by omega) hlen, ← hx]
  unfold subarray
  rw [List.drop_take, List.drop_drop, List.take_take, Nat.add_sub_cancel' ha]
  congr 2
  omega

theorem subarray_length {bs : Bytes} {a b : Nat} (hb : b ≤ bs.length) :
    (subarray bs a b).length = b - a := by
  simp only [subarray, List.length_take, List.length_drop]
  omega

/-! ## Writing into a buffer -/

/-- `target.set(source, offset)` on a buffer that is long enough. -/
def writeAt (buf : Bytes) (off : Nat) (src : Bytes) : Bytes :=
  buf.take off ++ src ++ buf.drop (off + src.length)

/-- A freshly allocated buffer. -/
def zeros (n : Nat) : Bytes := List.replicate n 0

@[simp] theorem zeros_length (n : Nat) : (zeros n).length = n := by simp [zeros]

/-- Writing right behind the filled part of a zeroed buffer extends the filled part. -/
theorem writeAt_zeros {pre src : Bytes} {off k k' : Nat} (ho : off = pre.length)
    (hk : k = src.length + k') :
    writeAt (pre ++ zeros k) off src = pre ++ src ++ zeros k' := by
  subst ho hk
  simp [writeAt, zeros]

/-! ## Chunks -/

/-- `n.div_ceil(size)`: the number of chunks of size `size` that `n` bytes fill. -/
def ceilDiv (n size : Nat) : Nat := if n % size > 0 then n / size + 1 else n / size

theorem ceilDiv_zero_left (size : Nat) : ceilDiv 0 size = 0 := by
  rw [ceilDiv, Nat.zero_mod, Nat.zero_div, if_neg (by omega)]

theorem le_ceilDiv_mul {n size : Nat} (hs : 0 < size) : n ≤ ceilDiv n size * size := by
  have h := Nat.div_add_mod n size
  have hm := Nat.mod_lt n hs
  rw [Nat.mul_comm] at h
  rw [ceilDiv]
  split
  · rw [Nat.succ_mul]
    omega
  · omega

/-- A chunk index below the count starts inside the data. -/
theorem mul_lt_of_lt_ceilDiv {n size i : Nat} (hi : i < ceilDiv n size) :
    i * size < n := by
  have h := Nat.div_add_mod n size
  rw [Nat.mul_comm] at h
  rw [ceilDiv] at hi
  split at hi
  · have := Nat.mul_le_mul_right size (show i ≤ n / size by omega)
    omega
  · have := Nat.mul_le_mul_right size (show i + 1 ≤ n / size by omega)
    rw [Nat.succ_mul] at this
    rcases Nat.eq_zero_or_pos size with h0 | h0
    · rw [h0, Nat.div_zero] at hi
      omega
    · omega

/-- Chunk `i` of `bs`, the last one possibly short. -/
def chunk (size : Nat) (bs : Bytes) (i : Nat) : Bytes := subarray bs (i * size) (i * size + size)

/-- `bs.chunks(size)`: the chunks of `bs` in order. -/
def chunks (size : Nat) (bs : Bytes) : List Bytes :=
  (List.range (ceilDiv bs.length size)).map (chunk size bs)

theorem chunk_length (size : Nat) (bs : Bytes) (i : Nat) :
    (chunk size bs i).length = min size (bs.length - i * size) := by
  simp [chunk, subarray]

/-- The first `k` chunks together are the first `k * size` bytes. -/
theorem flatMap_chunk_range (size : Nat) (bs : Bytes) (k : Nat) :
    (List.range k).flatMap (chunk size bs) = bs.take (k * size) := by
  induction k with
  | zero => simp
  | succ k ih =>
    rw [List.range_succ, List.flatMap_append, ih]
    have hc : chunk size bs k = (bs.drop (k * size)).take size := by
      simp [chunk, subarray]
    rw [List.flatMap_singleton, hc, Nat.succ_mul, List.take_add]

theorem flatMap_chunks {size : Nat} (hs : 0 < size) (bs : Bytes) :
    (List.range (ceilDiv bs.length size)).flatMap (chunk size bs) = bs := by
  rw [flatMap_chunk_range]
  exact List.take_of_length_le (le_ceilDiv_mul hs)

/-! ## The chunk loop -/

section Loop

variable {ε : Type}

/-- `for index in 0..count { out.extend(body(index, &mut offset)?) }`: the output and the offset
after the loop. -/
def forChunks (body : Nat → Nat → Except ε (Bytes × Nat)) (count offset : Nat) :
    Except ε (Bytes × Nat) :=
  (List.range count).foldlM
    (fun acc index => do
      let (piece, next) ← body index acc.2
      pure (acc.1 ++ piece, next)) ([], offset)

/-- A loop whose body yields `piece i` and moves the offset from `off i` to `off (i + 1)` yields
all pieces and ends at `off count`. -/
theorem forChunks_ok {body : Nat → Nat → Except ε (Bytes × Nat)} {piece : Nat → Bytes}
    {off : Nat → Nat} (count : Nat)
    (h : ∀ i, i < count → body i (off i) = .ok (piece i, off (i + 1))) :
    forChunks body count (off 0) = .ok ((List.range count).flatMap piece, off count) := by
  have hloop := @foldlM_range_ok ε (Bytes × Nat)
    (fun acc index => do
      let (piece, next) ← body index acc.2
      pure (acc.1 ++ piece, next))
    (fun i => ((List.range i).flatMap piece, off i)) count
  apply hloop
  intro i hi
  simp only [h i hi, ok_bind, pure_ok, List.range_succ, List.flatMap_append,
    List.flatMap_singleton]

theorem forChunks_succ {body : Nat → Nat → Except ε (Bytes × Nat)} (k o : Nat) :
    forChunks body (k + 1) o = (forChunks body k o >>= fun acc =>
      body k acc.2 >>= fun next => pure (acc.1 ++ next.1, next.2)) := by
  simp only [forChunks, List.range_succ, List.foldlM_append, List.foldlM_cons, List.foldlM_nil,
    bind_pure]

/-- A loop that returns has returned from its body at every index. -/
theorem forChunks_step {body : Nat → Nat → Except ε (Bytes × Nat)} {k o : Nat} {out : Bytes × Nat}
    (h : forChunks body k o = .ok out) {i : Nat} (hi : i < k) :
    ∃ offset next, body i offset = .ok next := by
  induction k generalizing out with
  | zero => omega
  | succ k ih =>
    rw [forChunks_succ] at h
    obtain ⟨acc, hacc, h⟩ := bind_eq_ok.mp h
    obtain ⟨next, hnext, _⟩ := bind_eq_ok.mp h
    rcases Nat.lt_succ_iff_lt_or_eq.mp hi with hlt | rfl
    · exact ih hacc hlt
    · exact ⟨_, _, hnext⟩

/-- What holds of the pieces of a loop whose offset before index `i` is `off i`. -/
theorem forChunks_pieces {body : Nat → Nat → Except ε (Bytes × Nat)} {off : Nat → Nat}
    {Q : Nat → Bytes → Prop} {k : Nat} {out : Bytes × Nat} (h : forChunks body k (off 0) = .ok out)
    (hstep : ∀ i next, i < k → body i (off i) = .ok next → Q i next.1 ∧ next.2 = off (i + 1)) :
    ∃ piece : Nat → Bytes, (∀ i, i < k → Q i (piece i)) ∧
      out = ((List.range k).flatMap piece, off k) := by
  induction k generalizing out with
  | zero =>
    refine ⟨fun _ => [], fun i hi => absurd hi (Nat.not_lt_zero i), ?_⟩
    exact (Except.ok.inj h).symm
  | succ k ih =>
    rw [forChunks_succ] at h
    obtain ⟨acc, hacc, h⟩ := bind_eq_ok.mp h
    obtain ⟨next, hnext, h⟩ := bind_eq_ok.mp h
    obtain ⟨piece, hpiece, rfl⟩ := ih hacc fun i next hi => hstep i next (by omega)
    obtain ⟨hq, hoff⟩ := hstep k next (by omega) hnext
    refine ⟨Function.update piece k next.1, ?_, ?_⟩
    · intro i hi
      rcases Nat.lt_succ_iff_lt_or_eq.mp hi with hlt | rfl
      · rw [Function.update_of_ne (by omega)]
        exact hpiece i hlt
      · rw [Function.update_self]
        exact hq
    · have hsame : (List.range k).flatMap (Function.update piece k next.1)
          = (List.range k).flatMap piece := by
        refine List.flatMap_congr fun i hi => ?_
        rw [Function.update_of_ne]
        have := List.mem_range.mp hi
        omega
      rw [List.range_succ, List.flatMap_append, hsame, List.flatMap_singleton, Function.update_self,
        ← hoff]
      exact (Except.ok.inj h).symm

/-- A loop that puts out no more than it reads puts out no more than there is. -/
theorem forChunks_length_le {body : Nat → Nat → Except ε (Bytes × Nat)} {bound k o : Nat}
    {out : Bytes × Nat} (h : forChunks body k o = .ok out) (ho : o ≤ bound)
    (hstep : ∀ i offset next, i < k → offset ≤ bound → body i offset = .ok next →
      offset + next.1.length ≤ next.2 ∧ next.2 ≤ bound) :
    o + out.1.length ≤ out.2 ∧ out.2 ≤ bound := by
  induction k generalizing out with
  | zero =>
    obtain rfl := Except.ok.inj h
    exact ⟨Nat.le_refl _, ho⟩
  | succ k ih =>
    rw [forChunks_succ] at h
    obtain ⟨acc, hacc, h⟩ := bind_eq_ok.mp h
    obtain ⟨next, hnext, h⟩ := bind_eq_ok.mp h
    obtain rfl := Except.ok.inj h
    obtain ⟨hle, hbound⟩ := ih hacc fun i offset next hi => hstep i offset next (by omega)
    obtain ⟨hle', hbound'⟩ := hstep k acc.2 next (by omega) hbound hnext
    refine ⟨?_, hbound'⟩
    rw [List.length_append]
    omega

/-- Two bodies that agree at the offsets that a loop comes to make the same loop. -/
theorem forChunks_congr {body body' : Nat → Nat → Except ε (Bytes × Nat)} {Inv : Nat → Prop}
    {k o : Nat} (ho : Inv o)
    (hsame : ∀ i offset, i < k → Inv offset → body i offset = body' i offset)
    (hkeeps : ∀ i offset next, i < k → Inv offset → body i offset = .ok next → Inv next.2) :
    forChunks body k o = forChunks body' k o
      ∧ ∀ out, forChunks body k o = .ok out → Inv out.2 := by
  induction k with
  | zero => exact ⟨rfl, fun out h => (Except.ok.inj h) ▸ ho⟩
  | succ k ih =>
    obtain ⟨heq, hinv⟩ := ih (fun i offset hi => hsame i offset (by omega))
      fun i offset next hi => hkeeps i offset next (by omega)
    rw [forChunks_succ, forChunks_succ, ← heq]
    cases hacc : forChunks body k o with
    | error e =>
      rw [error_bind]
      exact ⟨rfl, fun out h => (by cases h)⟩
    | ok acc =>
      rw [ok_bind, ok_bind, ← hsame k acc.2 (by omega) (hinv acc hacc)]
      refine ⟨rfl, fun out h => ?_⟩
      obtain ⟨next, hnext, h⟩ := bind_eq_ok.mp h
      obtain rfl := Except.ok.inj h
      exact hkeeps k acc.2 next (by omega) (hinv acc hacc) hnext

/-- A loop fails where its body first fails. -/
theorem forChunks_eq_error {body : Nat → Nat → Except ε (Bytes × Nat)} {k o : Nat} {e : ε} :
    forChunks body k o = .error e ↔
      ∃ m acc, m < k ∧ forChunks body m o = .ok acc ∧ body m acc.2 = .error e := by
  induction k with
  | zero =>
    constructor
    · intro h
      cases h
    · rintro ⟨m, _, hm, _⟩
      omega
  | succ k ih =>
    rw [forChunks_succ]
    constructor
    · intro h
      cases hacc : forChunks body k o with
      | error e' =>
        rw [hacc, error_bind] at h
        obtain ⟨m, acc, hm, hrest⟩ := ih.mp (hacc.trans h)
        exact ⟨m, acc, by omega, hrest⟩
      | ok acc =>
        refine ⟨k, acc, Nat.lt_succ_self k, hacc, ?_⟩
        rw [hacc, ok_bind] at h
        cases hnext : body k acc.2 with
        | error e' =>
          rw [hnext, error_bind] at h
          exact congrArg Except.error (Except.error.inj h)
        | ok next =>
          rw [hnext, ok_bind, pure_ok] at h
          cases h
    · rintro ⟨m, acc, hm, hacc, hfails⟩
      rcases Nat.lt_succ_iff_lt_or_eq.mp hm with hlt | rfl
      · rw [ih.mpr ⟨m, acc, hlt, hacc, hfails⟩, error_bind]
      · rw [hacc, ok_bind, hfails, error_bind]

end Loop

/-! ## Hexadecimal text -/

def hexDigits : List Char := "0123456789abcdef".toList

/-- The lower-case digit of `n < 16`. -/
def hexDigit (n : Nat) : Char := hexDigits.getD n '0'

/-- The value of a hexadecimal digit of either case. -/
def hexVal? (c : Char) : Option Nat :=
  if '0'.toNat ≤ c.toNat ∧ c.toNat ≤ '9'.toNat then some (c.toNat - '0'.toNat)
  else if 'a'.toNat ≤ c.toNat ∧ c.toNat ≤ 'f'.toNat then some (c.toNat - 'a'.toNat + 10)
  else if 'A'.toNat ≤ c.toNat ∧ c.toNat ≤ 'F'.toNat then some (c.toNat - 'A'.toNat + 10)
  else none

def hexChars (b : Bytes) : List Char :=
  b.flatMap fun x => [hexDigit (x.toNat / 16), hexDigit (x.toNat % 16)]

/-- `hex::encode`, `Buffer.toString("hex")`. -/
def hexEncode (b : Bytes) : String := String.ofList (hexChars b)

/-- `hex::decode`: two digits a byte, nothing for an odd length or another character. -/
def hexDecodeChars : List Char → Option Bytes
  | [] => some []
  | [_] => none
  | hi :: lo :: rest =>
    match hexVal? hi, hexVal? lo, hexDecodeChars rest with
    | some h, some l, some bs => some (UInt8.ofNat (16 * h + l) :: bs)
    | _, _, _ => none

def hexDecode (s : String) : Option Bytes := hexDecodeChars s.toList

/-- `Buffer.from(text, "hex")`: decodes up to the first pair that is not hexadecimal. -/
def bufferFromHexChars : List Char → Bytes
  | hi :: lo :: rest =>
    match hexVal? hi, hexVal? lo with
    | some h, some l => UInt8.ofNat (16 * h + l) :: bufferFromHexChars rest
    | _, _ => []
  | _ => []

def bufferFromHex (s : String) : Bytes := bufferFromHexChars s.toList

theorem hexVal?_hexDigit : ∀ n : Fin 16, hexVal? (hexDigit n.val) = some n.val := by decide

theorem hexVal?_hexDigit_of_lt {n : Nat} (h : n < 16) : hexVal? (hexDigit n) = some n :=
  hexVal?_hexDigit ⟨n, h⟩

theorem hexPair (x : UInt8) : UInt8.ofNat (16 * (x.toNat / 16) + x.toNat % 16) = x := by
  rw [Nat.div_add_mod]
  exact UInt8.ofNat_toNat

theorem hexDecodeChars_hexChars (b : Bytes) : hexDecodeChars (hexChars b) = some b := by
  induction b with
  | nil => rfl
  | cons x xs ih =>
    have hx := x.toNat_lt
    have hh := hexVal?_hexDigit_of_lt (n := x.toNat / 16) (by omega)
    have hl := hexVal?_hexDigit_of_lt (n := x.toNat % 16) (by omega)
    have hc : hexChars (x :: xs)
        = hexDigit (x.toNat / 16) :: hexDigit (x.toNat % 16) :: hexChars xs := rfl
    rw [hc]
    simp only [hexDecodeChars, hh, hl, ih, hexPair]

theorem hexDecode_hexEncode (b : Bytes) : hexDecode (hexEncode b) = some b := by
  simp [hexDecode, hexEncode, hexDecodeChars_hexChars]

theorem hexEncode_inj {a b : Bytes} : hexEncode a = hexEncode b ↔ a = b := by
  constructor
  · intro h
    have := congrArg hexDecode h
    simpa [hexDecode_hexEncode] using this
  · rintro rfl; rfl

theorem bufferFromHexChars_hexChars (b : Bytes) : bufferFromHexChars (hexChars b) = b := by
  induction b with
  | nil => rfl
  | cons x xs ih =>
    have hx := x.toNat_lt
    have hh := hexVal?_hexDigit_of_lt (n := x.toNat / 16) (by omega)
    have hl := hexVal?_hexDigit_of_lt (n := x.toNat % 16) (by omega)
    have hc : hexChars (x :: xs)
        = hexDigit (x.toNat / 16) :: hexDigit (x.toNat % 16) :: hexChars xs := rfl
    rw [hc]
    simp only [bufferFromHexChars, hh, hl, ih, hexPair]

theorem bufferFromHex_hexEncode (b : Bytes) : bufferFromHex (hexEncode b) = b := by
  simp [bufferFromHex, hexEncode, bufferFromHexChars_hexChars]

/-- The bytes of an ASCII text. -/
def ascii (s : String) : Bytes := s.toList.map fun c => UInt8.ofNat c.toNat

end Lib
