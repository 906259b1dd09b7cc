import Yuance.Lib.Bytes

/-!
# Yuance.Lib.Text

Text as Rust's `str` handles it: UTF-8 bytes, `trim`, `split` at a character, and Base64 of both
alphabets.

* `fromUtf8_utf8`: decoding what was encoded.
* `Base64.decode_encode`: the same for Base64, with and without padding.
-/

namespace Lib

/-! ## UTF-8 -/

/-- `value.as_bytes()`. -/
def utf8 (s : String) : Bytes := s.toList.flatMap String.utf8EncodeChar

/-- `String::from_utf8`. -/
def fromUtf8 (b : Bytes) : Option String :=
  (ByteArray.utf8Decode? b.toByteArray).map fun chars => String.ofList chars.toList

theorem fromUtf8_utf8 (s : String) : fromUtf8 (utf8 s) = some s := by
  have h : (utf8 s).toByteArray = s.toList.utf8Encode := rfl
  rw [fromUtf8, h, List.utf8Decode?_utf8Encode]
  simp

theorem utf8_injective {s t : String} (h : utf8 s = utf8 t) : s = t := by
  have hdecoded : fromUtf8 (utf8 s) = fromUtf8 (utf8 t) := congrArg fromUtf8 h
  rw [fromUtf8_utf8, fromUtf8_utf8] at hdecoded
  exact Option.some.inj hdecoded

/-! ## Whitespace and pieces -/

/-- The code points with the property `White_Space`. -/
def isWhitespace (c : Char) : Bool :=
  (9 ≤ c.toNat && c.toNat ≤ 13) || c.toNat = 32 || c.toNat = 0x85 || c.toNat = 0xA0
    || c.toNat = 0x1680 || (0x2000 ≤ c.toNat && c.toNat ≤ 0x200A) || c.toNat = 0x2028
    || c.toNat = 0x2029 || c.toNat = 0x202F || c.toNat = 0x205F || c.toNat = 0x3000

/-- `value.trim()`. -/
def trim (s : String) : String :=
  String.ofList (((s.toList.dropWhile isWhitespace).reverse.dropWhile isWhitespace).reverse)

theorem trim_trim (s : String) : trim (trim s) = trim s := by
  have hform : ∀ t, trim t =
      String.ofList ((t.toList.dropWhile isWhitespace).rdropWhile isWhitespace) := fun _ => rfl
  rw [hform (trim s), hform s, String.toList_ofList]
  -- what is left has no whitespace in front
  have hfront : ((s.toList.dropWhile isWhitespace).rdropWhile isWhitespace).dropWhile isWhitespace =
      (s.toList.dropWhile isWhitespace).rdropWhile isWhitespace := by
    rw [List.dropWhile_eq_self_iff]
    intro hpos
    have hkept := List.rdropWhile_prefix isWhitespace (s.toList.dropWhile isWhitespace)
    have hne : s.toList.dropWhile isWhitespace ≠ [] :=
      List.ne_nil_of_length_pos (Nat.lt_of_lt_of_le hpos hkept.length_le)
    have hhead := List.head_dropWhile_not isWhitespace hne
    rw [List.head_eq_getElem, ← hkept.getElem hpos] at hhead
    rw [hhead]
    exact Bool.false_ne_true
  rw [hfront, List.rdropWhile_idempotent]

/-- A text without whitespace has none around it. -/
theorem trim_eq_self {s : String} (h : ∀ c ∈ s.toList, isWhitespace c = false) : trim s = s := by
  have hstays : ∀ l : List Char, (∀ c ∈ l, isWhitespace c = false) → l.dropWhile isWhitespace = l := by
    intro l hl
    rw [List.dropWhile_eq_self_iff]
    intro hpos
    rw [hl _ (List.getElem_mem hpos)]
    exact Bool.false_ne_true
  unfold trim
  rw [hstays _ h, hstays _ fun c hc => h c (List.mem_reverse.mp hc), List.reverse_reverse,
    String.ofList_toList]

/-- A text that begins with something else than whitespace. -/
theorem trim_ne_empty {s : String} {c : Char} (hs : s.toList.head? = some c)
    (hc : isWhitespace c = false) : trim s ≠ "" := by
  intro hblank
  obtain ⟨rest, hs⟩ := List.head?_eq_some_iff.mp hs
  have hnil := congrArg String.toList hblank
  unfold trim at hnil
  rw [String.toList_ofList, hs, List.dropWhile_cons_of_neg (by rw [hc]; exact Bool.false_ne_true)]
    at hnil
  have hall := List.dropWhile_eq_nil_iff.mp (List.reverse_eq_nil_iff.mp hnil) c
    (List.mem_reverse.mpr List.mem_cons_self)
  rw [hc] at hall
  cases hall

/-- `value.len()`. -/
def byteLen (s : String) : Nat := (utf8 s).length

theorem byteLen_append (s t : String) : byteLen (s ++ t) = byteLen s + byteLen t := by
  unfold byteLen utf8
  rw [String.toList_append, List.flatMap_append, List.length_append]

/-- `value.strip_prefix(head)`. -/
def stripHead (head s : String) : Option String :=
  if head.toList.isPrefixOf s.toList then some (String.ofList (s.toList.drop head.toList.length))
  else none

theorem stripHead_eq_some {head s rest : String} :
    stripHead head s = some rest ↔ s.toList = head.toList ++ rest.toList := by
  unfold stripHead
  constructor
  · intro h
    split at h
    · rename_i hhead
      obtain ⟨tail, htail⟩ := List.isPrefixOf_iff_prefix.mp hhead
      rw [← Option.some.inj h, String.toList_ofList, ← htail, List.drop_left]
    · cases h
  · intro h
    rw [if_pos (List.isPrefixOf_iff_prefix.mpr ⟨rest.toList, h.symm⟩), h, List.drop_left,
      String.ofList_toList]

/-- `value.starts_with(head)`. -/
def hasHead (head s : String) : Bool := head.toList.isPrefixOf s.toList

/-- `value.contains(c)`. -/
def hasChar (c : Char) (s : String) : Bool := s.toList.contains c

def asciiLower (c : Char) : Char :=
  if 'A' ≤ c && c ≤ 'Z' then Char.ofNat (c.toNat + 32) else c

/-- `value.to_ascii_lowercase()`. -/
def toAsciiLowercase (s : String) : String := String.ofList (s.toList.map asciiLower)

/-- `value.chars().count()`. -/
def charCount (s : String) : Nat := s.toList.length

/-- The characters before and behind a byte offset, unless it falls inside a character. -/
def splitAtByte : Nat → List Char → Option (List Char × List Char)
  | 0, l => some ([], l)
  | _ + 1, [] => none
  | n + 1, c :: l =>
    if c.utf8Size ≤ n + 1 then (splitAtByte (n + 1 - c.utf8Size) l).map fun p => (c :: p.1, p.2)
    else none

theorem splitAtByte_append (front back : List Char) :
    splitAtByte (front.flatMap String.utf8EncodeChar).length (front ++ back) = some (front, back) := by
  induction front with
  | nil =>
    unfold splitAtByte
    cases back <;> rfl
  | cons c front ih =>
    have hpos : 0 < c.utf8Size := Char.utf8Size_pos c
    obtain ⟨n, hn⟩ := Nat.exists_eq_succ_of_ne_zero (Nat.pos_iff_ne_zero.mp hpos)
    rw [List.flatMap_cons, List.length_append, String.length_utf8EncodeChar, hn,
      Nat.succ_eq_add_one, Nat.add_right_comm, List.cons_append, splitAtByte, if_pos (by omega)]
    have hrest : n + (front.flatMap String.utf8EncodeChar).length + 1 - c.utf8Size =
        (front.flatMap String.utf8EncodeChar).length := by omega
    rw [hrest, ih, Option.map_some]

/-- The text before the first `c` and the text behind it, if `c` occurs. -/
def splitOnce (c : Char) (l : List Char) : List Char × Option (List Char) :=
  match l.dropWhile (· ≠ c) with
  | [] => (l, none)
  | _ :: rest => (l.takeWhile (· ≠ c), some rest)

theorem splitOnce_append {c : Char} {l : List Char} (h : c ∉ l) (rest : List Char) :
    splitOnce c (l ++ c :: rest) = (l, some rest) := by
  have hall : ∀ x ∈ l, decide (x ≠ c) = true := by
    intro x hx
    rw [decide_eq_true_eq]
    rintro rfl
    exact h hx
  have hd : (l ++ c :: rest).dropWhile (· ≠ c) = c :: rest := by
    rw [List.dropWhile_append_of_pos hall]
    simp
  have ht : (l ++ c :: rest).takeWhile (· ≠ c) = l := by
    rw [List.takeWhile_append_of_pos hall]
    simp
  simp only [splitOnce, hd, ht]

theorem splitOnce_eq_some {c : Char} {l first last : List Char} :
    splitOnce c l = (first, some last) ↔ l = first ++ c :: last ∧ c ∉ first := by
  constructor
  · intro h
    unfold splitOnce at h
    split at h
    · cases h
    · rename_i b rest hdrop
      obtain ⟨rfl, hlast⟩ := Prod.mk.inj h
      obtain rfl := Option.some.inj hlast
      have hb : b = c := by
        have hnot := List.head?_dropWhile_not (fun x => decide (x ≠ c)) l
        rw [hdrop] at hnot
        simpa using hnot
      subst hb
      refine ⟨?_, ?_⟩
      · rw [← hdrop, List.takeWhile_append_dropWhile]
      · intro hmem
        have := List.mem_takeWhile_imp hmem
        simp at this
  · rintro ⟨rfl, hfirst⟩
    exact splitOnce_append hfirst last

/-! ## Base64 -/

/-- A pattern that is a list of character classes, matched against the whole text. -/
def matchClasses : List (Char → Bool) → List Char → Bool
  | [], [] => true
  | p :: ps, c :: cs => p c && matchClasses ps cs
  | _, _ => false

def isHexIgnoreCase (c : Char) : Bool :=
  c.isDigit || ('a' ≤ c && c ≤ 'f') || ('A' ≤ c && c ≤ 'F')

/-- The pattern of the transaction ids: a UUID of version 1 to 5, in either case. -/
def uuidPattern : List (Char → Bool) :=
  List.replicate 8 isHexIgnoreCase ++ [(· == '-')] ++ List.replicate 4 isHexIgnoreCase
    ++ [(· == '-'), fun c => '1' ≤ c && c ≤ '5'] ++ List.replicate 3 isHexIgnoreCase
    ++ [(· == '-'), fun c => ['8', '9', 'a', 'b', 'A', 'B'].contains c]
    ++ List.replicate 3 isHexIgnoreCase ++ [(· == '-')] ++ List.replicate 12 isHexIgnoreCase

def isUuid (s : String) : Bool := matchClasses uuidPattern s.toList

namespace Base64

/-- An alphabet and whether the text is padded to groups of four. -/
structure Engine where
  alphabet : List Char
  pad : Bool

def common : List Char :=
  "ABCDEFGHIJKLMNOPQRSTUVWXYZabcdefghijklmnopqrstuvwxyz0123456789".toList

def standard : Engine := { alphabet := common ++ ['+', '/'], pad := true }
def urlSafeNoPad : Engine := { alphabet := common ++ ['-', '_'], pad := false }

def Engine.digit (e : Engine) (n : Nat) : Char := e.alphabet.getD n 'A'

def Engine.value? (e : Engine) (c : Char) : Option Nat :=
  match e.alphabet.idxOf? c with
  | some n => some n
  | none => none

def Engine.padding (e : Engine) (n : Nat) : List Char :=
  if e.pad then List.replicate n '=' else []

def encodeChars (e : Engine) : Bytes → List Char
  | [] => []
  | [a] => e.digit (a.toNat / 4) :: e.digit (a.toNat % 4 * 16) :: e.padding 2
  | [a, b] => e.digit (a.toNat / 4) :: e.digit (a.toNat % 4 * 16 + b.toNat / 16)
      :: e.digit (b.toNat % 16 * 4) :: e.padding 1
  | a :: b :: c :: rest => e.digit (a.toNat / 4) :: e.digit (a.toNat % 4 * 16 + b.toNat / 16)
      :: e.digit (b.toNat % 16 * 4 + c.toNat / 64) :: e.digit (c.toNat % 64)
      :: encodeChars e rest

/-- The byte whose high and low parts are given. -/
def byte (n : Nat) : UInt8 := UInt8.ofNat n

/-- Canonical decoding: the bits that a short last group leaves over are zero. -/
def decodeGroup (e : Engine) : List Char → Option Bytes
  | [] => some []
  | [p, q] =>
    match e.value? p, e.value? q with
    | some p, some q => if q % 16 = 0 then some [byte (p * 4 + q / 16)] else none
    | _, _ => none
  | [p, q, r] =>
    match e.value? p, e.value? q, e.value? r with
    | some p, some q, some r =>
      if r % 4 = 0 then some [byte (p * 4 + q / 16), byte (q % 16 * 16 + r / 4)] else none
    | _, _, _ => none
  | _ => none

def decodeChars (e : Engine) : List Char → Option Bytes
  | p :: q :: r :: s :: rest =>
    match e.value? p, e.value? q, e.value? r, e.value? s with
    | some p, some q, some r, some s =>
      (decodeChars e rest).map fun tail =>
        byte (p * 4 + q / 16) :: byte (q % 16 * 16 + r / 4) :: byte (r % 4 * 64 + s) :: tail
    | some _, some _, some _, none =>
      -- one padding character ends the text
      if e.pad ∧ s = '=' ∧ rest = [] then decodeGroup e [p, q, r] else none
    | some _, some _, none, none =>
      if e.pad ∧ r = '=' ∧ s = '=' ∧ rest = [] then decodeGroup e [p, q] else none
    | _, _, _, _ => none
  | last => if e.pad ∧ last ≠ [] then none else decodeGroup e last

def encode (e : Engine) (b : Bytes) : String := String.ofList (encodeChars e b)

def decode (e : Engine) (s : String) : Option Bytes := decodeChars e s.toList

/-- Distinct characters, none of them the padding. -/
structure Engine.Lawful (e : Engine) : Prop where
  value_digit : ∀ n, n < 64 → e.value? (e.digit n) = some n
  value_pad : e.value? '=' = none

theorem standard_lawful : standard.Lawful := by
  refine ⟨?_, by decide⟩
  have h : ∀ n : Fin 64, standard.value? (standard.digit n.val) = some n.val := by decide
  exact fun n hn => h ⟨n, hn⟩

theorem byte_eq {x : UInt8} {n : Nat} (h : n = x.toNat) : byte n = x := by
  rw [byte, h]
  exact UInt8.ofNat_toNat

/-- A last group of two characters. -/
theorem decodeChars_two {e : Engine} {p q : Char} {x y : Nat} (hp : e.value? p = some x)
    (hq : e.value? q = some y) (hy : y % 16 = 0) (hpad : e.value? '=' = none) :
    decodeChars e (p :: q :: e.padding 2) = some [byte (x * 4 + y / 16)] := by
  cases he : e.pad with
  | false => simp [Engine.padding, he, decodeChars, decodeGroup, hp, hq, hy]
  | true => simp [Engine.padding, he, decodeChars, decodeGroup, hp, hq, hy, hpad]

/-- A last group of three characters. -/
theorem decodeChars_three {e : Engine} {p q r : Char} {x y z : Nat} (hp : e.value? p = some x)
    (hq : e.value? q = some y) (hr : e.value? r = some z) (hz : z % 4 = 0)
    (hpad : e.value? '=' = none) :
    decodeChars e (p :: q :: r :: e.padding 1)
      = some [byte (x * 4 + y / 16), byte (y % 16 * 16 + z / 4)] := by
  cases he : e.pad with
  | false => simp [Engine.padding, he, decodeChars, decodeGroup, hp, hq, hr, hz]
  | true => simp [Engine.padding, he, decodeChars, decodeGroup, hp, hq, hr, hz, hpad]

theorem decodeChars_encodeChars {e : Engine} (h : e.Lawful) (b : Bytes) :
    decodeChars e (encodeChars e b) = some b := by
  fun_induction encodeChars e b with
  | case1 => simp [decodeChars, decodeGroup]
  | case2 a =>
    have ha := a.toNat_lt
    have h1 := h.value_digit (a.toNat / 4) (by omega)
    have h2 := h.value_digit (a.toNat % 4 * 16) (by omega)
    rw [decodeChars_two h1 h2 (by omega) h.value_pad, byte_eq (x := a) (by omega)]
  | case3 a b =>
    have ha := a.toNat_lt
    have hb := b.toNat_lt
    have h1 := h.value_digit (a.toNat / 4) (by omega)
    have h2 := h.value_digit (a.toNat % 4 * 16 + b.toNat / 16) (by omega)
    have h3 := h.value_digit (b.toNat % 16 * 4) (by omega)
    rw [decodeChars_three h1 h2 h3 (by omega) h.value_pad, byte_eq (x := a) (by omega),
      byte_eq (x := b) (by omega)]
  | case4 a b c rest ih =>
    have ha := a.toNat_lt
    have hb := b.toNat_lt
    have hc := c.toNat_lt
    have h1 := h.value_digit (a.toNat / 4) (by omega)
    have h2 := h.value_digit (a.toNat % 4 * 16 + b.toNat / 16) (by omega)
    have h3 := h.value_digit (b.toNat % 16 * 4 + c.toNat / 64) (by omega)
    have h4 := h.value_digit (c.toNat % 64) (by omega)
    have e1 : byte (a.toNat / 4 * 4 + (a.toNat % 4 * 16 + b.toNat / 16) / 16) = a :=
      byte_eq (by omega)
    have e2 : byte ((a.toNat % 4 * 16 + b.toNat / 16) % 16 * 16
        + (b.toNat % 16 * 4 + c.toNat / 64) / 4) = b := byte_eq (by omega)
    have e3 : byte ((b.toNat % 16 * 4 + c.toNat / 64) % 4 * 64 + c.toNat % 64) = c :=
      byte_eq (by omega)
    simp only [decodeChars, h1, h2, h3, h4, ih, Option.map_some, e1, e2, e3]

theorem decode_encode {e : Engine} (h : e.Lawful) (b : Bytes) : decode e (encode e b) = some b := by
  simp [decode, encode, decodeChars_encodeChars h]

/-- A character that is neither a digit nor the padding does not occur in an encoded text. -/
theorem not_mem_encodeChars {e : Engine} {c : Char} (hd : ∀ n, e.digit n ≠ c) (hp : c ≠ '=')
    (b : Bytes) : c ∉ encodeChars e b := by
  have hpad : ∀ n, c ∉ e.padding n := by
    intro n
    unfold Engine.padding
    split
    · exact fun hm => hp (List.eq_of_mem_replicate hm)
    · exact List.not_mem_nil
  fun_induction encodeChars e b with
  | case1 => exact List.not_mem_nil
  | case2 a => simp [hpad, (hd _).symm]
  | case3 a b => simp [hpad, (hd _).symm]
  | case4 a b c rest ih => simp [ih, (hd _).symm]

/-- The characters of an encoded text. -/
theorem encodeChars_all {e : Engine} {p : Char → Bool} (hd : ∀ n, p (e.digit n) = true)
    (hp : p '=' = true) (b : Bytes) : (encodeChars e b).all p = true := by
  have hpad : ∀ n, (e.padding n).all p = true := by
    intro n
    unfold Engine.padding
    split
    · rw [List.all_eq_true]
      intro c hc
      rw [List.eq_of_mem_replicate hc]
      exact hp
    · rfl
  fun_induction encodeChars e b with
  | case1 => rfl
  | case2 a => simp [hpad, hd]
  | case3 a b => simp [hpad, hd]
  | case4 a b c rest ih => simp [ih, hd]

theorem encode_ne_empty {e : Engine} {b : Bytes} (h : b ≠ []) : encode e b ≠ "" := by
  intro hc
  have hl : encodeChars e b = [] := by
    have := congrArg String.toList hc
    simpa [encode] using this
  match b, h with
  | [_], _ => simp [encodeChars] at hl
  | [_, _], _ => simp [encodeChars] at hl
  | _ :: _ :: _ :: _, _ => simp [encodeChars] at hl

theorem standard_digit_not_space (n : Nat) : isWhitespace (standard.digit n) = false := by
  unfold Engine.digit
  rw [List.getD_eq_getElem?_getD]
  cases h : standard.alphabet[n]? with
  | none => decide
  | some c =>
    have hm := List.mem_of_getElem? h
    have hall : standard.alphabet.all (fun c => !isWhitespace c) = true := by decide
    have hc := List.all_eq_true.mp hall c hm
    simpa using hc

/-- An encoded text has no space around it. -/
theorem trim_encode (b : Bytes) : trim (encode standard b) = encode standard b := by
  apply trim_eq_self
  intro c hc
  rw [encode, String.toList_ofList] at hc
  have hall := encodeChars_all (e := standard) (p := fun c => !isWhitespace c)
    (fun n => by rw [standard_digit_not_space]; rfl) (by decide) b
  simpa using List.all_eq_true.mp hall c hc

theorem standard_digit_ne_colon (n : Nat) : standard.digit n ≠ ':' := by
  unfold Engine.digit
  rw [List.getD_eq_getElem?_getD]
  cases h : standard.alphabet[n]? with
  | none => simp
  | some c =>
    have hm := List.mem_of_getElem? h
    have hall : standard.alphabet.all (fun c => c != ':') = true := by decide
    have := List.all_eq_true.mp hall c hm
    simpa using this

end Base64

end Lib
