import Mathlib

/-!
# Yuance.Files.DownloadNames

The name that a download is suggested under: `sanitizeDownloadFilename` and `truncateUtf8` of
`desktop/src/files/download-target.mjs`. A string is its UTF-16 code units; the normalisation to NFC
is a parameter with its documented laws.

* `sanitizeDownloadFilename`: the name.
* `truncateUtf8_spec`: what is left of a name that is too long.
* `sanitize_safe_iff`: which strings get a name that is safe and that is its own name.
-/

namespace Yuance
namespace Files
namespace DownloadName

/-! ## Strings -/

abbrev JsString := List UInt16

def ofAscii (text : String) : JsString := text.toList.map fun c => c.toNat.toUInt16

def slash : UInt16 := 0x2f
def reverseSlash : UInt16 := 0x5c
def colon : UInt16 := 0x3a
def dot : UInt16 := 0x2e
def space : UInt16 := 0x20

/-- `[\u0000-\u001f\u007f]`. -/
def isRemoved (u : UInt16) : Bool := u < 0x20 || u == 0x7f

/-- The control characters that are not ASCII. -/
def isHighControl (u : UInt16) : Bool := 0x80 ≤ u && u < 0xa0

/-- What `String.prototype.trim` takes for white space or the end of a line. -/
def isWhiteSpace (u : UInt16) : Bool :=
  (0x09 ≤ u && u ≤ 0x0d) || u == space || u == 0xa0 || u == 0x1680 || (0x2000 ≤ u && u ≤ 0x200a)
    || u == 0x2028 || u == 0x2029 || u == 0x202f || u == 0x205f || u == 0x3000 || u == 0xfeff

/-- `value.normalize("NFC")`. Parts of a normalised string are normalised, and no control character
comes up in the normalisation. -/
structure Normalizer where
  nfc : JsString → JsString
  idempotent : ∀ s, nfc (nfc s) = nfc s
  part : ∀ s t, nfc s = s → t <:+: s → nfc t = t
  controls : ∀ s, ∀ u ∈ nfc s, isRemoved u → u ∈ s
  ascii : ∀ s, (∀ u ∈ s, u < 0x80) → nfc s = s

/-- The code points of a string; a surrogate without its other half stands for itself. -/
def codePoints : JsString → List JsString
  | [] => []
  | [u] => [[u]]
  | u :: v :: rest =>
    if (0xd800 ≤ u && u < 0xdc00) && (0xdc00 ≤ v && v < 0xe000) then [u, v] :: codePoints rest
    else [u] :: codePoints (v :: rest)

/-- The bytes of a code point in UTF-8. -/
def charSize : JsString → Nat
  | [u] => if u < 0x80 then 1 else if u < 0x800 then 2 else 3
  | _ => 4

/-- `Buffer.byteLength(value)`. -/
def byteLength (value : JsString) : Nat := ((codePoints value).map charSize).sum

/-- `path.posix.basename(path)`: the last segment, slashes behind it left out. -/
def basename (path : JsString) : JsString :=
  (path.rdropWhile (· == slash)).rtakeWhile (· != slash)

def trim (value : JsString) : JsString := (value.dropWhile isWhiteSpace).rdropWhile isWhiteSpace

/-! ## The name -/

def toLower (u : UInt16) : UInt16 := if 0x41 ≤ u ∧ u ≤ 0x5a then u + 0x20 else u

def deviceNames : List JsString :=
  ["con", "prn", "aux", "nul", "com1", "com2", "com3", "com4", "com5", "com6", "com7", "com8",
    "com9", "lpt1", "lpt2", "lpt3", "lpt4", "lpt5", "lpt6", "lpt7", "lpt8", "lpt9"].map ofAscii

/-- `WINDOWS_RESERVED.test(name)`: what stands before the first dot is the name of a device. -/
def isReserved (name : JsString) : Bool :=
  deviceNames.contains ((name.takeWhile (· != dot)).map toLower)

/-- The loop of `truncateUtf8`. -/
def truncateFrom (maxBytes : Nat) : List JsString → JsString → JsString
  | [], result => result
  | char :: chars, result =>
    if byteLength (result ++ char) > maxBytes then result
    else truncateFrom maxBytes chars (result ++ char)

def truncateUtf8 (value : JsString) (maxBytes : Nat) : JsString :=
  let result := truncateFrom maxBytes (codePoints value) []
  if result = [] then ofAscii "download" else result

/-- The last segment of the string, without what is left out at its ends. -/
def coreOf (N : Normalizer) (value : JsString) : JsString :=
  let normalized := (N.nfc value).filter fun u => !isRemoved u
  (trim (basename (normalized.map fun u => if u = reverseSlash then slash else u))).rdropWhile
    fun u => u == dot || u == space

/-- Names that are not used at all. -/
def isRefused (name : JsString) : Bool :=
  name == [] || name == [dot] || name == [dot, dot] || name.contains colon || isReserved name

/-- A name of at most 240 bytes. -/
def shorten (name : JsString) : JsString :=
  if byteLength name ≤ 240 then name else truncateUtf8 name 240

/-- `sanitizeDownloadFilename(value)` of a string. -/
def sanitizeDownloadFilename (N : Normalizer) (value : JsString) : JsString :=
  let name := coreOf N value
  if isRefused name then ofAscii "download" else shorten name

/-! ## What is wanted of it -/

structure Safe (name : JsString) : Prop where
  filled : name ≠ []
  short : byteLength name ≤ 240
  noControls : ∀ u ∈ name, isRemoved u = false ∧ isHighControl u = false
  noSeparators : slash ∉ name ∧ reverseSlash ∉ name ∧ colon ∉ name
  notDots : name ≠ [dot] ∧ name ≠ [dot, dot]
  notReserved : isReserved name = false
  ends : ∀ u ∈ name.getLast?, u ≠ dot ∧ u ≠ space

/-- The name is safe, and it is its own name. -/
def SafeAndStable (N : Normalizer) (value : JsString) : Prop :=
  Safe (sanitizeDownloadFilename N value) ∧
    sanitizeDownloadFilename N (sanitizeDownloadFilename N value) = sanitizeDownloadFilename N value

/-- What fits of a name: its longest first part, in whole characters, of at most 240 bytes. -/
structure LongestPart (name kept : JsString) : Prop where
  whole : ∃ k, kept = ((codePoints name).take k).flatten
  fits : byteLength kept ≤ 240
  longest : ∀ k, byteLength ((codePoints name).take k).flatten ≤ 240 →
    ((codePoints name).take k).flatten.length ≤ kept.length

/-- The last segment of the string is refused. Or what fits of it is still normalised, as it is
where no control character had to be removed; has no control characters that are not ASCII; and
does not end in white space or a dot. -/
def Fits (N : Normalizer) (value : JsString) : Prop :=
  isRefused (coreOf N value) = true ∨ ∀ kept, LongestPart (coreOf N value) kept →
    ((∀ u ∈ value, isRemoved u = false) ∨ N.nfc kept = kept) ∧
      (∀ u ∈ kept, isHighControl u = false) ∧
      ∀ u ∈ kept.getLast?, isWhiteSpace u = false ∧ u ≠ dot

/-! ## Truncation -/

section Truncation

variable {value name result : JsString} {maxBytes : Nat} {chars : List JsString} {char : JsString}

theorem flatten_codePoints (value : JsString) : (codePoints value).flatten = value := by
  fun_induction codePoints value with
  | case1 => rfl
  | case2 u => rfl
  | case3 u v rest _ ih => rw [List.flatten_cons, ih]; rfl
  | case4 u v rest _ ih => rw [List.flatten_cons, ih]; rfl

theorem length_of_mem_codePoints (h : char ∈ codePoints value) :
    1 ≤ char.length ∧ char.length ≤ 2 := by
  fun_induction codePoints value with
  | case1 => cases h
  | case2 u =>
    obtain rfl := List.mem_singleton.mp h
    exact ⟨Nat.le_refl 1, Nat.le_succ 1⟩
  | case3 u v rest _ ih =>
    rcases List.mem_cons.mp h with rfl | hrest
    · exact ⟨Nat.le_succ 1, Nat.le_refl 2⟩
    · exact ih hrest
  | case4 u v rest _ ih =>
    rcases List.mem_cons.mp h with rfl | hrest
    · exact ⟨Nat.le_refl 1, Nat.le_succ 1⟩
    · exact ih hrest

theorem charSize_singleton_le (u : UInt16) : charSize [u] ≤ 3 := by
  show (if u < 0x80 then 1 else if u < 0x800 then 2 else 3) ≤ 3
  split
  · omega
  · split
    · omega
    · omega

theorem byteLength_le (value : JsString) : byteLength value ≤ 3 * value.length := by
  unfold byteLength
  fun_induction codePoints value with
  | case1 => rfl
  | case2 u =>
    rw [List.map_singleton, List.sum_singleton]
    exact charSize_singleton_le u
  | case3 u v rest _ ih =>
    rw [List.map_cons, List.sum_cons, List.length_cons, List.length_cons]
    have hpair : charSize [u, v] = 4 := rfl
    omega
  | case4 u v rest _ ih =>
    rw [List.map_cons, List.sum_cons, List.length_cons]
    have := charSize_singleton_le u
    omega

theorem codePoints_cons (u : UInt16) (rest : JsString) :
    ∃ more chars, codePoints (u :: rest) = (u :: more) :: chars := by
  cases rest with
  | nil => exact ⟨[], [], rfl⟩
  | cons v rest =>
    unfold codePoints
    split
    · exact ⟨[v], _, rfl⟩
    · exact ⟨[], _, rfl⟩

/-- The first characters of a string are the characters of its first part. -/
theorem codePoints_take (value : JsString) (k : Nat) :
    codePoints ((codePoints value).take k).flatten = (codePoints value).take k := by
  fun_induction codePoints value generalizing k with
  | case1 =>
    rw [List.take_nil]
    rfl
  | case2 u =>
    cases k with
    | zero => rfl
    | succ k =>
      rw [List.take_succ_cons, List.take_nil]
      rfl
  | case3 u v rest hpair ih =>
    cases k with
    | zero => rfl
    | succ k =>
      rw [List.take_succ_cons, List.flatten_cons]
      show codePoints (u :: v :: ((codePoints rest).take k).flatten) = _
      rw [codePoints, if_pos hpair, ih]
  | case4 u v rest hpair ih =>
    cases k with
    | zero => rfl
    | succ k =>
      rw [List.take_succ_cons, List.flatten_cons]
      cases k with
      | zero => rfl
      | succ k =>
        obtain ⟨more, chars, hchars⟩ := codePoints_cons v rest
        have hrest := ih (k + 1)
        rw [hchars, List.take_succ_cons, List.flatten_cons] at hrest ⊢
        show codePoints (u :: v :: (more ++ (chars.take k).flatten)) = _
        rw [codePoints, if_neg hpair]
        exact congrArg (List.cons [u]) hrest

theorem byteLength_take (value : JsString) (k : Nat) :
    byteLength ((codePoints value).take k).flatten =
      (((codePoints value).take k).map charSize).sum := by
  unfold byteLength
  rw [codePoints_take]

/-- The more characters, the more bytes and the more units. -/
theorem take_mono (value : JsString) {j k : Nat} (h : j ≤ k) :
    byteLength ((codePoints value).take j).flatten ≤
        byteLength ((codePoints value).take k).flatten ∧
      ((codePoints value).take j).flatten.length ≤ ((codePoints value).take k).flatten.length := by
  have hsub : ((codePoints value).take j).Sublist ((codePoints value).take k) :=
    (List.take_prefix_take_left h).sublist
  rw [byteLength_take, byteLength_take]
  exact ⟨(hsub.map charSize).sum_le_sum fun _ _ => Nat.zero_le _, hsub.flatten.length_le⟩

/-- The loop takes the first characters as far as they fit: all of them, or as many that one more
is too much. -/
theorem truncateFrom_spec (hresult : byteLength result ≤ maxBytes) :
    ∃ k, truncateFrom maxBytes chars result = result ++ (chars.take k).flatten ∧
      byteLength (result ++ (chars.take k).flatten) ≤ maxBytes ∧
      (chars.length ≤ k ∨ maxBytes < byteLength (result ++ (chars.take (k + 1)).flatten)) := by
  induction chars generalizing result with
  | nil =>
    have hflat : result ++ (([] : List JsString).take 0).flatten = result := List.append_nil result
    refine ⟨0, hflat.symm, ?_, .inl (Nat.le_refl 0)⟩
    rw [hflat]
    exact hresult
  | cons char chars ih =>
    unfold truncateFrom
    split
    · rename_i hbig
      have hnone : result ++ ((char :: chars).take 0).flatten = result := List.append_nil result
      refine ⟨0, hnone.symm, ?_, .inr ?_⟩
      · rw [hnone]
        exact hresult
      · rw [List.take_succ_cons, List.take_zero, List.flatten_singleton]
        exact hbig
    · rename_i hsmall
      obtain ⟨k, heq, hfits, hstop⟩ := ih (Nat.le_of_not_lt hsmall)
      have hmore : ∀ j, result ++ char ++ (chars.take j).flatten =
          result ++ ((char :: chars).take (j + 1)).flatten := by
        intro j
        rw [List.take_succ_cons, List.flatten_cons, List.append_assoc]
      rw [hmore] at heq hfits hstop
      exact ⟨k + 1, heq, hfits, hstop.imp Nat.succ_le_succ id⟩

/-- A name that is too long is cut to what fits of it, and that is not little. -/
theorem truncateUtf8_spec (hlong : 240 < byteLength name) :
    LongestPart name (truncateUtf8 name 240) ∧ 4 < (truncateUtf8 name 240).length := by
  obtain ⟨k, heq, hfits, hstop⟩ := @truncateFrom_spec [] 240 (codePoints name) (Nat.zero_le _)
  rw [List.nil_append] at heq hfits hstop
  have hbig : 240 < byteLength ((codePoints name).take (k + 1)).flatten := by
    rcases hstop with hall | hbig
    · rw [List.take_of_length_le hall, flatten_codePoints] at hfits
      omega
    · exact hbig
  have hpart : LongestPart name ((codePoints name).take k).flatten := by
    refine ⟨⟨k, rfl⟩, hfits, ?_⟩
    intro j hj
    have hjk : j ≤ k := by
      by_contra hkj
      have hnext : k + 1 ≤ j := Nat.lt_of_not_le hkj
      have := (take_mono name hnext).1
      omega
    exact (take_mono name hjk).2
  have hlength : 4 < ((codePoints name).take k).flatten.length := by
    have hle := byteLength_le ((codePoints name).take (k + 1)).flatten
    rw [List.take_add_one, List.flatten_append, List.length_append] at hle
    have hlast : ((codePoints name)[k]?.toList.flatten).length ≤ 2 := by
      cases hchar : (codePoints name)[k]? with
      | none => exact Nat.zero_le 2
      | some char =>
        rw [Option.toList_some, List.flatten_singleton]
        exact (length_of_mem_codePoints (List.mem_of_getElem? hchar)).2
    rw [List.take_add_one, List.flatten_append] at hbig
    omega
  have hne : truncateFrom 240 (codePoints name) [] ≠ [] := by
    intro hempty
    rw [heq] at hempty
    rw [hempty] at hlength
    cases hlength
  have hcut : truncateUtf8 name 240 = ((codePoints name).take k).flatten :=
    (if_neg hne).trans heq
  rw [hcut]
  exact ⟨hpart, hlength⟩

theorem LongestPart.isPrefix (h : LongestPart name value) : value <+: name := by
  obtain ⟨k, rfl⟩ := h.whole
  have hfirst := (List.take_prefix k (codePoints name)).flatten
  rwa [flatten_codePoints] at hfirst

/-- The name is shortened to what fits of it. -/
theorem shorten_spec (name : JsString) :
    LongestPart name (shorten name) ∧ (shorten name = name ∨ 4 < (shorten name).length) := by
  unfold shorten
  split
  · rename_i hshort
    refine ⟨⟨⟨(codePoints name).length, ?_⟩, hshort, ?_⟩, .inl rfl⟩
    · rw [List.take_length, flatten_codePoints]
    · intro k _
      have hfirst := (List.take_prefix k (codePoints name)).flatten
      rw [flatten_codePoints] at hfirst
      exact hfirst.length_le
  · rename_i hlong
    exact (truncateUtf8_spec (Nat.lt_of_not_le hlong)).imp id .inr

/-- Only one part is the longest. -/
theorem longestPart_iff {kept : JsString} : LongestPart name kept ↔ kept = shorten name := by
  obtain ⟨hshorten, _⟩ := shorten_spec name
  constructor
  · intro h
    obtain ⟨j, hj⟩ := h.whole
    obtain ⟨k, hk⟩ := hshorten.whole
    have hle := h.longest k (hk ▸ hshorten.fits)
    have hge := hshorten.longest j (hj ▸ h.fits)
    rw [← hk] at hle
    rw [← hj] at hge
    exact (List.prefix_of_prefix_length_le h.isPrefix hshorten.isPrefix hge).eq_of_length
      (Nat.le_antisymm hge hle)
  · rintro rfl
    exact hshorten

end Truncation

/-! ## The last segment -/

section Core

variable {N : Normalizer} {value name part text : JsString}

/-- The last segment is cut out of the string: it has no slashes. -/
theorem basename_spec (text : JsString) : basename text <:+: text ∧ slash ∉ basename text := by
  refine ⟨(List.rtakeWhile_suffix _ _).isInfix.trans (List.rdropWhile_prefix _ _).isInfix, ?_⟩
  intro hmem
  have hother := List.mem_rtakeWhile_imp hmem
  simp at hother

theorem trim_infix (text : JsString) : trim text <:+: text :=
  (List.rdropWhile_prefix _ _).isInfix.trans (List.dropWhile_suffix _).isInfix

/-- What is left of a string at the end has none of what is dropped there. -/
theorem rdropWhile_getLast? (p : UInt16 → Bool) (text : JsString) :
    ∀ u ∈ (text.rdropWhile p).getLast?, p u = false := by
  intro u hu
  obtain ⟨hne, rfl⟩ := List.mem_getLast?_eq_getLast hu
  exact Bool.eq_false_iff.mpr (List.rdropWhile_last_not p text hne)

theorem rdropWhile_of_getLast? {p : UInt16 → Bool} (h : ∀ u ∈ text.getLast?, p u = false) :
    text.rdropWhile p = text := by
  refine List.rdropWhile_eq_self_iff.mpr fun hne => ?_
  exact Bool.eq_false_iff.mp (h _ (List.getLast?_eq_some_getLast hne))

/-- A part without slashes of a string with slashes turned round is a part of the string. -/
theorem infix_of_turned
    (h : part <:+: text.map fun u => if u = reverseSlash then slash else u)
    (hslash : slash ∉ part) : part <:+: text := by
  obtain ⟨before, after, heq⟩ := h
  obtain ⟨front, back, rfl, hfront, hback⟩ := List.map_eq_append_iff.mp heq.symm
  obtain ⟨first, same, rfl, hfirst, hsame⟩ := List.map_eq_append_iff.mp hfront
  refine ⟨first, back, ?_⟩
  have hpart : part = same := by
    rw [← hsame]
    refine (List.map_congr_left ?_).trans (List.map_id same)
    intro u hu
    refine if_neg fun hreverse => hslash ?_
    rw [← hsame]
    exact List.mem_map.mpr ⟨u, hu, if_pos hreverse⟩
  rw [hpart]

/-- What the last segment is cut out of. -/
def turned (N : Normalizer) (value : JsString) : JsString :=
  ((N.nfc value).filter fun u => !isRemoved u).map fun u => if u = reverseSlash then slash else u

theorem coreOf_infix (N : Normalizer) (value : JsString) :
    coreOf N value <+: trim (basename (turned N value)) ∧
      trim (basename (turned N value)) <:+: basename (turned N value) :=
  ⟨List.rdropWhile_prefix _ _, trim_infix _⟩

/-- The last segment has no separators and no control characters of ASCII. -/
theorem coreOf_plain (N : Normalizer) (value : JsString) :
    ∀ u ∈ coreOf N value, isRemoved u = false ∧ u ≠ slash ∧ u ≠ reverseSlash := by
  intro u hu
  obtain ⟨hcore, htrim⟩ := coreOf_infix N value
  have hbase := htrim.mem (hcore.mem hu)
  obtain ⟨hpart, hslash⟩ := basename_spec (turned N value)
  have hne : u ≠ slash := fun heq => hslash (heq ▸ hbase)
  obtain ⟨v, hv, rfl⟩ := List.mem_map.mp (hpart.mem hbase)
  obtain ⟨_, hkept⟩ := List.mem_filter.mp hv
  by_cases hv : v = reverseSlash
  · exact absurd (if_pos hv) hne
  · rw [if_neg hv]
    rw [if_neg hv] at hne
    refine ⟨?_, hne, hv⟩
    simpa only [Bool.not_eq_eq_eq_not, Bool.not_true] using hkept

/-- Where no control character is removed, the last segment is a part of the normalised string. -/
theorem coreOf_infix_nfc (h : ∀ u ∈ N.nfc value, isRemoved u = false) :
    coreOf N value <:+: N.nfc value := by
  obtain ⟨hcore, htrim⟩ := coreOf_infix N value
  obtain ⟨hpart, hslash⟩ := basename_spec (turned N value)
  have hall := hcore.isInfix.trans (htrim.trans hpart)
  have hkeep : (N.nfc value).filter (fun u => !isRemoved u) = N.nfc value := by
    refine List.filter_eq_self.mpr fun u hu => ?_
    rw [h u hu]
    rfl
  unfold turned at hall
  rw [hkeep] at hall
  exact infix_of_turned hall fun hmem => hslash (htrim.mem (hcore.mem hmem))

/-- Neither end of the last segment is white space before the dots are left out. -/
theorem coreOf_head (N : Normalizer) (value : JsString) :
    ∀ u ∈ (coreOf N value).head?, isWhiteSpace u = false := by
  intro u hu
  have hfirst : coreOf N value <+: (basename (turned N value)).dropWhile isWhiteSpace :=
    (List.rdropWhile_prefix _ _).trans (List.rdropWhile_prefix _ _)
  obtain ⟨rest, heq⟩ := hfirst
  obtain ⟨more, hmore⟩ := List.head?_eq_some_iff.mp hu
  rw [hmore, List.cons_append] at heq
  have hnot := List.head?_dropWhile_not isWhiteSpace (basename (turned N value))
  rw [← heq] at hnot
  exact hnot

/-- A name without anything that is left out is its own last segment. -/
theorem coreOf_eq_self (hnormal : N.nfc name = name)
    (hplain : ∀ u ∈ name, isRemoved u = false ∧ u ≠ slash ∧ u ≠ reverseSlash)
    (hhead : ∀ u ∈ name.head?, isWhiteSpace u = false)
    (hlast : ∀ u ∈ name.getLast?, isWhiteSpace u = false ∧ u ≠ dot) : coreOf N name = name := by
  have hturned : turned N name = name := by
    unfold turned
    rw [hnormal, List.filter_eq_self.mpr fun u hu => by rw [(hplain u hu).1]; rfl]
    refine (List.map_congr_left ?_).trans (List.map_id name)
    intro u hu
    exact if_neg (hplain u hu).2.2
  have hbase : basename name = name := by
    unfold basename
    rw [rdropWhile_of_getLast?, List.rtakeWhile_eq_self_iff]
    · intro u hu
      exact bne_iff_ne.mpr (hplain u hu).2.1
    · intro u hu
      exact beq_false_of_ne (hplain u (List.mem_of_getLast? hu)).2.1
  have htrim : trim name = name := by
    unfold trim
    have hdrop : name.dropWhile isWhiteSpace = name := by
      cases name with
      | nil => rfl
      | cons u rest => exact List.dropWhile_cons_of_neg (Bool.eq_false_iff.mp (hhead u rfl))
    rw [hdrop]
    exact rdropWhile_of_getLast? fun u hu => (hlast u hu).1
  show (trim (basename (turned N name))).rdropWhile _ = name
  rw [hturned, hbase, htrim]
  refine rdropWhile_of_getLast? fun u hu => ?_
  obtain ⟨hwhite, hdot⟩ := hlast u hu
  have hspace : u ≠ space := fun heq => Bool.false_ne_true (hwhite.symm.trans (heq ▸ rfl))
  rw [beq_false_of_ne hdot, beq_false_of_ne hspace]
  rfl

/-! ## Refused names -/

theorem deviceNames_length : ∀ device ∈ deviceNames, device.length ≤ 4 := by
  decide

/-- A long first part of a name is reserved only if the name is. -/
theorem isReserved_of_prefix (hpart : part <+: name) (hlong : 4 < part.length)
    (h : isReserved part = true) : isReserved name = true := by
  unfold isReserved at h ⊢
  have hshort := deviceNames_length _ (List.contains_iff_mem.mp h)
  rw [List.length_map] at hshort
  obtain ⟨rest, rfl⟩ := hpart
  have hstop : (part.takeWhile fun u => u != dot).length ≠ part.length := by omega
  have hsame : (part ++ rest).takeWhile (fun u => u != dot) = part.takeWhile fun u => u != dot := by
    rw [List.takeWhile_append, if_neg hstop]
  rw [hsame]
  exact h

theorem isRefused_eq_false : isRefused name = false ↔ name ≠ [] ∧ name ≠ [dot] ∧
    name ≠ [dot, dot] ∧ colon ∉ name ∧ isReserved name = false := by
  unfold isRefused
  simp only [Bool.or_eq_false_iff, beq_eq_false_iff_ne, List.contains_eq_mem,
    decide_eq_false_iff_not, and_assoc, ne_eq]

/-- What fits of a name that is not refused is not refused. -/
theorem isRefused_shorten (h : isRefused name = false) : isRefused (shorten name) = false := by
  obtain ⟨hpart, hlong⟩ := shorten_spec name
  rcases hlong with heq | hlong
  · rw [heq]
    exact h
  · obtain ⟨_, _, _, hcolon, hreserved⟩ := isRefused_eq_false.mp h
    refine isRefused_eq_false.mpr ⟨?_, ?_, ?_, ?_, ?_⟩
    · intro heq
      rw [heq] at hlong
      cases hlong
    · intro heq
      rw [heq] at hlong
      exact absurd hlong (by decide)
    · intro heq
      rw [heq] at hlong
      exact absurd hlong (by decide)
    · exact fun hmem => hcolon (hpart.isPrefix.mem hmem)
    · by_contra hnot
      have hname := isReserved_of_prefix hpart.isPrefix hlong (Bool.not_eq_false _ ▸ hnot)
      exact Bool.false_ne_true (hreserved.symm.trans hname)

/-! ## Names -/

theorem sanitize_of_refused (h : isRefused (coreOf N value) = true) :
    sanitizeDownloadFilename N value = ofAscii "download" :=
  if_pos h

theorem sanitize_of_not_refused (h : isRefused (coreOf N value) = false) :
    sanitizeDownloadFilename N value = shorten (coreOf N value) :=
  if_neg (Bool.eq_false_iff.mp h)

theorem download_plain : ∀ u ∈ ofAscii "download", u < 0x80 ∧ isRemoved u = false ∧
    isHighControl u = false ∧ isWhiteSpace u = false ∧
      u ≠ slash ∧ u ≠ reverseSlash ∧ u ≠ colon ∧ u ≠ dot ∧ u ≠ space := by
  have hall : (ofAscii "download").all (fun u => u < 0x80 ∧ isRemoved u = false ∧
      isHighControl u = false ∧ isWhiteSpace u = false ∧
        u ≠ slash ∧ u ≠ reverseSlash ∧ u ≠ colon ∧ u ≠ dot ∧ u ≠ space) = true := by decide
  exact fun u hu => of_decide_eq_true (List.all_eq_true.mp hall u hu)

theorem download_safe : Safe (ofAscii "download") := by
  refine ⟨by decide, by decide, ?_, ⟨by decide, by decide, by decide⟩, by decide, by decide, ?_⟩
  · intro u hu
    obtain ⟨_, hremoved, hhigh, _⟩ := download_plain u hu
    exact ⟨hremoved, hhigh⟩
  · intro u hu
    obtain ⟨_, _, _, _, _, _, _, hends⟩ := download_plain u (List.mem_of_getLast? hu)
    exact hends

theorem nfc_download (N : Normalizer) : N.nfc (ofAscii "download") = ofAscii "download" :=
  N.ascii _ fun u hu => (download_plain u hu).1

theorem download_ends :
    ∀ u ∈ (ofAscii "download").getLast?, isWhiteSpace u = false ∧ u ≠ dot := by
  intro u hu
  obtain ⟨_, _, _, hwhite, _, _, _, hdot, _⟩ := download_plain u (List.mem_of_getLast? hu)
  exact ⟨hwhite, hdot⟩

theorem sanitize_download (N : Normalizer) :
    sanitizeDownloadFilename N (ofAscii "download") = ofAscii "download" := by
  have hcore : coreOf N (ofAscii "download") = ofAscii "download" := by
    refine coreOf_eq_self (nfc_download N) ?_ ?_ download_ends
    · intro u hu
      obtain ⟨_, hremoved, _, _, hslash, hreverse, _⟩ := download_plain u hu
      exact ⟨hremoved, hslash, hreverse⟩
    · exact fun u hu => (download_plain u (List.mem_of_head? hu)).2.2.2.1
  unfold sanitizeDownloadFilename
  rw [hcore]
  rfl

theorem shorten_of_short (h : byteLength name ≤ 240) : shorten name = name :=
  if_pos h

/-- A name is safe but for control characters that are not ASCII, and for its end. -/
theorem shorten_safe (h : isRefused (coreOf N value) = false)
    (hhigh : ∀ u ∈ shorten (coreOf N value), isHighControl u = false)
    (hlast : ∀ u ∈ (shorten (coreOf N value)).getLast?, isWhiteSpace u = false ∧ u ≠ dot) :
    Safe (shorten (coreOf N value)) := by
  obtain ⟨hpart, _⟩ := shorten_spec (coreOf N value)
  obtain ⟨hfilled, hdot, hdots, hcolon, hreserved⟩ := isRefused_eq_false.mp (isRefused_shorten h)
  have hplain : ∀ u ∈ shorten (coreOf N value),
      isRemoved u = false ∧ u ≠ slash ∧ u ≠ reverseSlash := fun u hu =>
    coreOf_plain N value u (hpart.isPrefix.mem hu)
  refine ⟨hfilled, hpart.fits, fun u hu => ⟨(hplain u hu).1, hhigh u hu⟩, ⟨?_, ?_, hcolon⟩,
    ⟨hdot, hdots⟩, hreserved, ?_⟩
  · exact fun hmem => (hplain _ hmem).2.1 rfl
  · exact fun hmem => (hplain _ hmem).2.2 rfl
  · intro u hu
    obtain ⟨hwhite, hne⟩ := hlast u hu
    exact ⟨hne, fun heq => Bool.false_ne_true (hwhite.symm.trans (heq ▸ rfl))⟩

/-- A normalised name that does not end in white space or a dot is its own name. -/
theorem shorten_stable (h : isRefused (coreOf N value) = false)
    (hnormal : N.nfc (shorten (coreOf N value)) = shorten (coreOf N value))
    (hlast : ∀ u ∈ (shorten (coreOf N value)).getLast?, isWhiteSpace u = false ∧ u ≠ dot) :
    sanitizeDownloadFilename N (shorten (coreOf N value)) = shorten (coreOf N value) := by
  obtain ⟨hpart, _⟩ := shorten_spec (coreOf N value)
  have hhead : ∀ u ∈ (shorten (coreOf N value)).head?, isWhiteSpace u = false := by
    intro u hu
    obtain ⟨more, hmore⟩ := List.head?_eq_some_iff.mp hu
    obtain ⟨rest, hrest⟩ := hpart.isPrefix
    rw [hmore] at hrest
    refine coreOf_head N value u ?_
    rw [← hrest]
    rfl
  have hcore : coreOf N (shorten (coreOf N value)) = shorten (coreOf N value) :=
    coreOf_eq_self hnormal (fun u hu => coreOf_plain N value u (hpart.isPrefix.mem hu)) hhead hlast
  unfold sanitizeDownloadFilename
  rw [hcore]
  exact (if_neg (Bool.eq_false_iff.mp (isRefused_shorten h))).trans (shorten_of_short hpart.fits)

/-- Where no control character had to be removed, the name is a part of a normalised string. -/
theorem shorten_normal (h : ∀ u ∈ value, isRemoved u = false) :
    N.nfc (shorten (coreOf N value)) = shorten (coreOf N value) := by
  have hkept : ∀ u ∈ N.nfc value, isRemoved u = false := by
    intro u hu
    by_contra hnot
    have hremoved : isRemoved u = true := Bool.not_eq_false _ ▸ hnot
    exact Bool.false_ne_true ((h u (N.controls value u hu hremoved)).symm.trans hremoved)
  refine N.part _ _ (N.idempotent value) ?_
  exact (shorten_spec _).1.isPrefix.isInfix.trans (coreOf_infix_nfc hkept)

/-- A plain name that is its own name is normalised and has nothing to leave out at its end. -/
theorem normal_of_stable (hplain : ∀ u ∈ name, isRemoved u = false ∧ u ≠ slash ∧ u ≠ reverseSlash)
    (h : sanitizeDownloadFilename N name = name) :
    N.nfc name = name ∧ ∀ u ∈ name.getLast?, isWhiteSpace u = false ∧ u ≠ dot := by
  cases hrefused : isRefused (coreOf N name) with
  | true =>
    rw [sanitize_of_refused hrefused] at h
    rw [← h]
    exact ⟨nfc_download N, download_ends⟩
  | false =>
    rw [sanitize_of_not_refused hrefused] at h
    have hkept : ∀ u ∈ N.nfc name, isRemoved u = false := by
      intro u hu
      by_contra hnot
      have hremoved : isRemoved u = true := Bool.not_eq_false _ ▸ hnot
      have hmem := N.controls name u hu hremoved
      exact Bool.false_ne_true ((hplain u hmem).1.symm.trans hremoved)
    have hfirst : name <+: coreOf N name := by
      have hpart := (shorten_spec (coreOf N name)).1.isPrefix
      rwa [h] at hpart
    have hnormal : N.nfc name = name :=
      N.part _ _ (N.idempotent name) (hfirst.isInfix.trans (coreOf_infix_nfc hkept))
    refine ⟨hnormal, ?_⟩
    -- every stage keeps at most what it is given, and the name comes out whole
    have hturned : turned N name = name := by
      unfold turned
      rw [hnormal, List.filter_eq_self.mpr fun u hu => by rw [(hplain u hu).1]; rfl]
      refine (List.map_congr_left ?_).trans (List.map_id name)
      intro u hu
      exact if_neg (hplain u hu).2.2
    obtain ⟨hcore, htrim⟩ := coreOf_infix N name
    have hbase := (basename_spec (turned N name)).1
    rw [hturned] at hcore htrim hbase
    have hlengths := And.intro hfirst.length_le
      (And.intro hcore.length_le (And.intro htrim.length_le hbase.length_le))
    have hcut : coreOf N name = name := (hfirst.eq_of_length (by omega)).symm
    have htrimmed : trim (basename name) = name := by
      rw [← hcore.eq_of_length (by omega), hcut]
    have hwhite := rdropWhile_getLast? isWhiteSpace ((basename name).dropWhile isWhiteSpace)
    have hdots := rdropWhile_getLast? (fun u => u == dot || u == space)
      (trim (basename (turned N name)))
    intro u hu
    have hcutEnd : u ∈ (coreOf N name).getLast? := by
      rw [hcut]
      exact hu
    have htrimEnd : u ∈ (trim (basename name)).getLast? := by
      rw [htrimmed]
      exact hu
    refine ⟨hwhite u htrimEnd, fun hdot => ?_⟩
    have hnot := hdots u hcutEnd
    rw [hdot] at hnot
    exact Bool.false_ne_true hnot.symm

end Core

/-! ## Which strings get a safe name -/

/-- The name of a string is safe and its own name if and only if the string is refused; or what
fits of its last segment is normalised, where control characters were removed, has no control
characters that are not ASCII, and does not end in white space or a dot. -/
theorem sanitize_safe_iff (N : Normalizer) (value : JsString) :
    SafeAndStable N value ↔ Fits N value := by
  unfold SafeAndStable Fits
  cases hrefused : isRefused (coreOf N value) with
  | true =>
    rw [sanitize_of_refused hrefused]
    exact ⟨fun _ => .inl rfl, fun _ => ⟨download_safe, sanitize_download N⟩⟩
  | false =>
    rw [sanitize_of_not_refused hrefused]
    constructor
    · rintro ⟨hsafe, hstable⟩
      refine .inr fun kept hkept => ?_
      rw [longestPart_iff.mp hkept]
      have hplain : ∀ u ∈ shorten (coreOf N value),
          isRemoved u = false ∧ u ≠ slash ∧ u ≠ reverseSlash := fun u hu =>
        coreOf_plain N value u ((shorten_spec _).1.isPrefix.mem hu)
      obtain ⟨hnormal, hlast⟩ := normal_of_stable hplain hstable
      exact ⟨.inr hnormal, fun u hu => (hsafe.noControls u hu).2, hlast⟩
    · rintro (hno | hfits)
      · exact absurd hno Bool.false_ne_true
      · obtain ⟨hnormal, hhigh, hlast⟩ := hfits _ (shorten_spec _).1
        refine ⟨shorten_safe hrefused hhigh hlast, shorten_stable hrefused ?_ hlast⟩
        exact hnormal.elim shorten_normal id

/-- Nothing has to be normalised. -/
def plainNormalizer : Normalizer where
  nfc s := s
  idempotent _ := rfl
  part _ _ _ _ := rfl
  controls _ _ hu _ := hu
  ascii _ _ := rfl

example : sanitizeDownloadFilename plainNormalizer (ofAscii "..\\report.txt. ") =
    ofAscii "report.txt" := by decide

/-- A long name is cut behind a space, and the space stays. -/
theorem cut_name_ends_in_space :
    ¬ SafeAndStable plainNormalizer (List.replicate 239 0x61 ++ [space, 0x62]) := by
  intro h
  exact (h.1.ends space (by decide +kernel)).2 rfl

end DownloadName
end Files
end Yuance
