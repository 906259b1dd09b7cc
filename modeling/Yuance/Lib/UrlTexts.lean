import Mathlib
import Yuance.Lib.Text
import Yuance.Lib.Urls

/-!
# Yuance.Lib.UrlTexts

URLs that are written by a program, and what is read of them again.

* `decodeURIComponent`: every `%` begins an escape, and the bytes are those of a text.
* `decodeURIComponent_percentEncode`: what was percent-encoded is decoded.
* `urlencodedSerialize`, `urlencodedParse_serialize`: the entries of a query are read as they were
  written.
* `parseUrl_parts`: a path with a query and a fragment, read against a base.
-/

namespace Lib
namespace Urls

/-! ## Characters -/

/-- What holds of a kind of ASCII characters is checked for each of them. -/
theorem of_ascii {kind p : Char → Bool} (hascii : ∀ c, kind c = true → c.toNat < 128)
    (hall : ((List.range 128).all fun n => !kind (Char.ofNat n) || p (Char.ofNat n)) = true)
    {c : Char} (h : kind c = true) : p c = true := by
  have hone := List.all_eq_true.mp hall c.toNat (List.mem_range.mpr (hascii c h))
  rw [Char.ofNat_toNat, h] at hone
  exact hone

theorem ascii_of_isAlphanum {c : Char} (h : c.isAlphanum = true) : c.toNat < 128 := by
  simp only [Char.isAlphanum, Char.isAlpha, Char.isUpper, Char.isLower, Char.isDigit,
    Bool.or_eq_true, Bool.and_eq_true, decide_eq_true_eq, ge_iff_le, UInt32.le_iff_toNat_le] at h
  change c.val.toNat < 128
  have hz : 'z'.val.toNat = 122 := rfl
  have hZ : 'Z'.val.toNat = 90 := rfl
  have hnine : '9'.val.toNat = 57 := rfl
  omega

/-- The digits of an escape. -/
theorem hexDigit_all {p : Char → Bool}
    (h : ((List.range 16).all fun n => p (hexDigit n)) = true) {n : Nat} (hn : n < 16) :
    p (hexDigit n) = true :=
  List.all_eq_true.mp h n (List.mem_range.mpr hn)

theorem hexValue_hexDigit {n : Nat} (hn : n < 16) : hexValue (hexDigit n) = some n := by
  have hall : ((List.range 16).all fun n => hexValue (hexDigit n) = some n) = true := by decide
  simpa only [decide_eq_true_eq] using List.all_eq_true.mp hall n (List.mem_range.mpr hn)

/-! ## Escapes -/

/-- One byte, escaped. -/
def escape (b : UInt8) : List Char := ['%', hexDigit (b.toNat / 16), hexDigit (b.toNat % 16)]

theorem percentEncode_cons (isEncoded : Char → Bool) (c : Char) (text : List Char) :
    percentEncode isEncoded (c :: text) =
      (if isEncoded c then (String.utf8EncodeChar c).flatMap escape else [c]) ++
        percentEncode isEncoded text :=
  List.flatMap_cons

section Escapes

variable {isEncoded p : Char → Bool} {text rest : List Char} {c : Char}

theorem escapes_all (hpercent : p '%' = true)
    (hdigits : ((List.range 16).all fun n => p (hexDigit n)) = true) {bytes : List UInt8} :
    ∀ c ∈ bytes.flatMap escape, p c = true := by
  intro c hc
  obtain ⟨b, -, hb⟩ := List.mem_flatMap.mp hc
  have hlt : b.toNat < 256 := b.toNat_lt
  simp only [escape, List.mem_cons, List.not_mem_nil, or_false] at hb
  rcases hb with rfl | rfl | rfl
  · exact hpercent
  · exact hexDigit_all hdigits (by omega)
  · exact hexDigit_all hdigits (by omega)

/-- What is written is made of escapes and of the characters that are left as they are. -/
theorem percentEncode_all (hpercent : p '%' = true)
    (hdigits : ((List.range 16).all fun n => p (hexDigit n)) = true)
    (hraw : ∀ c, isEncoded c = false → p c = true) :
    ∀ c ∈ percentEncode isEncoded text, p c = true := by
  induction text with
  | nil => exact fun c hc => nomatch hc
  | cons first text ih =>
    intro c hc
    rw [percentEncode_cons] at hc
    rcases List.mem_append.mp hc with hfirst | hrest
    · split at hfirst
      · exact escapes_all hpercent hdigits c hfirst
      · next hplain =>
        rw [List.mem_singleton.mp hfirst]
        exact hraw first (Bool.eq_false_iff.mpr hplain)
    · exact ih c hrest

theorem percentEncode_single (c : Char) :
    percentEncode (fun _ => true) [c] = (String.utf8EncodeChar c).flatMap escape :=
  List.append_nil _

theorem percentEncode_eq_self (h : ∀ c ∈ text, isEncoded c = false) :
    percentEncode isEncoded text = text := by
  induction text with
  | nil => rfl
  | cons first text ih =>
    rw [percentEncode_cons, h first List.mem_cons_self,
      ih fun c hc => h c (List.mem_cons_of_mem _ hc)]
    rfl

theorem percentDecode_escape (b : UInt8) (rest : List Char) :
    percentDecode (escape b ++ rest) = b :: percentDecode rest := by
  have hlt : b.toNat < 256 := b.toNat_lt
  have hbyte : (16 * (b.toNat / 16) + b.toNat % 16).toUInt8 = b := by
    rw [Nat.div_add_mod]
    exact UInt8.ofNat_toNat
  show percentDecode ('%' :: hexDigit (b.toNat / 16) :: hexDigit (b.toNat % 16) :: rest) = _
  rw [percentDecode, hexValue_hexDigit (by omega), hexValue_hexDigit (by omega)]
  dsimp only
  rw [hbyte]

theorem percentDecode_escapes (bytes : List UInt8) (rest : List Char) :
    percentDecode (bytes.flatMap escape ++ rest) = bytes ++ percentDecode rest := by
  induction bytes with
  | nil => rfl
  | cons b bytes ih =>
    rw [List.flatMap_cons, List.append_assoc, percentDecode_escape, ih]
    rfl

theorem percentDecode_raw (h : c ≠ '%') (rest : List Char) :
    percentDecode (c :: rest) = String.utf8EncodeChar c ++ percentDecode rest := by
  rw [percentDecode.eq_def]
  split
  · next heq => exact absurd (List.cons.inj heq).1 h
  · next heq =>
    obtain ⟨rfl, rfl⟩ := List.cons.inj heq
    rfl
  · next heq => nomatch heq

/-- The bytes of what was percent-encoded are those of the text. -/
theorem percentDecode_percentEncode (h : isEncoded '%' = true) (text rest : List Char) :
    percentDecode (percentEncode isEncoded text ++ rest) =
      text.flatMap String.utf8EncodeChar ++ percentDecode rest := by
  induction text with
  | nil => rfl
  | cons first text ih =>
    rw [percentEncode_cons, List.append_assoc, List.flatMap_cons, List.append_assoc]
    split
    · rw [percentDecode_escapes, ih]
    · next hplain =>
      have hne : first ≠ '%' := by
        rintro rfl
        exact hplain h
      rw [List.singleton_append, percentDecode_raw hne, ih]

end Escapes

/-! ## Components -/

/-- What `encodeURIComponent` escapes. -/
def isComponentEncoded (c : Char) : Bool :=
  !(c.isAlphanum || c = '-' || c = '_' || c = '.' || c = '!' || c = '~' || c = '*' ||
    c.toNat = 0x27 || c = '(' || c = ')')

def encodeURIComponent (text : List Char) : List Char := percentEncode isComponentEncoded text

/-- Every `%` has its two digits. -/
def escapesWell : List Char → Bool
  | '%' :: a :: b :: rest => (hexValue a).isSome && (hexValue b).isSome && escapesWell rest
  | c :: rest => c != '%' && escapesWell rest
  | [] => true

/-- What is between escapes stands for its own bytes: none of them goes on with those of an escape,
and none of them is gone on with. -/
def decodeURIComponent (text : List Char) : Option (List Char) :=
  if escapesWell text then (fromUtf8 (percentDecode text)).map String.toList else none

section Components

variable {isEncoded : Char → Bool} {c : Char}

theorem escapesWell_escape (b : UInt8) (rest : List Char) :
    escapesWell (escape b ++ rest) = escapesWell rest := by
  have hlt : b.toNat < 256 := b.toNat_lt
  show escapesWell ('%' :: hexDigit (b.toNat / 16) :: hexDigit (b.toNat % 16) :: rest) = _
  rw [escapesWell, hexValue_hexDigit (by omega), hexValue_hexDigit (by omega)]
  rfl

theorem escapesWell_escapes (bytes : List UInt8) (rest : List Char) :
    escapesWell (bytes.flatMap escape ++ rest) = escapesWell rest := by
  induction bytes with
  | nil => rfl
  | cons b bytes ih => rw [List.flatMap_cons, List.append_assoc, escapesWell_escape, ih]

theorem escapesWell_raw (h : c ≠ '%') (rest : List Char) :
    escapesWell (c :: rest) = escapesWell rest := by
  rw [escapesWell.eq_def]
  split
  · next heq => exact absurd (List.cons.inj heq).1 h
  · next heq =>
    obtain ⟨rfl, rfl⟩ := List.cons.inj heq
    rw [bne_iff_ne.mpr h, Bool.true_and]
  · next heq => nomatch heq

theorem escapesWell_percentEncode (h : isEncoded '%' = true) (text : List Char) :
    escapesWell (percentEncode isEncoded text) = true := by
  induction text with
  | nil => rfl
  | cons first text ih =>
    rw [percentEncode_cons]
    split
    · rw [escapesWell_escapes, ih]
    · next hplain =>
      have hne : first ≠ '%' := by
        rintro rfl
        exact hplain h
      rw [List.singleton_append, escapesWell_raw hne, ih]

theorem decodeURIComponent_percentEncode (h : isEncoded '%' = true) (text : List Char) :
    decodeURIComponent (percentEncode isEncoded text) = some text := by
  have hbytes : percentDecode (percentEncode isEncoded text) = utf8 (String.ofList text) := by
    have hdecoded := percentDecode_percentEncode h text []
    rw [List.append_nil] at hdecoded
    rw [hdecoded, utf8, String.toList_ofList]
    exact List.append_nil _
  unfold decodeURIComponent
  rw [if_pos (escapesWell_percentEncode h text), hbytes, fromUtf8_utf8, Option.map_some,
    String.toList_ofList]

end Components

/-! ## Queries -/

/-- What a form escapes. -/
def isFormEncoded (c : Char) : Bool :=
  !(c.isAlphanum || c = '*' || c = '-' || c = '.' || c = '_' || c = ' ')

/-- The characters of a written name or value. -/
def isFormChar (c : Char) : Bool :=
  c.isAlphanum || c = '*' || c = '-' || c = '.' || c = '_' || c = '+' || c = '%'

def formPart (entry : List Char × List Char) : List Char :=
  urlencodedEncode entry.1 ++ '=' :: urlencodedEncode entry.2

/-- `params.toString()`. -/
def urlencodedSerialize (entries : List (List Char × List Char)) : List Char :=
  List.intercalate ['&'] (entries.map formPart)

section Queries

variable {utf8Decode : List UInt8 → List Char} {text : List Char}

theorem urlencodedEncode_cons (c : Char) (text : List Char) :
    urlencodedEncode (c :: text) =
      (if c.isAlphanum || c = '*' || c = '-' || c = '.' || c = '_' then [c]
        else if c = ' ' then ['+'] else percentEncode (fun _ => true) [c]) ++
        urlencodedEncode text :=
  List.flatMap_cons

theorem urlencodedEncode_all (text : List Char) :
    ∀ c ∈ urlencodedEncode text, isFormChar c = true := by
  induction text with
  | nil => exact fun c hc => nomatch hc
  | cons first text ih =>
    intro c hc
    rw [urlencodedEncode_cons] at hc
    rcases List.mem_append.mp hc with hfirst | hrest
    · split at hfirst
      · next hplain =>
        rw [List.mem_singleton.mp hfirst]
        unfold isFormChar
        rw [hplain]
        rfl
      · split at hfirst
        · rw [List.mem_singleton.mp hfirst]
          decide
        · rw [percentEncode_single] at hfirst
          exact escapes_all (by decide) (by decide) c hfirst
    · exact ih c hrest

/-- With its pluses read as spaces, what a form writes is percent-encoded. -/
theorem map_urlencodedEncode (text : List Char) :
    (urlencodedEncode text).map (fun c => if c = '+' then ' ' else c) =
      percentEncode isFormEncoded text := by
  induction text with
  | nil => rfl
  | cons first text ih =>
    rw [urlencodedEncode_cons, List.map_append, ih, percentEncode_single]
    refine Eq.trans ?_ (percentEncode_cons isFormEncoded first text).symm
    congr 1
    by_cases hplain : (first.isAlphanum || first = '*' || first = '-' || first = '.' ||
        first = '_') = true
    · have hnot : isFormEncoded first = false := by
        unfold isFormEncoded
        rw [hplain]
        rfl
      have hplus : first ≠ '+' := by
        rintro rfl
        exact absurd hplain (by decide)
      rw [if_pos hplain, hnot, List.map_singleton, if_neg hplus, if_neg Bool.false_ne_true]
    · by_cases hspace : first = ' '
      · rw [hspace]
        rfl
      · have henc : isFormEncoded first = true := by
          unfold isFormEncoded
          rw [Bool.eq_false_iff.mpr hplain, decide_eq_false hspace]
          rfl
        rw [if_neg hplain, if_neg hspace, henc, if_pos rfl]
        refine (List.map_congr_left fun c hc => ?_).trans (List.map_id _)
        have hnot : (c != '+') = true :=
          @escapes_all (· != '+') (by decide) (by decide) _ c hc
        exact if_neg (bne_iff_ne.mp hnot)

theorem decodeComponent_urlencodedEncode
    (hdecode : ∀ text : List Char, utf8Decode (text.flatMap String.utf8EncodeChar) = text)
    (text : List Char) : decodeComponent utf8Decode (urlencodedEncode text) = text := by
  have hbytes := @percentDecode_percentEncode isFormEncoded (by decide) text []
  unfold decodeComponent
  rw [map_urlencodedEncode]
  rw [List.append_nil] at hbytes
  rw [hbytes]
  exact (congrArg utf8Decode (List.append_nil _)).trans (hdecode text)

/-- The marks between the parts are in none of the names and values. -/
theorem not_mem_urlencodedEncode {mark : Char} (h : isFormChar mark = false) :
    mark ∉ urlencodedEncode text :=
  fun hmem => Bool.eq_false_iff.mp h (urlencodedEncode_all text mark hmem)

theorem not_mem_formPart (entry : List Char × List Char) : '&' ∉ formPart entry := by
  intro hmem
  rcases List.mem_append.mp hmem with hname | hvalue
  · exact not_mem_urlencodedEncode (by decide) hname
  · rcases List.mem_cons.mp hvalue with heq | hmem
    · exact absurd heq (by decide)
    · exact not_mem_urlencodedEncode (by decide) hmem

/-- A part is cut at its first `=`. -/
theorem formPart_cut (entry : List Char × List Char) :
    (formPart entry).takeWhile (· != '=') = urlencodedEncode entry.1 ∧
      (formPart entry).dropWhile (· != '=') = '=' :: urlencodedEncode entry.2 := by
  have hname : ∀ c ∈ urlencodedEncode entry.1, (c != '=') = true := by
    intro c hc
    rw [bne_iff_ne]
    rintro rfl
    exact not_mem_urlencodedEncode (by decide) hc
  unfold formPart
  rw [List.takeWhile_append_of_pos hname, List.dropWhile_append_of_pos hname,
    List.takeWhile_cons_of_neg (by decide), List.dropWhile_cons_of_neg (by decide)]
  exact ⟨List.append_nil _, rfl⟩

/-- The entries of a query are read as they were written. -/
theorem urlencodedParse_serialize
    (hdecode : ∀ text : List Char, utf8Decode (text.flatMap String.utf8EncodeChar) = text)
    (entries : List (List Char × List Char)) :
    urlencodedParse utf8Decode (urlencodedSerialize entries) = entries := by
  have hparts : (entries.map formPart).filter (· ≠ []) = entries.map formPart := by
    refine List.filter_eq_self.mpr fun part hpart => ?_
    obtain ⟨entry, -, rfl⟩ := List.mem_map.mp hpart
    exact decide_eq_true (List.append_ne_nil_of_right_ne_nil _ (List.cons_ne_nil _ _))
  have hsplit : ((urlencodedSerialize entries).splitOnP (· == '&')).filter (· ≠ []) =
      entries.map formPart := by
    cases hentries : entries with
    | nil => rfl
    | cons entry rest =>
      rw [hentries] at hparts
      refine Eq.trans ?_ hparts
      congr 1
      exact List.splitOn_intercalate _ (by
        intro part hpart
        obtain ⟨entry, -, rfl⟩ := List.mem_map.mp hpart
        exact not_mem_formPart entry) (List.cons_ne_nil _ _)
  unfold urlencodedParse
  rw [hsplit, List.map_map]
  refine (List.map_congr_left fun entry _ => ?_).trans (List.map_id _)
  rw [Function.comp_apply, (formPart_cut entry).1, (formPart_cut entry).2, List.drop_succ_cons,
    List.drop_zero, decodeComponent_urlencodedEncode hdecode,
    decodeComponent_urlencodedEncode hdecode]
  rfl

theorem urlencodedSerialize_all {p : Char → Bool} (hmarks : p '&' = true ∧ p '=' = true)
    (hform : ∀ c, isFormChar c = true → p c = true) (entries : List (List Char × List Char)) :
    ∀ c ∈ urlencodedSerialize entries, p c = true := by
  have hpart : ∀ entry, ∀ c ∈ formPart entry, p c = true := by
    intro entry c hc
    rcases List.mem_append.mp hc with hname | hvalue
    · exact hform c (urlencodedEncode_all _ c hname)
    · rcases List.mem_cons.mp hvalue with rfl | hmem
      · exact hmarks.2
      · exact hform c (urlencodedEncode_all _ c hmem)
  unfold urlencodedSerialize
  induction entries with
  | nil => exact fun c hc => nomatch hc
  | cons entry entries ih =>
    cases entries with
    | nil =>
      intro c hc
      rw [List.map_cons, List.map_nil, List.intercalate_singleton] at hc
      exact hpart entry c hc
    | cons next entries =>
      intro c hc
      rw [List.map_cons, List.map_cons, List.intercalate_cons_cons] at hc
      rcases List.mem_append.mp hc with hfirst | hrest
      · rcases List.mem_append.mp hfirst with hentry | hmark
        · exact hpart entry c hentry
        · rw [List.mem_singleton.mp hmark]
          exact hmarks.1
      · exact ih c hrest

end Queries

/-! ## Paths -/

/-- Segments, each behind its slash. -/
def pathText (segments : List (List Char)) : List Char := segments.flatMap fun s => '/' :: s

def Url.pathname (url : Url) : List Char := pathText url.path

/-- What a URL has of a query or a fragment: none of it where there is nothing behind the mark. -/
def behindMark (mark : Char) : List Char → List Char
  | [] => []
  | text => mark :: text

/-- The characters that stay as they are in a segment. -/
def isSegmentChar (c : Char) : Bool :=
  !isSlash c && !isEnd c && !isStripped c && !isPathEncoded c

def isQueryChar (c : Char) : Bool := c != '#' && !isStripped c && !isQueryEncoded c

def isFragmentChar (c : Char) : Bool := !isStripped c && !isFragmentEncoded c

/-- A segment that is read as it is written. -/
structure StaysSegment (segment : List Char) : Prop where
  chars : ∀ c ∈ segment, isSegmentChar c = true
  notSingle : isSingleDot segment = false
  notDouble : isDoubleDot segment = false

section Paths

variable {readHost : List Char → Option (List Char)} {base : Url}
  {segments : List (List Char)} {segment query fragment text : List Char}

theorem isSegmentChar_eq {c : Char} (h : isSegmentChar c = true) :
    isSlash c = false ∧ isEnd c = false ∧ isStripped c = false ∧ isPathEncoded c = false := by
  simpa only [isSegmentChar, Bool.and_eq_true, Bool.not_eq_true', and_assoc] using h

theorem addSegments_stays (path : List (List Char))
    (h : ∀ s ∈ segments, StaysSegment s) : addSegments path segments = path ++ segments := by
  induction segments generalizing path with
  | nil => exact (List.append_nil path).symm
  | cons segment segments ih =>
    have hstays := h segment List.mem_cons_self
    have hdouble := Bool.eq_false_iff.mp hstays.notDouble
    have hsingle := Bool.eq_false_iff.mp hstays.notSingle
    cases segments with
    | nil =>
      show finish path segment = path ++ [segment]
      unfold finish
      rw [if_neg hdouble, if_neg hsingle]
    | cons next segments =>
      show addSegments (enter path segment) (next :: segments) = _
      rw [ih _ fun s hs => h s (List.mem_cons_of_mem _ hs)]
      unfold enter
      rw [if_neg hdouble, if_neg hsingle, List.append_assoc, List.singleton_append]

theorem mem_pathText {c : Char} (h : c ∈ pathText segments) :
    c = '/' ∨ ∃ s ∈ segments, c ∈ s := by
  obtain ⟨s, hs, hc⟩ := List.mem_flatMap.mp h
  rcases List.mem_cons.mp hc with heq | hmem
  · exact .inl heq
  · exact .inr ⟨s, hs, hmem⟩

/-- A path is cut at its slashes. -/
theorem splitOnP_pathText {p : Char → Bool} (hslash : p '/' = true) {first : List Char}
    (h : ∀ s ∈ first :: segments, ∀ c ∈ s, p c = false) :
    (first ++ pathText segments).splitOnP p = first :: segments := by
  have hfirst := h first List.mem_cons_self
  induction segments generalizing first with
  | nil =>
    rw [pathText, List.flatMap_nil, List.append_nil]
    exact List.splitOnP_eq_singleton hfirst
  | cons next segments ih =>
    have hrest := fun s hs => h s (List.mem_cons_of_mem _ hs)
    rw [pathText, List.flatMap_cons, List.cons_append,
      List.splitOnP_append_cons_of_forall_mem hfirst '/' hslash]
    exact congrArg (first :: ·) (ih hrest (hrest next List.mem_cons_self))

/-- A text is cut where the characters of a kind stop. -/
theorem span_append {p : Char → Bool} {front back : List Char} (hfront : ∀ c ∈ front, p c = true)
    (hback : ∀ c ∈ back.head?, p c = false) :
    (front ++ back).takeWhile p = front ∧ (front ++ back).dropWhile p = back := by
  rw [List.takeWhile_append_of_pos hfront, List.dropWhile_append_of_pos hfront]
  cases back with
  | nil => exact ⟨List.append_nil front, rfl⟩
  | cons c rest =>
    have hstop := Bool.eq_false_iff.mp (hback c rfl)
    rw [List.takeWhile_cons_of_neg hstop, List.dropWhile_cons_of_neg hstop]
    exact ⟨List.append_nil front, rfl⟩

theorem behindMark_cons {mark : Char} (h : text ≠ []) : behindMark mark text = mark :: text := by
  cases text with
  | nil => exact absurd rfl h
  | cons c rest => rfl

/-- What stands behind the path. -/
def pathRest (query fragment : List Char) : List Char :=
  behindMark '?' query ++ behindMark '#' fragment

theorem isEnd_pathRest : ∀ c ∈ (pathRest query fragment).head?, (!isEnd c) = false := by
  intro c hc
  unfold pathRest at hc
  cases query with
  | nil =>
    cases fragment with
    | nil => nomatch hc
    | cons first rest =>
      rw [← Option.some.inj hc]
      rfl
  | cons first rest =>
    rw [← Option.some.inj hc]
    rfl

theorem mem_behindMark {mark c : Char} (h : c ∈ behindMark mark text) : c = mark ∨ c ∈ text := by
  cases text with
  | nil => nomatch h
  | cons first rest => exact List.mem_cons.mp h

theorem isStripped_pathRest (hquery : ∀ c ∈ query, isQueryChar c = true)
    (hfragment : ∀ c ∈ fragment, isFragmentChar c = true) :
    ∀ c ∈ pathRest query fragment, isStripped c = false := by
  intro c hc
  rcases List.mem_append.mp hc with hmem | hmem
  · rcases mem_behindMark hmem with rfl | hin
    · rfl
    · have hall := hquery c hin
      simp only [isQueryChar, Bool.and_eq_true, Bool.not_eq_true'] at hall
      exact hall.1.2
  · rcases mem_behindMark hmem with rfl | hin
    · rfl
    · have hall := hfragment c hin
      simp only [isFragmentChar, Bool.and_eq_true, Bool.not_eq_true'] at hall
      exact hall.1

theorem head_behindHash : ∀ c ∈ (behindMark '#' fragment).head?, (c != '#') = false := by
  intro c hc
  cases fragment with
  | nil => nomatch hc
  | cons first rest =>
    rw [← Option.some.inj hc]
    rfl

/-- The query of a text whose path is read. -/
theorem queryOf_pathRest (hpath : ∀ c ∈ text, isEnd c = false)
    (hquery : ∀ c ∈ query, isQueryChar c = true) :
    queryOf (text ++ pathRest query fragment) = if query = [] then none else some query := by
  have hfront : ∀ c ∈ text, (!isEnd c) = true := by
    intro c hc
    rw [hpath c hc]
    rfl
  unfold queryOf
  rw [(span_append hfront isEnd_pathRest).2]
  by_cases hnone : query = []
  · rw [if_pos hnone, hnone]
    cases fragment with
    | nil => rfl
    | cons first rest => rfl
  · rw [if_neg hnone, pathRest, behindMark_cons hnone, List.cons_append]
    have hchars : ∀ c ∈ query, (c != '#') = true ∧ isQueryEncoded c = false := by
      intro c hc
      have hall := hquery c hc
      simp only [isQueryChar, Bool.and_eq_true, Bool.not_eq_true'] at hall
      exact ⟨hall.1.1, hall.2⟩
    show some (percentEncode isQueryEncoded
      ((query ++ behindMark '#' fragment).takeWhile (· != '#'))) = some query
    rw [(span_append (fun c hc => (hchars c hc).1) head_behindHash).1,
      percentEncode_eq_self fun c hc => (hchars c hc).2]

/-- The fragment of a text whose path is read. -/
theorem fragmentOf_pathRest (hpath : ∀ c ∈ text, isEnd c = false)
    (hquery : ∀ c ∈ query, isQueryChar c = true)
    (hfragment : ∀ c ∈ fragment, isFragmentChar c = true) :
    fragmentOf (text ++ pathRest query fragment) =
      if fragment = [] then none else some fragment := by
  have hfront : ∀ c ∈ text ++ behindMark '?' query, (c != '#') = true := by
    intro c hc
    rw [bne_iff_ne]
    rintro rfl
    rcases List.mem_append.mp hc with hmem | hmem
    · exact absurd (hpath '#' hmem) (by decide)
    · rcases mem_behindMark hmem with heq | hin
      · exact absurd heq (by decide)
      · exact absurd (hquery '#' hin) (by decide)
  have hchars : ∀ c ∈ fragment, isFragmentEncoded c = false := by
    intro c hc
    have hall := hfragment c hc
    simp only [isFragmentChar, Bool.and_eq_true, Bool.not_eq_true'] at hall
    exact hall.2
  unfold fragmentOf pathRest
  rw [← List.append_assoc, (span_append hfront head_behindHash).2]
  by_cases hnone : fragment = []
  · rw [if_pos hnone, hnone]
    rfl
  · rw [if_neg hnone, behindMark_cons hnone]
    exact congrArg some (percentEncode_eq_self hchars)

/-- The segments of a text whose path is read. -/
theorem segmentsOf_pathRest {first : List Char}
    (h : ∀ s ∈ first :: segments, StaysSegment s) :
    segmentsOf (first ++ pathText segments ++ pathRest query fragment) = first :: segments := by
  have hchars : ∀ s ∈ first :: segments, ∀ c ∈ s, isSegmentChar c = true :=
    fun s hs => (h s hs).chars
  have hbody : ∀ c ∈ first ++ pathText segments, (!isEnd c) = true := by
    intro c hc
    rcases List.mem_append.mp hc with hmem | hmem
    · rw [(isSegmentChar_eq (hchars first List.mem_cons_self c hmem)).2.1]
      rfl
    · rcases mem_pathText hmem with rfl | ⟨s, hs, hin⟩
      · rfl
      · rw [(isSegmentChar_eq (hchars s (List.mem_cons_of_mem _ hs) c hin)).2.1]
        rfl
  unfold segmentsOf
  rw [(span_append hbody isEnd_pathRest).1,
    splitOnP_pathText rfl fun s hs c hc => (isSegmentChar_eq (hchars s hs c hc)).1]
  refine (List.map_congr_left fun s hs => ?_).trans (List.map_id _)
  exact percentEncode_eq_self fun c hc => (isSegmentChar_eq (hchars s hs c hc)).2.2.2

theorem search_of_query (url : Url) (h : url.query = if query = [] then none else some query) :
    url.search = behindMark '?' query := by
  unfold Url.search
  rw [h]
  cases query with
  | nil => rfl
  | cons c rest => rfl

theorem hash_of_fragment (url : Url)
    (h : url.fragment = if fragment = [] then none else some fragment) :
    url.hash = behindMark '#' fragment := by
  unfold Url.hash
  rw [h]
  cases fragment with
  | nil => rfl
  | cons c rest => rfl

/-- A path with a query and a fragment, read against a base. -/
theorem parseUrl_parts {first : List Char} (hfirst : first ≠ [])
    (h : ∀ s ∈ first :: segments, StaysSegment s)
    (hquery : ∀ c ∈ query, isQueryChar c = true)
    (hfragment : ∀ c ∈ fragment, isFragmentChar c = true) :
    ∃ url, parseUrl readHost (some base)
        (pathText (first :: segments) ++ pathRest query fragment) = some url ∧
      url.pathname = pathText (first :: segments) ∧ url.search = behindMark '?' query ∧
      url.hash = behindMark '#' fragment := by
  have hchars : ∀ s ∈ first :: segments, ∀ c ∈ s, isSegmentChar c = true :=
    fun s hs => (h s hs).chars
  have hbody : ∀ c ∈ first ++ pathText segments, isEnd c = false := by
    intro c hc
    rcases List.mem_append.mp hc with hmem | hmem
    · exact (isSegmentChar_eq (hchars first List.mem_cons_self c hmem)).2.1
    · rcases mem_pathText hmem with rfl | ⟨s, hs, hin⟩
      · rfl
      · exact (isSegmentChar_eq (hchars s (List.mem_cons_of_mem _ hs) c hin)).2.1
  have hform : pathText (first :: segments) ++ pathRest query fragment =
      '/' :: (first ++ pathText segments ++ pathRest query fragment) := rfl
  have hstripped : ∀ c ∈ pathText (first :: segments) ++ pathRest query fragment,
      isStripped c = false := by
    intro c hc
    rcases List.mem_append.mp hc with hpath | hrest
    · rcases mem_pathText hpath with rfl | ⟨s, hs, hin⟩
      · rfl
      · exact (isSegmentChar_eq (hchars s hs c hin)).2.2.1
    · exact isStripped_pathRest hquery hfragment c hrest
  have hclean : clean (pathText (first :: segments) ++ pathRest query fragment) =
      pathText (first :: segments) ++ pathRest query fragment := by
    have happend := @clean_append _ [] (by rw [hform]; exact List.cons_ne_nil _ _) hstripped
    rw [List.append_nil] at happend
    rw [happend]
    exact List.append_nil _
  have hhead : ((first ++ pathText segments ++ pathRest query fragment).head?.map
      isSlash).getD false = false := by
    obtain ⟨c, rest, rfl⟩ := List.exists_cons_of_ne_nil hfirst
    exact (isSegmentChar_eq (hchars _ List.mem_cons_self c List.mem_cons_self)).1
  have hread : parseUrl readHost (some base)
      (pathText (first :: segments) ++ pathRest query fragment) =
        some (readPath base.origin (first ++ pathText segments ++ pathRest query fragment)) := by
    unfold parseUrl
    rw [hclean, hform]
    show readRelative readHost base _ = _
    unfold readRelative
    dsimp only
    rw [if_pos (by rfl), hhead]
    rfl
  refine ⟨_, hread, ?_, search_of_query _ (queryOf_pathRest hbody hquery),
    hash_of_fragment _ (fragmentOf_pathRest hbody hquery hfragment)⟩
  unfold readPath Url.pathname
  dsimp only
  rw [segmentsOf_pathRest h, addSegments_stays _ h, List.nil_append]

end Paths

/-! ## Components in a path -/

section Segments

variable {text rest segment : List Char}

/-- A byte below 0x80 at the front is the character. -/
theorem utf8EncodeChar_head {c : Char} {b : UInt8} {bytes : List UInt8}
    (h : String.utf8EncodeChar c = b :: bytes) (hb : b.toNat < 0x80) : c.toNat = b.toNat := by
  have hval : c.toNat = c.val.toNat := rfl
  unfold String.utf8EncodeChar at h
  dsimp only at h
  split at h
  · have hbyte := congrArg UInt8.toNat (List.cons.inj h).1
    rw [UInt8.toNat_ofNat'] at hbyte
    omega
  · have hhigh : ∀ n : Nat, 0xc0 ≤ n % 256 → UInt8.ofNat n ≠ b := by
      intro n hn heq
      rw [← heq, UInt8.toNat_ofNat'] at hb
      omega
    split at h
    · exact absurd (List.cons.inj h).1 (hhigh _ (by omega))
    · split at h
      · exact absurd (List.cons.inj h).1 (hhigh _ (by omega))
      · exact absurd (List.cons.inj h).1 (hhigh _ (by omega))

theorem utf8EncodeChar_ne_nil (c : Char) : String.utf8EncodeChar c ≠ [] := by
  refine List.ne_nil_of_length_pos ?_
  rw [String.length_utf8EncodeChar]
  exact c.utf8Size_pos

/-- A digit of an escape is told by its small letter. -/
theorem hexDigit_lower {n m : Nat} (hn : n < 16) (hm : m < 16)
    (h : (hexDigit n).toLower = (hexDigit m).toLower) : n = m := by
  have hall : ((List.range 16).all fun n => (List.range 16).all fun m =>
      (hexDigit n).toLower != (hexDigit m).toLower || n = m) = true := by decide
  have hone := List.all_eq_true.mp (List.all_eq_true.mp hall n (List.mem_range.mpr hn)) m
    (List.mem_range.mpr hm)
  rw [h] at hone
  simpa only [bne_self_eq_false, Bool.false_or, decide_eq_true_eq] using hone

theorem ascii_of_raw {c : Char} (h : (!isComponentEncoded c) = true) : c.toNat < 128 := by
  have hspecial : ∀ d : Char, d.toNat < 128 → c = d → c.toNat < 128 := by
    rintro d hd rfl
    exact hd
  simp only [isComponentEncoded, Bool.not_not, Bool.or_eq_true, decide_eq_true_eq] at h
  rcases h with ((((((((h | h) | h) | h) | h) | h) | h) | h) | h) | h
  · exact ascii_of_isAlphanum h
  · exact hspecial _ (by decide) h
  · exact hspecial _ (by decide) h
  · exact hspecial _ (by decide) h
  · exact hspecial _ (by decide) h
  · exact hspecial _ (by decide) h
  · exact hspecial _ (by decide) h
  · omega
  · exact hspecial _ (by decide) h
  · exact hspecial _ (by decide) h

/-- What holds of the characters that `encodeURIComponent` leaves as they are. -/
theorem of_raw {p : Char → Bool}
    (hall : ((List.range 128).all fun n =>
      isComponentEncoded (Char.ofNat n) || p (Char.ofNat n)) = true)
    {c : Char} (h : isComponentEncoded c = false) : p c = true := by
  refine @of_ascii (fun c => !isComponentEncoded c) p (fun c => ascii_of_raw) ?_ c
    (by rw [h]; rfl)
  simpa only [Bool.not_not] using hall

/-- What is written of a character, and what a dot segment would have of it. -/
theorem encoded_head {c : Char} :
    (isComponentEncoded c = false ∧
      encodeURIComponent (c :: text) = c :: encodeURIComponent text) ∨
    ∃ b : UInt8, b.toNat ≠ 0x2e ∧ ∃ more, encodeURIComponent (c :: text) = escape b ++ more := by
  unfold encodeURIComponent
  rw [percentEncode_cons]
  by_cases henc : isComponentEncoded c = true
  · refine .inr ?_
    rw [if_pos henc]
    obtain ⟨b, bytes, hbytes⟩ := List.exists_cons_of_ne_nil (utf8EncodeChar_ne_nil c)
    refine ⟨b, ?_, bytes.flatMap escape ++ percentEncode isComponentEncoded text, ?_⟩
    · intro hdot
      have hc : c = '.' := by
        rw [← Char.ofNat_toNat c, utf8EncodeChar_head hbytes (by omega), hdot]
      rw [hc] at henc
      exact absurd henc (by decide)
    · rw [hbytes, List.flatMap_cons, List.append_assoc]
  · rw [if_neg henc]
    exact .inl ⟨Bool.eq_false_iff.mpr henc, rfl⟩

/-- The dot of a dot segment is a dot of the text, and not escaped. -/
theorem dot_of_encoded (h : (encodeURIComponent text).map Char.toLower = '.' :: rest ∨
      (encodeURIComponent text).map Char.toLower = '%' :: '2' :: 'e' :: rest) :
    ∃ more, text = '.' :: more ∧ (encodeURIComponent more).map Char.toLower = rest := by
  cases text with
  | nil =>
    rcases h with h | h
    · nomatch h
    · nomatch h
  | cons c text =>
    rcases @encoded_head text c with ⟨hraw, hform⟩ | ⟨b, hb, more, hform⟩
    · rw [hform, List.map_cons] at h
      have hlower : (c.toLower != '%' && (c.toLower != '.' || c = '.')) = true :=
        of_raw (p := fun c => c.toLower != '%' && (c.toLower != '.' || c = '.')) (by decide) hraw
      rw [Bool.and_eq_true, Bool.or_eq_true, bne_iff_ne, bne_iff_ne, decide_eq_true_eq] at hlower
      rcases h with h | h
      · obtain ⟨hdot, hrest⟩ := List.cons.inj h
        rcases hlower.2 with hne | rfl
        · exact absurd hdot hne
        · exact ⟨text, rfl, hrest⟩
      · exact absurd (List.cons.inj h).1 hlower.1
    · have hlt : b.toNat < 256 := b.toNat_lt
      rw [hform] at h
      rcases h with h | h
      · exact absurd (List.cons.inj h).1 (by decide)
      · exfalso
        obtain ⟨-, h⟩ := List.cons.inj h
        obtain ⟨hhigh, h⟩ := List.cons.inj h
        obtain ⟨hlow, -⟩ := List.cons.inj h
        have h2 : b.toNat / 16 = 2 := hexDigit_lower (by omega) (by decide) hhigh
        have h14 : b.toNat % 16 = 14 := hexDigit_lower (by omega) (by decide) hlow
        omega

theorem encodeURIComponent_inj {other : List Char}
    (h : encodeURIComponent text = encodeURIComponent other) : text = other := by
  have hdecoded := congrArg decodeURIComponent h
  unfold encodeURIComponent at hdecoded
  rw [decodeURIComponent_percentEncode (by decide),
    decodeURIComponent_percentEncode (by decide)] at hdecoded
  exact Option.some.inj hdecoded

theorem encodeURIComponent_ne_nil (h : text ≠ []) : encodeURIComponent text ≠ [] :=
  fun hnil => h (encodeURIComponent_inj (hnil.trans rfl))

theorem eq_of_form {form : String} {text : List Char}
    (h : [form].contains (String.ofList text) = true) : text = form.toList := by
  rw [← List.mem_singleton.mp (List.contains_iff_mem.mp h), String.toList_ofList]

/-- A text is one segment of a path, unless it is a dot segment. -/
theorem encodeURIComponent_stays (hsingle : text ≠ ".".toList) (hdouble : text ≠ "..".toList) :
    StaysSegment (encodeURIComponent text) := by
  have hnil : ∀ {more : List Char}, (encodeURIComponent more).map Char.toLower = [] →
      more = [] := by
    intro more h
    by_contra hne
    exact encodeURIComponent_ne_nil hne (List.map_eq_nil_iff.mp h)
  refine ⟨percentEncode_all (by decide) (by decide) fun c hc => of_raw (by decide) hc, ?_, ?_⟩
  · rw [Bool.eq_false_iff]
    intro h
    rcases Bool.or_eq_true_iff.mp h with h | h
    · obtain ⟨more, rfl, hmore⟩ := dot_of_encoded (.inl (eq_of_form h))
      exact hsingle (congrArg ('.' :: ·) (hnil hmore))
    · obtain ⟨more, rfl, hmore⟩ := dot_of_encoded (.inr (eq_of_form h))
      exact hsingle (congrArg ('.' :: ·) (hnil hmore))
  · rw [Bool.eq_false_iff]
    intro h
    have hform : (encodeURIComponent text).map Char.toLower = "..".toList ∨
        (encodeURIComponent text).map Char.toLower = ".%2e".toList ∨
        (encodeURIComponent text).map Char.toLower = "%2e.".toList ∨
        (encodeURIComponent text).map Char.toLower = "%2e%2e".toList := by
      have hmem := List.contains_iff_mem.mp h
      rw [← String.toList_ofList (l := (encodeURIComponent text).map Char.toLower)]
      simp only [List.mem_cons, List.not_mem_nil, or_false] at hmem
      rcases hmem with h | h | h | h
      · exact .inl (congrArg String.toList h)
      · exact .inr (.inl (congrArg String.toList h))
      · exact .inr (.inr (.inl (congrArg String.toList h)))
      · exact .inr (.inr (.inr (congrArg String.toList h)))
    have hfirst : ∃ more, text = '.' :: more ∧
        ((encodeURIComponent more).map Char.toLower = ".".toList ∨
          (encodeURIComponent more).map Char.toLower = "%2e".toList) := by
      rcases hform with h | h | h | h
      · obtain ⟨more, htext, hmore⟩ := dot_of_encoded (.inl h)
        exact ⟨more, htext, .inl hmore⟩
      · obtain ⟨more, htext, hmore⟩ := dot_of_encoded (.inl h)
        exact ⟨more, htext, .inr hmore⟩
      · obtain ⟨more, htext, hmore⟩ := dot_of_encoded (.inr h)
        exact ⟨more, htext, .inl hmore⟩
      · obtain ⟨more, htext, hmore⟩ := dot_of_encoded (.inr h)
        exact ⟨more, htext, .inr hmore⟩
    obtain ⟨more, rfl, hmore⟩ := hfirst
    obtain ⟨last, rfl, hlast⟩ := dot_of_encoded hmore
    exact hdouble (congrArg ('.' :: '.' :: ·) (hnil hlast))

/-- A text without dots and escapes is no dot segment. -/
theorem stays_of_chars (h : ∀ c ∈ segment, isSegmentChar c = true)
    (hlower : ∀ c ∈ segment, (c.toLower != '.' && c.toLower != '%') = true) :
    StaysSegment segment := by
  have hnot : ∀ c ∈ segment.map Char.toLower, c ≠ '.' ∧ c ≠ '%' := by
    intro c hc
    obtain ⟨d, hd, rfl⟩ := List.mem_map.mp hc
    have hboth := hlower d hd
    rwa [Bool.and_eq_true, bne_iff_ne, bne_iff_ne] at hboth
  have hform : ∀ form : String, (form.toList.contains '.' || form.toList.contains '%') = true →
      String.ofList (segment.map Char.toLower) ≠ form := by
    intro form hmark heq
    rw [← heq, String.toList_ofList] at hmark
    rcases Bool.or_eq_true_iff.mp hmark with hdot | hescape
    · exact (hnot _ (List.contains_iff_mem.mp hdot)).1 rfl
    · exact (hnot _ (List.contains_iff_mem.mp hescape)).2 rfl
  refine ⟨h, ?_, ?_⟩
  · rw [Bool.eq_false_iff]
    intro hsingle
    rcases Bool.or_eq_true_iff.mp hsingle with hin | hin
    · exact hform _ (by decide) (List.mem_singleton.mp (List.contains_iff_mem.mp hin))
    · exact hform _ (by decide) (List.mem_singleton.mp (List.contains_iff_mem.mp hin))
  · rw [Bool.eq_false_iff]
    intro hdouble
    have hin := List.contains_iff_mem.mp hdouble
    simp only [List.mem_cons, List.not_mem_nil, or_false] at hin
    rcases hin with heq | heq | heq | heq
    · exact hform _ (by decide) heq
    · exact hform _ (by decide) heq
    · exact hform _ (by decide) heq
    · exact hform _ (by decide) heq

theorem stays_of_isDigit (h : ∀ c ∈ segment, c.isDigit = true) : StaysSegment segment := by
  have hall : ∀ {p : Char → Bool}, ((List.range 128).all fun n =>
      !(Char.ofNat n).isDigit || p (Char.ofNat n)) = true → ∀ c ∈ segment, p c = true := by
    intro p hp c hc
    refine of_ascii (fun d hd => ascii_of_isAlphanum ?_) hp (h c hc)
    rw [Char.isAlphanum, hd, Bool.or_true]
  exact stays_of_chars (hall (by decide)) (@hall (fun c => c.toLower != '.' && c.toLower != '%')
    (by decide))

end Segments

end Urls
end Lib
