import Mathlib

/-!
# Yuance.Lib.Urls

The URL parser of the web platform, for the URLs that have a server: those of a special scheme other
than `file`. How a host is read is a parameter.

* `parseUrl`: a string read on its own or against a base, state by state.
* `addSegments`: what the path state makes of the segments, and `surplus`, the `..` that have
  nothing above them.
* `addSegments_append`: a path read below other segments.
* `urlencodedParse`, `urlencodedEncode`: the entries of a query.
-/

namespace Lib
namespace Urls

/-! ## Characters -/

/-- C0 controls and the space: left out at both ends of a URL. -/
def isStripped (c : Char) : Bool := c.toNat ≤ 0x20

/-- Tabs and line ends: left out everywhere. -/
def isBreak (c : Char) : Bool := c = '\t' || c = '\n' || c = '\r'

def isSlash (c : Char) : Bool := c = '/' || c = '\\'

/-- Where the path ends. -/
def isEnd (c : Char) : Bool := c = '?' || c = '#'

def inAuthority (c : Char) : Bool := !isSlash c && !isEnd c

def isC0Encoded (c : Char) : Bool := c.toNat < 0x20 || 0x7e < c.toNat

def isQueryEncoded (c : Char) : Bool :=
  isC0Encoded c || c = ' ' || c = '"' || c = '#' || c = '<' || c = '>' || c.toNat = 0x27

def isPathEncoded (c : Char) : Bool :=
  isC0Encoded c || c = ' ' || c = '"' || c = '#' || c = '<' || c = '>' || c = '?' || c = '^' ||
    c.toNat = 0x60 || c.toNat = 0x7b || c.toNat = 0x7d

def isFragmentEncoded (c : Char) : Bool :=
  isC0Encoded c || c = ' ' || c = '"' || c = '<' || c = '>' || c.toNat = 0x60

def hexDigit (n : Nat) : Char := Char.ofNat (if n < 10 then 0x30 + n else 0x37 + n)

def percentEncode (isEncoded : Char → Bool) (text : List Char) : List Char :=
  text.flatMap fun c =>
    if isEncoded c then
      (String.utf8EncodeChar c).flatMap fun b =>
        ['%', hexDigit (b.toNat / 16), hexDigit (b.toNat % 16)]
    else [c]

/-! ## Paths -/

def isSingleDot (segment : List Char) : Bool :=
  ["."].contains (String.ofList (segment.map Char.toLower)) ||
    ["%2e"].contains (String.ofList (segment.map Char.toLower))

def isDoubleDot (segment : List Char) : Bool :=
  ["..", ".%2e", "%2e.", "%2e%2e"].contains (String.ofList (segment.map Char.toLower))

/-- A segment with a slash behind it. -/
def enter (path : List (List Char)) (segment : List Char) : List (List Char) :=
  if isDoubleDot segment then path.dropLast
  else if isSingleDot segment then path
  else path ++ [segment]

/-- The last segment. -/
def finish (path : List (List Char)) (segment : List Char) : List (List Char) :=
  if isDoubleDot segment then path.dropLast ++ [[]]
  else if isSingleDot segment then path ++ [[]]
  else path ++ [segment]

/-- The segments of the path state. -/
def addSegments : List (List Char) → List (List Char) → List (List Char)
  | path, [] => path
  | path, [segment] => finish path segment
  | path, segment :: next :: segments => addSegments (enter path segment) (next :: segments)

/-- How many `..` of the segments have nothing above them, `depth` segments down. -/
def surplus : Nat → List (List Char) → Nat
  | _, [] => 0
  | 0, segment :: segments =>
    if isDoubleDot segment then surplus 0 segments + 1
    else if isSingleDot segment then surplus 0 segments
    else surplus 1 segments
  | depth + 1, segment :: segments =>
    if isDoubleDot segment then surplus depth segments
    else if isSingleDot segment then surplus (depth + 1) segments
    else surplus (depth + 2) segments

/-- The segments up to the query. -/
def segmentsOf (text : List Char) : List (List Char) :=
  ((text.takeWhile fun c => !isEnd c).splitOnP isSlash).map (percentEncode isPathEncoded)

def queryOf (text : List Char) : Option (List Char) :=
  match text.dropWhile fun c => !isEnd c with
  | '?' :: rest => some (percentEncode isQueryEncoded (rest.takeWhile (· != '#')))
  | _ => none

def fragmentOf (text : List Char) : Option (List Char) :=
  match text.dropWhile (· != '#') with
  | '#' :: rest => some (percentEncode isFragmentEncoded rest)
  | _ => none

section Segments

variable {path front segments others : List (List Char)} {segment : List Char}

theorem finish_eq (path : List (List Char)) (segment : List Char) :
    finish path segment =
      enter path segment ++ if isDoubleDot segment || isSingleDot segment then [[]] else [] := by
  unfold finish enter
  by_cases hdouble : isDoubleDot segment = true
  · rw [if_pos hdouble, if_pos hdouble, hdouble]
    rfl
  · rw [if_neg hdouble, if_neg hdouble, Bool.eq_false_iff.mpr hdouble, Bool.false_or]
    by_cases hsingle : isSingleDot segment = true
    · rw [if_pos hsingle, if_pos hsingle, if_pos hsingle]
    · rw [if_neg hsingle, if_neg hsingle, if_neg hsingle, List.append_nil]

/-- Whether the segment goes up from where there is nothing. -/
def goesOver (path : List (List Char)) (segment : List Char) : Nat :=
  if isDoubleDot segment ∧ path = [] then 1 else 0

theorem goesOver_nil (h : isDoubleDot segment = true) : goesOver [] segment = 1 :=
  if_pos ⟨h, rfl⟩

theorem goesOver_eq_zero (h : isDoubleDot segment = true → path ≠ []) :
    goesOver path segment = 0 :=
  if_neg fun ⟨hdouble, hpath⟩ => h hdouble hpath

theorem surplus_cons (path : List (List Char)) (segment : List Char)
    (segments : List (List Char)) :
    surplus path.length (segment :: segments) =
      goesOver path segment + surplus (enter path segment).length segments := by
  by_cases hdouble : isDoubleDot segment = true
  · unfold enter
    rw [if_pos hdouble]
    cases path with
    | nil =>
      rw [goesOver_nil hdouble, List.length_nil, surplus, if_pos hdouble, List.dropLast_nil,
        List.length_nil, Nat.add_comm]
    | cons first rest =>
      rw [goesOver_eq_zero fun _ => List.cons_ne_nil _ _, List.length_cons, surplus,
        if_pos hdouble, List.length_dropLast, List.length_cons, Nat.add_sub_cancel, Nat.zero_add]
  · rw [goesOver_eq_zero fun h => absurd h hdouble, Nat.zero_add]
    unfold enter
    rw [if_neg hdouble]
    cases path with
    | nil =>
      rw [List.length_nil, surplus, if_neg hdouble]
      split
      · rfl
      · rfl
    | cons first rest =>
      rw [List.length_cons, surplus, if_neg hdouble]
      split
      · rfl
      · rw [List.length_append, List.length_cons, List.length_singleton]

/-- A segment read below others takes away one of them at most. -/
theorem enter_append (front path : List (List Char)) (segment : List Char) :
    enter (front ++ path) segment =
      front.take (front.length - goesOver path segment) ++ enter path segment := by
  by_cases hdouble : isDoubleDot segment = true
  · unfold enter
    rw [if_pos hdouble, if_pos hdouble]
    by_cases hpath : path = []
    · rw [hpath, goesOver_nil hdouble, List.append_nil, List.dropLast_nil, List.append_nil,
        List.dropLast_eq_take]
    · rw [goesOver_eq_zero fun _ => hpath, Nat.sub_zero, List.take_length,
        List.dropLast_append_of_ne_nil hpath]
  · rw [goesOver_eq_zero fun h => absurd h hdouble, Nat.sub_zero, List.take_length]
    unfold enter
    rw [if_neg hdouble, if_neg hdouble]
    split
    · rfl
    · rw [List.append_assoc]

/-- A path read below other segments: they stay in front of it, but for those that its surplus `..`
take away. -/
theorem addSegments_below (front path segments : List (List Char)) :
    addSegments (front ++ path) segments =
      front.take (front.length - surplus path.length segments) ++ addSegments path segments := by
  induction segments generalizing front path with
  | nil =>
    have hnone : surplus path.length [] = 0 := by
      unfold surplus
      rfl
    rw [hnone, Nat.sub_zero, List.take_length]
    rfl
  | cons segment segments ih =>
    rw [surplus_cons]
    cases segments with
    | nil =>
      have hnone : surplus (enter path segment).length [] = 0 := by
        unfold surplus
        rfl
      rw [hnone, Nat.add_zero]
      show finish (front ++ path) segment = _ ++ finish path segment
      rw [finish_eq, finish_eq, enter_append, List.append_assoc]
    | cons next rest =>
      show addSegments (enter (front ++ path) segment) (next :: rest) =
        _ ++ addSegments (enter path segment) (next :: rest)
      rw [enter_append, ih, List.take_take, List.length_take]
      congr 2
      omega

/-- The segments before the last ones are entered. -/
theorem addSegments_append (path : List (List Char)) (h : segments ≠ []) :
    addSegments path (others ++ segments) = addSegments (others.foldl enter path) segments := by
  induction others generalizing path with
  | nil => rfl
  | cons segment others ih =>
    obtain ⟨next, rest, hnext⟩ := List.exists_cons_of_ne_nil
      (List.append_ne_nil_of_right_ne_nil others h)
    have hrest := ih (enter path segment)
    rw [hnext] at hrest
    rw [List.cons_append, hnext]
    exact hrest

end Segments

/-! ## Servers -/

/-- The schemes with their ports. -/
def defaultPort (scheme : List Char) : Option Nat :=
  [("http", 80), ("https", 443), ("ws", 80), ("wss", 443), ("ftp", 21)].lookup
    (String.ofList scheme)

/-- The host state: the host up to a colon that is not in brackets, and what stands behind it. -/
def splitPort : Bool → List Char → List Char × Option (List Char)
  | _, [] => ([], none)
  | inBrackets, c :: rest =>
    if c = ':' && !inBrackets then ([], some rest)
    else
      let (host, port) :=
        splitPort (if c = '[' then true else if c = ']' then false else inBrackets) rest
      (c :: host, port)

/-- The port state. -/
def readPort (scheme : List Char) (text : List Char) : Option (Option Nat) :=
  if text = [] then some none
  else if text.all Char.isDigit then
    let port := Nat.ofDigitChars 10 text 0
    if port > 65535 then none
    else if defaultPort scheme = some port then some none
    else some (some port)
  else none

/-- The host and the port, behind the last `@`. -/
def readAuthority (readHost : List Char → Option (List Char)) (scheme text : List Char) :
    Option (List Char × Option Nat) :=
  let (host, port) := splitPort false (text.rtakeWhile (· != '@'))
  if host = [] then none
  else
    match readHost host, readPort scheme (port.getD []) with
    | some host, some port => some (host, port)
    | _, _ => none

/-! ## URLs -/

structure Origin where
  scheme : List Char
  host : List Char
  port : Option Nat
deriving DecidableEq

/-- The server as it stands in a URL. -/
def Origin.authority (origin : Origin) : List Char :=
  origin.host ++ match origin.port with
    | some port => ':' :: (toString port).toList
    | none => []

def Origin.text (origin : Origin) : List Char := origin.scheme ++ "://".toList ++ origin.authority

structure Url where
  origin : Origin
  path : List (List Char)
  query : Option (List Char)
  fragment : Option (List Char)
deriving DecidableEq

def Url.search (url : Url) : List Char :=
  match url.query with
  | some (c :: rest) => '?' :: c :: rest
  | _ => []

def Url.hash (url : Url) : List Char :=
  match url.fragment with
  | some (c :: rest) => '#' :: c :: rest
  | _ => []

/-- The path state. -/
def readPath (origin : Origin) (text : List Char) : Url :=
  ⟨origin, addSegments [] (segmentsOf text), queryOf text, fragmentOf text⟩

/-- The path start state. -/
def pathStart : List Char → List Char
  | c :: rest => if isSlash c then rest else c :: rest
  | [] => []

/-- The authority state and those behind it. -/
def readServer (readHost : List Char → Option (List Char)) (scheme text : List Char) :
    Option Url :=
  (readAuthority readHost scheme (text.takeWhile inAuthority)).map fun (host, port) =>
    readPath ⟨scheme, host, port⟩ (pathStart (text.dropWhile inAuthority))

/-- The relative state. -/
def readRelative (readHost : List Char → Option (List Char)) (base : Url) (text : List Char) :
    Option Url :=
  match text with
  | [] => some { base with fragment := none }
  | c :: rest =>
    if isSlash c then
      if (rest.head?.map isSlash).getD false then
        readServer readHost base.origin.scheme (rest.dropWhile isSlash)
      else some (readPath base.origin rest)
    else if c = '?' then some ⟨base.origin, base.path, queryOf text, fragmentOf text⟩
    else if c = '#' then some ⟨base.origin, base.path, base.query, fragmentOf text⟩
    else some (readPath base.origin text)

def isSchemeChar (c : Char) : Bool := c.isAlphanum || c = '+' || c = '-' || c = '.'

/-- The scheme states. -/
def splitScheme (text : List Char) : Option (List Char × List Char) :=
  if (text.head?.map Char.isAlpha).getD false then
    match text.dropWhile isSchemeChar with
    | ':' :: rest => some ((text.takeWhile isSchemeChar).map Char.toLower, rest)
    | _ => none
  else none

/-- What is read of a string. -/
def clean (input : List Char) : List Char :=
  ((input.rdropWhile isStripped).dropWhile isStripped).filter fun c => !isBreak c

/-- What is read of a string with something in front of it. -/
def cleanBehind (input : List Char) : List Char :=
  (input.rdropWhile isStripped).filter fun c => !isBreak c

/-- The URL of a string, with the base that it is relative to. A URL of another scheme has no
server, and comes to nothing as a failure does. -/
def parseUrl (readHost : List Char → Option (List Char)) (base : Option Url)
    (input : List Char) : Option Url :=
  match splitScheme (clean input), base with
  | some (scheme, rest), base =>
    if defaultPort scheme = none then none
    else
      match base with
      | some base =>
        if base.origin.scheme = scheme then readRelative readHost base rest
        else readServer readHost scheme (rest.dropWhile isSlash)
      | none => readServer readHost scheme (rest.dropWhile isSlash)
  | none, some base => readRelative readHost base (clean input)
  | none, none => none

section Reading

variable {readHost : List Char → Option (List Char)} {front value text rest scheme : List Char}

theorem rdropWhile_append_of_not {p : Char → Bool} (h : ∀ c ∈ front, p c = false) :
    (front ++ value).rdropWhile p = front ++ value.rdropWhile p := by
  induction value using List.reverseRecOn with
  | nil =>
    rw [List.append_nil, List.rdropWhile_nil, List.append_nil, List.rdropWhile_eq_self_iff]
    exact fun hne => Bool.eq_false_iff.mp (h _ (List.getLast_mem hne))
  | append_singleton value last ih =>
    rw [← List.append_assoc, List.rdropWhile_concat, List.rdropWhile_concat, ih]
    split
    · rfl
    · rw [List.append_assoc]

theorem isBreak_of_not_isStripped {c : Char} (h : isStripped c = false) : isBreak c = false := by
  by_contra hbreak
  have hcases : (c = '\t' ∨ c = '\n') ∨ c = '\r' := by
    simpa only [isBreak, Bool.or_eq_true, decide_eq_true_eq, Bool.not_eq_false] using hbreak
  rcases hcases with (rfl | rfl) | rfl
  · exact absurd h (by decide)
  · exact absurd h (by decide)
  · exact absurd h (by decide)

/-- Nothing is left out between a clean text and what stands behind it. -/
theorem clean_append (hne : front ≠ []) (h : ∀ c ∈ front, isStripped c = false) :
    clean (front ++ value) = front ++ cleanBehind value := by
  unfold clean cleanBehind
  have hhead : (front ++ value.rdropWhile isStripped).dropWhile isStripped =
      front ++ value.rdropWhile isStripped := by
    obtain ⟨c, rest, rfl⟩ := List.exists_cons_of_ne_nil hne
    exact List.dropWhile_cons_of_neg (Bool.eq_false_iff.mp (h c List.mem_cons_self))
  rw [rdropWhile_append_of_not h, hhead, List.filter_append]
  congr 1
  refine List.filter_eq_self.mpr fun c hc => ?_
  rw [isBreak_of_not_isStripped (h c hc)]
  rfl

/-- A kind of characters without the four that end a server's name. -/
theorem inAuthority_of {p : Char → Bool} {c : Char} (h : p c = true)
    (hnone : (['/', '\\', '?', '#'].all fun d => !p d) = true) : inAuthority c = true := by
  by_contra hnot
  have hcases : (c = '/' ∨ c = '\\') ∨ c = '?' ∨ c = '#' := by
    simpa only [inAuthority, isSlash, isEnd, Bool.and_eq_true, Bool.not_eq_true',
      Bool.or_eq_false_iff, decide_eq_false_iff_not, not_and_or, not_not] using hnot
  have hmem : c ∈ ['/', '\\', '?', '#'] := by
    rcases hcases with (rfl | rfl) | rfl | rfl
    · decide
    · decide
    · decide
    · decide
  have hnot := List.all_eq_true.mp hnone c hmem
  rw [h] at hnot
  exact Bool.false_ne_true hnot

theorem inAuthority_of_isStripped {c : Char} (h : isStripped c = true) : inAuthority c = true :=
  inAuthority_of h (by decide)

theorem inAuthority_of_isSchemeChar {c : Char} (h : isSchemeChar c = true) :
    inAuthority c = true :=
  inAuthority_of h (by decide)

/-- At the front only characters are left out that could stand in a server's name. -/
theorem cleanBehind_eq (value : List Char) :
    ∃ front, cleanBehind value = front ++ clean value ∧ ∀ c ∈ front, inAuthority c = true := by
  refine ⟨((value.rdropWhile isStripped).takeWhile isStripped).filter fun c => !isBreak c, ?_, ?_⟩
  · unfold cleanBehind clean
    rw [← List.filter_append, List.takeWhile_append_dropWhile]
  · intro c hc
    exact inAuthority_of_isStripped (List.mem_takeWhile_imp (List.mem_of_mem_filter hc))

theorem splitScheme_eq (h : splitScheme text = some (scheme, rest)) :
    ∃ front, text = front ++ rest ∧ ∀ c ∈ front, inAuthority c = true := by
  unfold splitScheme at h
  split at h
  · split at h
    · rename_i hrest
      obtain ⟨_, rfl⟩ := Prod.mk.inj (Option.some.inj h)
      refine ⟨text.takeWhile isSchemeChar ++ [':'], ?_, ?_⟩
      · rw [List.append_assoc, List.singleton_append, ← hrest, List.takeWhile_append_dropWhile]
      · intro c hc
        rcases List.mem_append.mp hc with hname | hcolon
        · exact inAuthority_of_isSchemeChar (List.mem_takeWhile_imp hname)
        · obtain rfl := List.mem_singleton.mp hcolon
          decide
    · cases h
  · cases h

/-- A slash ends a segment. -/
theorem segmentsOf_append (hfront : ∀ c ∈ front, inAuthority c = true) {c : Char}
    (hc : isSlash c = true) :
    segmentsOf (front ++ c :: rest) =
      percentEncode isPathEncoded front :: segmentsOf rest := by
  have hparts : ∀ d ∈ front, isSlash d = false ∧ isEnd d = false := by
    intro d hd
    simpa only [inAuthority, Bool.and_eq_true, Bool.not_eq_true'] using hfront d hd
  have hend : isEnd c = false := by
    by_contra hnot
    have hcases : c = '?' ∨ c = '#' := by
      simpa only [isEnd, Bool.or_eq_true, decide_eq_true_eq, Bool.not_eq_false] using hnot
    rcases hcases with rfl | rfl
    · exact absurd hc (by decide)
    · exact absurd hc (by decide)
  have htake : (front ++ c :: rest).takeWhile (fun c => !isEnd c) =
      front ++ c :: rest.takeWhile fun c => !isEnd c := by
    rw [List.takeWhile_append_of_pos fun d hd => by rw [(hparts d hd).2]; rfl,
      List.takeWhile_cons_of_pos (by rw [hend]; rfl)]
  unfold segmentsOf
  rw [htake, List.splitOnP_append_cons_of_forall_mem (fun d hd => (hparts d hd).1) c hc]
  rfl

/-- Without a slash there is one segment. -/
theorem segmentsOf_eq_singleton
    (h : ∀ c ∈ text.takeWhile (fun c => !isEnd c), isSlash c = false) :
    segmentsOf text = [percentEncode isPathEncoded (text.takeWhile fun c => !isEnd c)] := by
  unfold segmentsOf
  rw [List.splitOnP_eq_singleton h]
  rfl

/-- What stands before the first slash, and what stands behind it; or there is no slash. -/
theorem split_slash (text : List Char) :
    (∃ front c rest, text = front ++ c :: rest ∧ (∀ d ∈ front, inAuthority d = true) ∧
        isSlash c = true) ∨
      ∀ c ∈ text.takeWhile (fun c => !isEnd c), isSlash c = false := by
  induction text with
  | nil => exact .inr fun _ h => nomatch h
  | cons c text ih =>
    by_cases hslash : isSlash c = true
    · exact .inl ⟨[], c, text, rfl, (fun _ h => nomatch h), hslash⟩
    · by_cases hend : isEnd c = true
      · refine .inr fun d hd => ?_
        rw [List.takeWhile_cons_of_neg (by rw [hend]; exact Bool.false_ne_true)] at hd
        nomatch hd
      · have hin : inAuthority c = true := by
          unfold inAuthority
          rw [Bool.eq_false_iff.mpr hslash, Bool.eq_false_iff.mpr hend]
          rfl
        rcases ih with ⟨front, d, rest, rfl, hfront, hd⟩ | hnone
        · refine .inl ⟨c :: front, d, rest, rfl, ?_, hd⟩
          intro e he
          rcases List.mem_cons.mp he with rfl | hmem
          · exact hin
          · exact hfront e hmem
        · refine .inr fun d hd => ?_
          rw [List.takeWhile_cons_of_pos (by rw [Bool.eq_false_iff.mpr hend]; rfl)] at hd
          rcases List.mem_cons.mp hd with rfl | hmem
          · exact Bool.eq_false_iff.mpr hslash
          · exact hnone d hmem

/-- A string behind an origin is read from the server's name on. -/
theorem parseUrl_behind {origin : Origin}
    (hscheme : origin.scheme = "https".toList ∨ origin.scheme = "http".toList)
    (hne : origin.authority ≠ [])
    (hplain : ∀ c ∈ origin.authority, inAuthority c = true ∧ isStripped c = false) :
    parseUrl readHost none (origin.text ++ value) =
      readServer readHost origin.scheme (origin.authority ++ cleanBehind value) := by
  have hclean : clean (origin.text ++ value) =
      origin.scheme ++ ':' :: '/' :: '/' :: (origin.authority ++ cleanBehind value) := by
    unfold Origin.text
    rw [clean_append]
    · rw [List.append_assoc, List.append_assoc]
      rfl
    · exact List.append_ne_nil_of_right_ne_nil _ hne
    · intro c hc
      rcases List.mem_append.mp hc with hstart | hname
      · have hall : ∀ front : List Char, front.all (fun c => !isStripped c) = true →
            c ∈ front → isStripped c = false := fun front hfront hmem =>
          by simpa only [Bool.not_eq_true'] using List.all_eq_true.mp hfront c hmem
        rcases hscheme with heq | heq
        · rw [heq] at hstart
          exact hall _ (by decide) hstart
        · rw [heq] at hstart
          exact hall _ (by decide) hstart
      · exact (hplain c hname).2
  have hsplit : splitScheme (clean (origin.text ++ value)) =
      some (origin.scheme, '/' :: '/' :: (origin.authority ++ cleanBehind value)) := by
    rw [hclean]
    rcases hscheme with heq | heq
    · rw [heq]
      rfl
    · rw [heq]
      rfl
  have hport : defaultPort origin.scheme ≠ none := by
    rcases hscheme with heq | heq
    · rw [heq]
      decide
    · rw [heq]
      decide
  obtain ⟨c, more, hmore⟩ := List.exists_cons_of_ne_nil hne
  have hslash : isSlash c = false := by
    have hc := (hplain c (hmore ▸ List.mem_cons_self)).1
    simp only [inAuthority, Bool.and_eq_true, Bool.not_eq_true'] at hc
    exact hc.1
  unfold parseUrl
  rw [hsplit]
  dsimp only
  rw [if_neg hport, List.dropWhile_cons_of_pos (by decide), List.dropWhile_cons_of_pos (by decide),
    hmore, List.cons_append, List.dropWhile_cons_of_neg (Bool.eq_false_iff.mp hslash)]

end Reading

/-! ## Queries -/

def hexValue (c : Char) : Option Nat :=
  if c.isDigit then some (c.toNat - 0x30)
  else if 'a' ≤ c.toLower ∧ c.toLower ≤ 'f' then some (c.toLower.toNat - 0x57)
  else none

def percentDecode : List Char → List UInt8
  | '%' :: a :: b :: rest =>
    match hexValue a, hexValue b with
    | some high, some low => (16 * high + low).toUInt8 :: percentDecode rest
    | _, _ => 0x25 :: percentDecode (a :: b :: rest)
  | c :: rest => String.utf8EncodeChar c ++ percentDecode rest
  | [] => []

/-- A name or a value of a query. -/
def decodeComponent (utf8Decode : List UInt8 → List Char) (text : List Char) : List Char :=
  utf8Decode (percentDecode (text.map fun c => if c = '+' then ' ' else c))

/-- The entries of a query. -/
def urlencodedParse (utf8Decode : List UInt8 → List Char) (query : List Char) :
    List (List Char × List Char) :=
  ((query.splitOnP (· == '&')).filter (· ≠ [])).map fun part =>
    (decodeComponent utf8Decode (part.takeWhile (· != '=')),
      decodeComponent utf8Decode ((part.dropWhile (· != '=')).drop 1))

def urlencodedEncode (text : List Char) : List Char :=
  text.flatMap fun c =>
    if c.isAlphanum || c = '*' || c = '-' || c = '.' || c = '_' then [c]
    else if c = ' ' then ['+']
    else percentEncode (fun _ => true) [c]

end Urls
end Lib
