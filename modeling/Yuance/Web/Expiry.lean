import Yuance.Lib.Calendar
import Yuance.Tokens.Limits
import Yuance.Web.Access

/-!
# Yuance.Web.Expiry

When an access token stops being accepted. `normalize_expires_at` checks the alphabet of what the
owner wrote and stores it nearly as it is; the four queries compare it with `datetime('now')` as
text, and the empty text means never.

* `Denotes`: a stored text is the text of a moment up to the day, the minute or the second.
* `before_denoted`: `datetime('now')` comes before such a text exactly until its moment.
* `Writes`: the owner wrote that moment.
* `token_expires_when_written`: the token expires at some moment exactly if the owner wrote one.
-/

namespace Yuance
namespace Web

open Lib Platform
open Tokens (Secrets Draw Moment CreateApiTokenInput createToken normalizeExpiresAt hashToken
  ApiTokenRow tokenHead generateToken eqIgnoreAsciiCase)

/-! ## Texts of a moment -/

/-- How far a moment is written out. -/
inductive Precision where
  | day
  | minute
  | second

namespace Precision

def seconds : Precision → Int
  | day => 86400
  | minute => 60
  | second => 1

/-- `YYYY-MM-DD`, `YYYY-MM-DD HH:MM` or `YYYY-MM-DD HH:MM:SS`. -/
def text : Precision → Int → List Char
  | day, moment => dayText moment
  | minute, moment => dayText moment ++ minuteText moment
  | second, moment => datetimeText moment

/-- What is left out. -/
def rest : Precision → Int → List Char
  | day, moment => minuteText moment ++ secondText moment
  | minute, moment => secondText moment
  | second, _ => []

variable {moment moment' : Int}

theorem text_append_rest (p : Precision) (moment : Int) :
    datetimeText moment = p.text moment ++ p.rest moment := by
  cases p with
  | day => exact datetimeText_eq moment
  | minute =>
    rw [datetimeText_eq, ← List.append_assoc]
    rfl
  | second => exact (List.append_nil _).symm

theorem text_length (p : Precision) (h : FourDigitYear moment) (h' : FourDigitYear moment') :
    (p.text moment).length = (p.text moment').length := by
  cases p with
  | day =>
    unfold text
    dsimp only
    rw [dayText_length h, dayText_length h']
  | minute =>
    unfold text
    dsimp only
    rw [List.length_append, List.length_append, dayText_length h, dayText_length h',
      minuteText_length, minuteText_length]
  | second =>
    unfold text
    dsimp only
    rw [datetimeText_eq, datetimeText_eq]
    simp only [List.length_append, dayText_length h, dayText_length h', minuteText_length,
      secondText_length]

/-- A moment of the same day, or the same minute, has the same text. -/
theorem text_floor (p : Precision) (moment : Int) :
    p.text (moment - moment % p.seconds) = p.text moment := by
  cases p with
  | day =>
    have hday : (moment - moment % 86400) / 86400 = moment / 86400 := by omega
    unfold text seconds dayText
    dsimp only
    rw [hday]
  | minute =>
    have hday : (moment - moment % 60) / 86400 = moment / 86400 := by omega
    have hhour : ((moment - moment % 60) % 86400).toNat / 3600 = (moment % 86400).toNat / 3600 := by
      omega
    have hminute : ((moment - moment % 60) % 86400).toNat / 60 % 60 =
        (moment % 86400).toNat / 60 % 60 := by
      omega
    unfold text seconds dayText minuteText
    dsimp only
    rw [hday, hhour, hminute]
  | second =>
    unfold seconds
    rw [Int.emod_one, Int.sub_zero]

/-- Of a whole day, or a whole minute, only zeros are left out. -/
theorem rest_whole (p : Precision) (h : moment % p.seconds = 0) : p.rest moment = p.rest 0 := by
  cases p with
  | day =>
    have hclock : moment % 86400 = 0 % 86400 := h
    unfold rest minuteText secondText
    dsimp only
    rw [hclock]
  | minute =>
    have hclock : moment % 60 = 0 := h
    have hsecond : (moment % 86400).toNat % 60 = ((0 : Int) % 86400).toNat % 60 := by omega
    unfold rest secondText
    dsimp only
    rw [hsecond]
  | second => rfl

theorem floor_fourDigit (p : Precision) (h : FourDigitYear moment) :
    FourDigitYear (moment - moment % p.seconds) := by
  unfold FourDigitYear at h ⊢
  cases p with
  | day =>
    change _ ≤ moment - moment % 86400 ∧ moment - moment % 86400 < _
    omega
  | minute =>
    change _ ≤ moment - moment % 60 ∧ moment - moment % 60 < _
    omega
  | second =>
    change _ ≤ moment - moment % 1 ∧ moment - moment % 1 < _
    omega

/-- A whole day, minute or second is before another moment if it begins before it. -/
theorem floor_lt_iff (p : Precision) (hwhole : moment' % p.seconds = 0) :
    moment - moment % p.seconds < moment' ↔ moment < moment' := by
  cases p with
  | day =>
    have hwhole : moment' % 86400 = 0 := hwhole
    change moment - moment % 86400 < moment' ↔ _
    omega
  | minute =>
    have hwhole : moment' % 60 = 0 := hwhole
    change moment - moment % 60 < moment' ↔ _
    omega
  | second =>
    change moment - moment % 1 < moment' ↔ _
    omega

end Precision

/-- The text of a moment in UTC, which may leave out the clock or the seconds if they are zero. -/
def Denotes (moment : Int) (text : List Char) : Prop :=
  FourDigitYear moment ∧ ∃ p : Precision, moment % p.seconds = 0 ∧ text = p.text moment

/-- What the owner wrote, white space around it left out, is the text of the moment with a space or
a `T` in it and any number of `Z` behind it. -/
def Writes (expiresAt : String) (moment : Int) : Prop :=
  ∃ text separator zones, Denotes moment text ∧ (separator = ' ' ∨ separator = 'T') ∧
    (trim expiresAt).toList =
      (text.map fun c => if c = ' ' then separator else c) ++ List.replicate zones 'Z'

variable {moment now : Int} {text : List Char}

theorem before_denoted (h : Denotes moment text) (hnow : FourDigitYear now) :
    datetimeText now < text ↔ now < moment := by
  obtain ⟨hyear, p, hwhole, rfl⟩ := h
  have hfloor := p.floor_fourDigit hnow
  have hcut : datetimeText now < p.text moment ↔ p.text now < p.text moment := by
    have hiff := append_lt_append_iff (@Precision.text_length _ _ p hnow hyear) (x := p.rest now)
      (y := [])
    rw [List.append_nil, ← p.text_append_rest] at hiff
    rw [hiff]
    simp
  have hwritten : datetimeText (now - now % p.seconds) < datetimeText moment ↔
      p.text (now - now % p.seconds) < p.text moment := by
    have hrest : p.rest (now - now % p.seconds) = p.rest moment := by
      rw [p.rest_whole hwhole, p.rest_whole]
      exact Int.emod_eq_zero_of_dvd (Int.dvd_self_sub_emod)
    rw [p.text_append_rest, p.text_append_rest moment, hrest,
      append_lt_append_iff (p.text_length hfloor hyear)]
    simp
  rw [hcut, ← p.text_floor now, ← hwritten, datetimeText_lt_iff hfloor hyear,
    p.floor_lt_iff hwhole]

/-! ## What is stored -/

/-- A character of a date or of a time. -/
def IsPlain (c : Char) : Prop := c.isDigit = true ∨ c = '-' ∨ c = ':'

theorem not_plain_space : ¬ IsPlain ' ' := by
  unfold IsPlain
  decide

theorem not_plain_t : ¬ IsPlain 'T' := by
  unfold IsPlain
  decide

theorem not_plain_z : ¬ IsPlain 'Z' := by
  unfold IsPlain
  decide

theorem plain_padded (width n : Nat) : ∀ c ∈ padded width n, IsPlain c :=
  fun c hc => .inl (List.all_eq_true.mp (padded_isDigit width n) c hc)

theorem plain_dayText (h : FourDigitYear moment) : ∀ c ∈ dayText moment, IsPlain c := by
  intro c hc
  unfold dayText at hc
  dsimp only at hc
  rw [yearText_of_fourDigit (fourDigitYear_iff.mp h)] at hc
  simp only [List.mem_append, List.mem_cons] at hc
  rcases hc with hc | rfl | hc | rfl | hc
  · exact plain_padded _ _ c hc
  · exact .inr (.inl rfl)
  · exact plain_padded _ _ c hc
  · exact .inr (.inl rfl)
  · exact plain_padded _ _ c hc

theorem plain_secondText (moment : Int) : ∀ c ∈ secondText moment, IsPlain c := by
  intro c hc
  unfold secondText at hc
  rcases List.mem_cons.mp hc with rfl | hc
  · exact .inr (.inr rfl)
  · exact plain_padded _ _ c hc

/-- The time of day behind the space. -/
theorem minuteText_plain (moment : Int) :
    ∃ time, minuteText moment = ' ' :: time ∧ ∀ c ∈ time, IsPlain c := by
  refine ⟨_, rfl, ?_⟩
  intro c hc
  simp only [List.mem_append, List.mem_cons] at hc
  rcases hc with hc | rfl | hc
  · exact plain_padded _ _ c hc
  · exact .inr (.inr rfl)
  · exact plain_padded _ _ c hc

/-- A date, or a date and a time with one space between. -/
theorem Denotes.shape (h : Denotes moment text) :
    ∃ date, (∀ c ∈ date, IsPlain c) ∧
      (text = date ∨ ∃ time, text = date ++ ' ' :: time ∧ ∀ c ∈ time, IsPlain c) := by
  obtain ⟨hyear, p, _, rfl⟩ := h
  obtain ⟨time, htime, hplain⟩ := minuteText_plain moment
  refine ⟨dayText moment, plain_dayText hyear, ?_⟩
  cases p with
  | day => exact .inl rfl
  | minute =>
    refine .inr ⟨time, ?_, hplain⟩
    rw [← htime]
    rfl
  | second =>
    refine .inr ⟨time ++ secondText moment, ?_, ?_⟩
    · rw [← List.cons_append, ← htime]
      exact datetimeText_eq moment
    · intro c hc
      rcases List.mem_append.mp hc with hc | hc
      · exact hplain c hc
      · exact plain_secondText moment c hc

/-- `replace('T', " ")`, of one character. -/
def spaced (c : Char) : Char := if c = 'T' then ' ' else c

theorem spaced_plain {c : Char} (h : IsPlain (spaced c)) : spaced c = c := by
  unfold spaced at h ⊢
  by_cases hc : c = 'T'
  · rw [if_pos hc] at h
    exact absurd h not_plain_space
  · exact if_neg hc

theorem eq_of_map_spaced {l text : List Char} (h : l.map spaced = text)
    (hplain : ∀ c ∈ text, IsPlain c) : l = text := by
  have hid : l.map spaced = l.map id := by
    refine List.map_congr_left fun c hc => spaced_plain (hplain _ ?_)
    rw [← h]
    exact List.mem_map_of_mem hc
  rw [← h, hid, List.map_id]

theorem map_separator {separator : Char} {l : List Char} (hplain : ∀ c ∈ l, IsPlain c) :
    (l.map fun c => if c = ' ' then separator else c) = l := by
  have hid : (l.map fun c => if c = ' ' then separator else c) = l.map id := by
    refine List.map_congr_left fun c hc => if_neg ?_
    rintro rfl
    exact not_plain_space (hplain _ hc)
  rw [hid, List.map_id]

/-- What is left in front of the `Z`s comes from the text with a space or a `T` in it. -/
theorem separated_of_spaced {l : List Char} (h : Denotes moment text)
    (hl : l.map spaced = text) : ∃ separator, (separator = ' ' ∨ separator = 'T') ∧
      l = text.map fun c => if c = ' ' then separator else c := by
  obtain ⟨date, hdate, rfl | ⟨time, rfl, htime⟩⟩ := h.shape
  · refine ⟨' ', .inl rfl, ?_⟩
    rw [map_separator hdate]
    exact eq_of_map_spaced hl hdate
  · obtain ⟨front, behind, rfl, hfront, hbehind⟩ := List.map_eq_append_iff.mp hl
    obtain ⟨separator, back, rfl, hseparator, hback⟩ := List.map_eq_cons_iff.mp hbehind
    refine ⟨separator, ?_, ?_⟩
    · unfold spaced at hseparator
      by_cases hc : separator = 'T'
      · exact .inr hc
      · rw [if_neg hc] at hseparator
        exact .inl hseparator
    · rw [List.map_append, List.map_cons, map_separator hdate, map_separator htime, if_pos rfl,
        eq_of_map_spaced hfront hdate, eq_of_map_spaced hback htime]

theorem spaced_of_separated {separator : Char} (h : Denotes moment text)
    (hseparator : separator = ' ' ∨ separator = 'T') :
    (text.map fun c => if c = ' ' then separator else c).map spaced = text := by
  have hspaced : spaced separator = ' ' := by
    rcases hseparator with rfl | rfl <;> decide
  have hplain {l : List Char} (hl : ∀ c ∈ l, IsPlain c) : l.map spaced = l := by
    have hid : l.map spaced = l.map id := by
      refine List.map_congr_left fun c hc => if_neg ?_
      rintro rfl
      exact not_plain_t (hl _ hc)
    rw [hid, List.map_id]
  obtain ⟨date, hdate, rfl | ⟨time, rfl, htime⟩⟩ := h.shape
  · rw [map_separator hdate, hplain hdate]
  · rw [List.map_append, List.map_cons, map_separator hdate, map_separator htime, if_pos rfl,
      List.map_append, List.map_cons, hspaced, hplain hdate, hplain htime]

theorem Denotes.not_zone (h : Denotes moment text) : ∀ c ∈ text, c ≠ 'Z' := by
  rintro c hc rfl
  obtain ⟨date, hdate, rfl | ⟨time, rfl, htime⟩⟩ := h.shape
  · exact not_plain_z (hdate _ hc)
  · rcases List.mem_append.mp hc with hc | hc
    · exact not_plain_z (hdate _ hc)
    · rcases List.mem_cons.mp hc with heq | hc
      · exact absurd heq (by decide)
      · exact not_plain_z (htime _ hc)

theorem rdropWhile_zones {l : List Char} (hl : ∀ c ∈ l, c ≠ 'Z') (zones : Nat) :
    (l ++ List.replicate zones 'Z').rdropWhile (· == 'Z') = l := by
  induction zones with
  | zero =>
    rw [List.replicate_zero, List.append_nil, List.rdropWhile_eq_self_iff]
    intro hne
    have hlast := hl _ (List.getLast_mem hne)
    simpa using hlast
  | succ zones ih =>
    rw [List.replicate_succ', ← List.append_assoc, List.rdropWhile_concat_pos _ _ _ rfl, ih]

/-- The stored text denotes what the owner wrote, and nothing else. -/
theorem stored_denotes {expiresAt stored : String}
    (hstored : normalizeExpiresAt expiresAt = .ok stored) (hwritten : trim expiresAt ≠ "") :
    Denotes moment stored.toList ↔ Writes expiresAt moment := by
  have hlist : stored.toList = ((trim expiresAt).toList.map spaced).rdropWhile (· == 'Z') := by
    unfold normalizeExpiresAt at hstored
    rw [if_neg hwritten] at hstored
    obtain ⟨_, _, hstored⟩ := bind_eq_ok.mp hstored
    rw [← Except.ok.inj hstored, String.toList_ofList]
    rfl
  constructor
  · intro h
    have hparts : ((trim expiresAt).toList.map spaced).rdropWhile (· == 'Z') ++
        ((trim expiresAt).toList.map spaced).rtakeWhile (· == 'Z') =
          (trim expiresAt).toList.map spaced := List.rdropWhile_append_rtakeWhile
    rw [← hlist] at hparts
    obtain ⟨front, behind, hsplit, hfront, hbehind⟩ := List.map_eq_append_iff.mp hparts.symm
    obtain ⟨separator, hseparator, hmap⟩ := separated_of_spaced h hfront
    refine ⟨stored.toList, separator, behind.length, h, hseparator, ?_⟩
    rw [hsplit, ← hmap]
    congr 1
    refine List.eq_replicate_iff.mpr ⟨rfl, fun c hc => ?_⟩
    have hz : spaced c = 'Z' := by
      have hmem : spaced c ∈ behind.map spaced := List.mem_map_of_mem hc
      rw [hbehind] at hmem
      simpa using List.mem_rtakeWhile_imp hmem
    unfold spaced at hz
    split at hz
    · exact absurd hz (by decide)
    · exact hz
  · rintro ⟨text, separator, zones, h, hseparator, hl⟩
    have hzones : (List.replicate zones 'Z').map spaced = List.replicate zones 'Z' :=
      List.map_replicate
    rw [hlist, hl, List.map_append, spaced_of_separated h hseparator, hzones,
      rdropWhile_zones h.not_zone]
    exact h

theorem Denotes.ne_nil (h : Denotes moment text) : text ≠ [] := by
  obtain ⟨hyear, p, _, rfl⟩ := h
  intro hnil
  have hday : dayText moment ≠ [] := by
    intro hempty
    have hlength := dayText_length hyear
    rw [hempty] at hlength
    cases hlength
  cases p with
  | day => exact hday hnil
  | minute => exact hday (List.append_eq_nil_iff.mp hnil).1
  | second =>
    have hsplit := datetimeText_eq moment
    rw [show datetimeText moment = [] from hnil] at hsplit
    exact hday (List.append_eq_nil_iff.mp hsplit.symm).1

/-! ## The token -/

/-- The time of a statement. -/
def datetimeNow (now : Int) : String := String.ofList (datetimeText now)

/-- The token with this secret is stored with an expiry at `moment`, and the four queries take it
for valid exactly before that moment. -/
structure ExpiresAt (S : Secrets) (db : Access) (rawToken : String) (userId moment : Int) :
    Prop where
  stored : ∀ t ∈ db.apiTokens, t.tokenHash = hashToken S rawToken →
    t.expiresAt ≠ "" ∧ Denotes moment t.expiresAt.toList
  authenticated : ∀ now, FourDigitYear now →
    ((db.authenticatedToken S (datetimeNow now) rawToken).isSome ↔ now < moment)
  scope : ∀ t ∈ db.apiTokens, t.tokenHash = hashToken S rawToken → ∀ now, FourDigitYear now →
    ∀ scope, (tokenHasScopeForUser S (datetimeNow now) db rawToken userId scope = true ↔
      now < moment ∧ t.scopes.contains scope = true)
  project : ∀ t ∈ db.apiTokens, t.tokenHash = hashToken S rawToken → ∀ now, FourDigitYear now →
    ∀ projectId, (tokenAllowsProject S (datetimeNow now) db rawToken userId projectId = true ↔
      now < moment ∧ (t.projectScope = "all" ∨ ∃ p, db.project projectId = some p ∧
        (projectScopeKeys t.projectScope).any (eqIgnoreAsciiCase · p.projectKey) = true))
  keys : ∀ t ∈ db.apiTokens, t.tokenHash = hashToken S rawToken → ∀ now, FourDigitYear now →
    tokenProjectScopeKeys S (datetimeNow now) db rawToken userId =
      if now < moment then
        if eqIgnoreAsciiCase (trim t.projectScope) "all" then none
        else some (projectScopeKeys t.projectScope)
      else some []

theorem executed {m : Moment} {s : Tokens.Statement} {db db' : Tokens.Db} {a : s.Answer}
    (h : Tokens.perform m s db = (db', .ok a)) : Tokens.execute m.now db s = (db', .ok a) := by
  unfold Tokens.perform at h
  split at h
  · cases h
  · exact h

/-- What the creation of a token leaves in the database. -/
theorem created_row {S : Secrets} {draw : Draw} {m : Moment} {userId : Int}
    {input : CreateApiTokenInput} {db db' : Tokens.Db} {summary : Tokens.ApiTokenSummary}
    {rawToken : String}
    (h : Call.solo Tokens.perform m (createToken S draw userId input) db =
      (db', .ok (.created summary rawToken))) :
    ∃ row : ApiTokenRow, normalizeExpiresAt input.expiresAt = .ok row.expiresAt ∧
      row.tokenHash = hashToken S rawToken ∧ row.userId = userId ∧ row.revokedAt = "" ∧
      hasHead tokenHead rawToken = true ∧ db'.apiTokens = db.apiTokens ++ [row] ∧
      ∀ t ∈ db.apiTokens, t.tokenHash ≠ row.tokenHash := by
  unfold createToken at h
  obtain ⟨_, name, hname, h₁⟩ := Call.solo_bind_ok.mp h
  obtain ⟨_, rfl⟩ := Call.solo_ofExcept_ok.mp hname
  obtain ⟨_, scopes, hscopes, h₂⟩ := Call.solo_bind_ok.mp h₁
  obtain ⟨_, rfl⟩ := Call.solo_ofExcept_ok.mp hscopes
  obtain ⟨_, projectScope, hproject, h₃⟩ := Call.solo_bind_ok.mp h₂
  obtain ⟨_, rfl⟩ := Call.solo_ofExcept_ok.mp hproject
  obtain ⟨_, expiresAt, hexpires, h₄⟩ := Call.solo_bind_ok.mp h₃
  obtain ⟨hstored, rfl⟩ := Call.solo_ofExcept_ok.mp hexpires
  obtain ⟨_, tokenCiphertext, hcipher, h₅⟩ := Call.solo_bind_ok.mp h₄
  obtain ⟨_, rfl⟩ := Call.solo_ofExcept_ok.mp hcipher
  obtain ⟨_, count, hcount, h₆⟩ := Call.solo_bind_ok.mp h₅
  obtain rfl := congrArg Prod.fst (executed (Call.solo_make_ok.mp hcount))
  obtain ⟨_, _, hroom, h₇⟩ := Call.solo_bind_ok.mp h₆
  obtain ⟨_, rfl⟩ := Call.solo_rejectIf_ok.mp hroom
  obtain ⟨_, tokenId, hinsert, h₈⟩ := Call.solo_bind_ok.mp h₇
  have hinsert := executed (Call.solo_make_ok.mp hinsert)
  obtain ⟨_, token, hread, h₉⟩ := Call.solo_bind_ok.mp h₈
  obtain ⟨_, found, hfound, hread₁⟩ := Call.solo_bind_ok.mp hread
  obtain rfl := congrArg Prod.fst (executed (Call.solo_make_ok.mp hfound))
  obtain ⟨_, _, hrow, hread₂⟩ := Call.solo_bind_ok.mp hread₁
  obtain ⟨_, rfl⟩ := Call.solo_okOr_ok.mp hrow
  obtain ⟨_, rfl⟩ := Call.solo_done_ok.mp hread₂
  obtain ⟨houtcome, rfl⟩ := Call.solo_done_ok.mp h₉
  obtain rfl := (Tokens.Outcome.created.inj houtcome).2
  change Tokens.Db.insertToken _ m.now _ = _ at hinsert
  unfold Tokens.Db.insertToken at hinsert
  split at hinsert
  · cases hinsert
  · rename_i hfree
    have hrows := congrArg (fun r => r.1.apiTokens) hinsert
    refine ⟨_, hstored, rfl, rfl, rfl, ?_, hrows.symm, ?_⟩
    · unfold hasHead generateToken
      rw [String.toList_append, List.isPrefixOf_iff_prefix]
      exact List.prefix_append _ _
    · intro t ht hsame
      refine hfree (.inr (List.any_eq_true.mpr ⟨t, ht, ?_⟩))
      exact beq_iff_eq.mpr hsame

/-- The token that was created, and no other, has its hash. -/
theorem find_created {rows : List ApiTokenRow} {row : ApiTokenRow} {p : ApiTokenRow → Bool}
    (hnew : ∀ t ∈ rows, t.tokenHash ≠ row.tokenHash)
    (hp : ∀ t, p t = true → t.tokenHash = row.tokenHash) :
    (rows ++ [row]).find? p = if p row then some row else none := by
  have hnone : rows.find? p = none := by
    rw [List.find?_eq_none]
    exact fun t ht hpt => hnew t ht (hp t hpt)
  rw [List.find?_append, hnone, Option.none_or, List.find?_singleton]

theorem isUsable_iff {t : ApiTokenRow} (hrevoked : t.revokedAt = "") (hne : t.expiresAt ≠ "")
    (h : Denotes moment t.expiresAt.toList) (hnow : FourDigitYear now) :
    Access.isUsable (datetimeNow now) t = decide (now < moment) := by
  have hlt : datetimeNow now < t.expiresAt ↔ now < moment := by
    unfold datetimeNow
    rw [String.lt_iff_toList_lt, String.toList_ofList]
    exact before_denoted h hnow
  unfold Access.isUsable
  rw [hrevoked, beq_false_of_ne hne, Bool.false_or]
  simp [hlt]

theorem expiresAt_created {S : Secrets} {db : Access} {rows : List ApiTokenRow} {row : ApiTokenRow}
    {rawToken : String} (hhead : hasHead tokenHead rawToken = true)
    (hrows : db.apiTokens = rows ++ [row]) (hnew : ∀ t ∈ rows, t.tokenHash ≠ row.tokenHash)
    (hhash : row.tokenHash = hashToken S rawToken) (hrevoked : row.revokedAt = "")
    (hactive : (db.user row.userId).any (·.active) = true)
    (hdenotes : Denotes moment row.expiresAt.toList) :
    ExpiresAt S db rawToken row.userId moment := by
  have hne : row.expiresAt ≠ "" := by
    intro hempty
    exact hdenotes.ne_nil (by rw [hempty]; rfl)
  have hrow : ∀ t ∈ db.apiTokens, t.tokenHash = hashToken S rawToken → t = row := by
    intro t ht hsame
    rw [hrows] at ht
    rcases List.mem_append.mp ht with ht | ht
    · exact absurd (hsame.trans hhash.symm) (hnew t ht)
    · exact List.mem_singleton.mp ht
  have htokenOf : ∀ now, FourDigitYear now →
      db.tokenOf S (datetimeNow now) rawToken row.userId =
        if now < moment then some row else none := by
    intro now hnow
    unfold Access.tokenOf
    rw [hrows, find_created hnew (by simp_all)]
    rw [isUsable_iff hrevoked hne hdenotes hnow, hhash]
    simp
  constructor
  · intro t ht hsame
    obtain rfl := hrow t ht hsame
    exact ⟨hne, hdenotes⟩
  · intro now hnow
    unfold Access.authenticatedToken
    rw [if_pos hhead, hrows, find_created hnew (by simp_all)]
    rw [isUsable_iff hrevoked hne hdenotes hnow, hhash, hactive]
    obtain ⟨u, hu⟩ : ∃ u, db.user row.userId = some u := by
      cases hu : db.user row.userId with
      | none =>
        rw [hu] at hactive
        cases hactive
      | some u => exact ⟨u, rfl⟩
    by_cases hlt : now < moment
    · simp [hlt, hu]
    · simp [hlt]
  · intro t ht hsame now hnow scope
    obtain rfl := hrow t ht hsame
    unfold tokenHasScopeForUser
    rw [htokenOf now hnow]
    by_cases hlt : now < moment
    · rw [if_pos hlt]
      simp [hlt]
    · rw [if_neg hlt]
      simp [hlt]
  · intro t ht hsame now hnow projectId
    obtain rfl := hrow t ht hsame
    unfold tokenAllowsProject
    rw [htokenOf now hnow]
    by_cases hlt : now < moment
    · rw [if_pos hlt]
      simp [hlt, Option.any_eq_true]
    · rw [if_neg hlt]
      simp [hlt]
  · intro t ht hsame now hnow
    obtain rfl := hrow t ht hsame
    unfold tokenProjectScopeKeys
    rw [htokenOf now hnow]
    by_cases hlt : now < moment
    · rw [if_pos hlt, if_pos hlt]
    · rw [if_neg hlt, if_neg hlt]

/-- A token that is created with an expiry expires at some moment, in the table and in the four
queries, exactly if what the owner wrote is a date or a date and time. -/
theorem token_expires_when_written (S : Secrets) (draw : Draw) (m : Moment) (userId : Int)
    (input : CreateApiTokenInput) (db db' : Tokens.Db) (summary : Tokens.ApiTokenSummary)
    (rawToken : String)
    (hcreated : Call.solo Tokens.perform m (createToken S draw userId input) db =
      (db', .ok (.created summary rawToken)))
    (hwritten : trim input.expiresAt ≠ "") (access : Access)
    (htokens : access.apiTokens = db'.apiTokens)
    (hactive : (access.user userId).any (·.active) = true) :
    (∃ moment, ExpiresAt S access rawToken userId moment) ↔
      ∃ moment, Writes input.expiresAt moment := by
  obtain ⟨row, hexpires, hhash, rfl, hrevoked, hhead, hrows, hnew⟩ := created_row hcreated
  rw [← htokens] at hrows
  refine exists_congr fun moment => ?_
  rw [← stored_denotes hexpires hwritten]
  constructor
  · intro h
    exact (h.stored row (by rw [hrows]; simp) hhash).2
  · exact expiresAt_created hhead hrows hnew hhash hrevoked hactive

/-! ## Two tokens -/

def oneUser : Tokens.Db where
  users := [⟨1, "alice", "Alice", true, false⟩]
  apiTokens := []
  nextApiToken := 1
  systemTokens := []
  nextSystemToken := 1

def expiring (expiresAt : String) : CreateApiTokenInput :=
  ⟨"cli", ["project:read"], "", expiresAt⟩

def creation (expiresAt : String) : Tokens.Db × Except AppError Tokens.Outcome :=
  Call.solo Tokens.perform Tokens.noon
    (createToken Tokens.plainSecrets (Tokens.drawOf 1) 1 (expiring expiresAt)) oneUser

/-- What the server knows behind the creation. -/
def accessOf (db : Tokens.Db) : Access where
  users := db.users
  apiTokens := db.apiTokens
  roles := []
  userRoles := []
  projects := []
  members := []

def isCreated : Except AppError Tokens.Outcome → Bool
  | .ok (.created _ _) => true
  | _ => false

theorem eq_created {expiresAt : String} (h : isCreated (creation expiresAt).2 = true) :
    ∃ db' summary rawToken, creation expiresAt = (db', .ok (.created summary rawToken)) := by
  rcases hr : creation expiresAt with ⟨db', outcome⟩
  rw [hr] at h
  unfold isCreated at h
  split at h
  · rename_i summary rawToken houtcome
    exact ⟨db', summary, rawToken, by rw [← houtcome]⟩
  · cases h

theorem token_expires_at_half_past_twelve :
    ∃ db' summary rawToken,
      creation " 2026-01-05T12:30Z" = (db', .ok (.created summary rawToken)) ∧
      ∃ moment, ExpiresAt Tokens.plainSecrets (accessOf db') rawToken 1 moment := by
  obtain ⟨db', summary, rawToken, hcreated⟩ : ∃ db' summary rawToken,
      creation " 2026-01-05T12:30Z" = (db', .ok (.created summary rawToken)) :=
    eq_created (by decide +kernel)
  have hactive : ((accessOf (creation " 2026-01-05T12:30Z").1).user 1).any (·.active) = true := by
    decide +kernel
  rw [hcreated] at hactive
  refine ⟨db', summary, rawToken, hcreated, ?_⟩
  refine (token_expires_when_written Tokens.plainSecrets (Tokens.drawOf 1) Tokens.noon 1
    (expiring " 2026-01-05T12:30Z") oneUser db' summary rawToken hcreated (by decide +kernel)
    (accessOf db') rfl hactive).mpr ?_
  exact ⟨1767616200, "2026-01-05 12:30".toList, 'T', 1,
    ⟨by decide, .minute, by decide, by decide +kernel⟩, .inr rfl, by decide +kernel⟩

/-- `Z` is stored as the empty text. -/
theorem token_with_zone_alone_never_expires :
    ∃ db' summary rawToken, creation "Z" = (db', .ok (.created summary rawToken)) ∧
      trim (expiring "Z").expiresAt ≠ "" ∧
      ¬ ∃ moment, ExpiresAt Tokens.plainSecrets (accessOf db') rawToken 1 moment := by
  obtain ⟨db', summary, rawToken, hcreated⟩ : ∃ db' summary rawToken,
      creation "Z" = (db', .ok (.created summary rawToken)) := eq_created (by decide +kernel)
  refine ⟨db', summary, rawToken, hcreated, by decide +kernel, ?_⟩
  rintro ⟨moment, h⟩
  obtain ⟨row, hexpires, hhash, _, _, _, hrows, _⟩ := created_row hcreated
  have hstored : normalizeExpiresAt (expiring "Z").expiresAt = .ok "" := by decide +kernel
  rw [hstored] at hexpires
  have hmem : row ∈ (accessOf db').apiTokens := by
    change row ∈ db'.apiTokens
    rw [hrows]
    exact List.mem_append_right _ List.mem_cons_self
  exact (h.stored row hmem hhash).1 (Except.ok.inj hexpires).symm

end Web
end Yuance
