import Yuance.Devices.Sessions
import Yuance.Lib.Framing

/-!
# Yuance.Devices.RecoveryAad

What the sealed credentials of a rotation and of an exchange are bound to: `refresh_rotation_aad`
and `exchange_result_aad` of `api/src/domains/device_sessions.rs`. The fields are arbitrary text,
with zero bytes and what looks like a length in them.

* `structuredAad_inj`: the domain and the fields are told by the bytes.
* `aad_injective`: no two scopes share their bytes.
-/

namespace Yuance
namespace Devices
namespace Sessions

open Lib

/-- The arguments of `refresh_rotation_aad`. -/
structure RotationScope where
  familyId : String
  deviceId : String
  serverInstanceId : String
  sourceGeneration : Int64
  transactionId : String
  sourceRefreshTokenHash : String
  deriving DecidableEq

def RotationScope.aad (scope : RotationScope) : Bytes :=
  refreshRotationAad scope.familyId scope.deviceId scope.serverInstanceId
    scope.sourceGeneration.toInt scope.transactionId scope.sourceRefreshTokenHash

/-- The arguments of `exchange_result_aad`. -/
structure ExchangeScope where
  authorizationId : String
  serverInstanceId : String
  transactionId : String
  deviceCodeHash : String
  deriving DecidableEq

def ExchangeScope.aad (scope : ExchangeScope) : Bytes :=
  exchangeResultAad scope.authorizationId scope.serverInstanceId scope.transactionId
    scope.deviceCodeHash

/-- Texts whose lengths are a `u32`. -/
def TextsFit (texts : List String) : Prop := ∀ text ∈ texts, byteLen text < 2 ^ 32

def RotationScope.Fits (scope : RotationScope) : Prop :=
  TextsFit [scope.familyId, scope.deviceId, scope.serverInstanceId, scope.transactionId,
    scope.sourceRefreshTokenHash]

def ExchangeScope.Fits (scope : ExchangeScope) : Prop :=
  TextsFit [scope.authorizationId, scope.serverInstanceId, scope.transactionId,
    scope.deviceCodeHash]

/-! ## Fields -/

section Fields

variable {domain domain' : String} {fields fields' : List String}

theorem structuredAad_eq (domain : String) (fields : List String) :
    structuredAad domain fields = utf8 domain ++ 0 :: framed 4 (fields.map utf8) := by
  unfold structuredAad framed byteLen
  rw [List.flatMap_map]

theorem fieldsFit_of_textsFit (h : TextsFit fields) : FieldsFit 4 (fields.map utf8) := by
  intro field hfield
  obtain ⟨text, htext, rfl⟩ := List.mem_map.mp hfield
  exact h text htext

/-- The domain and the fields are told by the bytes. -/
theorem structuredAad_inj (hdomain : 0 ∉ utf8 domain) (hdomain' : 0 ∉ utf8 domain')
    (hfields : TextsFit fields) (hfields' : TextsFit fields')
    (h : structuredAad domain fields = structuredAad domain' fields') :
    domain = domain' ∧ fields = fields' := by
  rw [structuredAad_eq, structuredAad_eq] at h
  obtain ⟨hlabel, hrest⟩ := labelled_inj hdomain hdomain' h
  refine ⟨utf8_injective hlabel, ?_⟩
  have hbytes := framed_injective (by decide) (fieldsFit_of_textsFit hfields)
    (fieldsFit_of_textsFit hfields') hrest
  exact (List.map_injective_iff.mpr fun s t => utf8_injective) hbytes

end Fields

/-! ## Generations -/

theorem byteLen_le (text : String) : byteLen text ≤ 4 * text.toList.length := by
  unfold byteLen utf8
  induction text.toList with
  | nil => exact Nat.le_refl 0
  | cons c rest ih =>
    have hone := c.utf8Size_le_four
    rw [List.flatMap_cons, List.length_append, String.length_utf8EncodeChar, List.length_cons]
    omega

/-- The text of a generation has twenty characters at most. -/
theorem generation_fits (generation : Int64) : byteLen (toString generation.toInt) < 2 ^ 32 := by
  have hlow := generation.le_toInt
  have hhigh := generation.toInt_lt
  have hdigits : ∀ n : Nat, n < 10 ^ 20 → (Nat.repr n).toList.length ≤ 20 := by
    intro n hn
    rw [Nat.toList_repr]
    exact (Nat.length_toDigits_le_iff (by decide) (by decide)).mpr hn
  have hchars : (toString generation.toInt).toList.length ≤ 21 := by
    rw [Int.toString_eq_repr, Int.repr_eq_if]
    split
    · have hlength := hdigits generation.toInt.toNat (by omega)
      omega
    · have hlength := hdigits (-generation.toInt).toNat (by omega)
      rw [String.toList_append, List.length_append]
      have hsign : "-".toList.length = 1 := rfl
      omega
  have hbytes := byteLen_le (toString generation.toInt)
  omega

/-- A generation is told by its text. -/
theorem generation_inj {g g' : Int64} (h : toString g.toInt = toString g'.toInt) : g = g' := by
  rw [Int.toString_eq_repr, Int.toString_eq_repr] at h
  exact Int64.toInt_inj.mp (Int.repr_injective h)

/-! ## Scopes -/

theorem RotationScope.fields_fit {scope : RotationScope} (h : scope.Fits) :
    TextsFit [scope.familyId, scope.deviceId, scope.serverInstanceId,
      toString scope.sourceGeneration.toInt, scope.transactionId,
      scope.sourceRefreshTokenHash] := by
  intro text htext
  by_cases hgeneration : text = toString scope.sourceGeneration.toInt
  · rw [hgeneration]
    exact generation_fits scope.sourceGeneration
  · refine h text ?_
    simp only [List.mem_cons, List.not_mem_nil, or_false] at htext ⊢
    tauto

theorem RotationScope.aad_inj {a b : RotationScope} (ha : a.Fits) (hb : b.Fits)
    (h : a.aad = b.aad) : a = b := by
  obtain ⟨-, hfields⟩ := structuredAad_inj (by decide) (by decide) (fields_fit ha)
    (fields_fit hb) h
  simp only [List.cons.injEq, and_true] at hfields
  obtain ⟨hfamily, hdevice, hserver, hgeneration, htransaction, hhash⟩ := hfields
  cases a
  cases b
  simp only [RotationScope.mk.injEq]
  exact ⟨hfamily, hdevice, hserver, generation_inj hgeneration, htransaction, hhash⟩

theorem ExchangeScope.aad_inj {a b : ExchangeScope} (ha : a.Fits) (hb : b.Fits)
    (h : a.aad = b.aad) : a = b := by
  obtain ⟨-, hfields⟩ := structuredAad_inj (by decide) (by decide) ha hb h
  simp only [List.cons.injEq, and_true] at hfields
  obtain ⟨hauthorization, hserver, htransaction, hhash⟩ := hfields
  cases a
  cases b
  simp only [ExchangeScope.mk.injEq]
  exact ⟨hauthorization, hserver, htransaction, hhash⟩

/-- The domains differ before the first field. -/
theorem rotation_aad_ne_exchange_aad (a : RotationScope) (b : ExchangeScope) :
    a.aad ≠ b.aad := by
  intro h
  unfold RotationScope.aad ExchangeScope.aad refreshRotationAad exchangeResultAad at h
  rw [structuredAad_eq, structuredAad_eq] at h
  obtain ⟨hdomain, -⟩ := labelled_inj (by decide) (by decide) h
  exact absurd (utf8_injective hdomain) (by decide)

/-- No two scopes share their bytes: neither two of one kind nor two of both. -/
theorem aad_injective :
    (∀ a b : RotationScope, a.Fits → b.Fits → a.aad = b.aad → a = b) ∧
      (∀ a b : ExchangeScope, a.Fits → b.Fits → a.aad = b.aad → a = b) ∧
      ∀ (a : RotationScope) (b : ExchangeScope), a.aad ≠ b.aad :=
  ⟨fun _ _ => RotationScope.aad_inj, fun _ _ => ExchangeScope.aad_inj,
    rotation_aad_ne_exchange_aad⟩

/-- A zero byte and a length inside a field do not make it two. -/
theorem aad_of_shifted_fields :
    (RotationScope.mk "family\x00\x00\x00\x06" "device" "server" 3 "tx" "hash").aad ≠
      (RotationScope.mk "family" "\x00\x00\x00\x06device" "server" 3 "tx" "hash").aad := by
  intro h
  have hsame := aad_injective.1 _ _ (by unfold RotationScope.Fits TextsFit; decide +kernel)
    (by unfold RotationScope.Fits TextsFit; decide +kernel) h
  exact absurd (congrArg RotationScope.familyId hsame) (by decide)

end Sessions
end Devices
end Yuance
