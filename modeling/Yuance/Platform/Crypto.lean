import Yuance.Lib.Crypto
import Yuance.Lib.Text

/-!
# Yuance.Platform.Crypto

`encrypt_secret` and `decrypt_secret` of `api/src/platform/crypto.rs`, and the errors of the server.
The nonce is drawn by the caller of the model.

* `decryptSecret_encryptSecret`: decrypting under the same key and associated data.
* `decryptSecret_empty`: an erased ciphertext does not decrypt.
-/

namespace Yuance
namespace Platform

open Lib

/-- Errors of the server outside the device sessions. -/
inductive AppError where
  | unauthorized
  | badRequest (message : String)
  | notFound (message : String)
  | conflict (message : String)
  | forbidden (message : String)
  | invalidEnvironment (message : String)
  | config (message : String)
  | crypto (message : String)
  | passwordHash (message : String)
  | payloadTooLarge (message : String)
  /-- A panic of the handler. -/
  | panicked
  /-- A failed statement, such as one that breaks a uniqueness constraint. -/
  | storage
  deriving DecidableEq, Repr

/-- AES-256-GCM and HKDF-SHA256 under the salt and the info of the storage secrets. -/
structure SecretPrims where
  aead : Aead
  storageKey : String → FixedBytes 32

namespace Crypto

def ciphertextHead : String := "v1"

def cipher (P : SecretPrims) (masterKey : String) : Except AppError (FixedBytes 32) := do
  rejectIf (byteLen (trim masterKey) < 16)
    (.config "YUANCE_SECURITY_MASTER_KEY 长度不能少于 16 个字符")
  pure (P.storageKey masterKey)

def encryptSecret (P : SecretPrims) (nonce : FixedBytes 12) (masterKey plaintext : String)
    (aad : Bytes) : Except AppError String := do
  let key ← cipher P masterKey
  let ciphertext := P.aead.encrypt key nonce aad (utf8 plaintext)
  pure (ciphertextHead ++ ":" ++ Base64.encode Base64.standard nonce.val ++ ":"
    ++ Base64.encode Base64.standard ciphertext)

/-- `ciphertext.splitn(3, ':')`, an absent part being empty. -/
def splitParts (ciphertext : String) : String × String × String :=
  match splitOnce ':' ciphertext.toList with
  | (version, none) => (String.ofList version, "", "")
  | (version, some rest) =>
    match splitOnce ':' rest with
    | (nonce, none) => (String.ofList version, String.ofList nonce, "")
    | (nonce, some payload) => (String.ofList version, String.ofList nonce, String.ofList payload)

def decryptSecret (P : SecretPrims) (masterKey ciphertext : String) (aad : Bytes) :
    Except AppError String := do
  let (version, nonce, payload) := splitParts ciphertext
  rejectIf (version ≠ ciphertextHead ∨ nonce = "" ∨ payload = "") (.crypto "密文格式无效")
  let nonce ← okOr (Base64.decode Base64.standard nonce) (.crypto "密文 nonce 无效")
  let nonce ← okOr (asNonce nonce) (.crypto "密文 nonce 长度无效")
  let payload ← okOr (Base64.decode Base64.standard payload) (.crypto "密文内容无效")
  let key ← cipher P masterKey
  let plaintext ← okOr (P.aead.decrypt key nonce aad payload) (.crypto "解密失败")
  okOr (fromUtf8 plaintext) (.crypto "明文不是 UTF-8")

variable {P : SecretPrims} {nonce : FixedBytes 12} {masterKey plaintext ciphertext : String}
  {aad : Bytes}

theorem splitParts_encoded (a b : Bytes) :
    splitParts (ciphertextHead ++ ":" ++ Base64.encode Base64.standard a ++ ":"
      ++ Base64.encode Base64.standard b)
      = (ciphertextHead, Base64.encode Base64.standard a, Base64.encode Base64.standard b) := by
  have hl : (ciphertextHead ++ ":" ++ Base64.encode Base64.standard a ++ ":"
      ++ Base64.encode Base64.standard b).toList
      = "v1".toList ++ ':' :: (Base64.encodeChars Base64.standard a
        ++ ':' :: Base64.encodeChars Base64.standard b) := by
    simp [ciphertextHead, Base64.encode]
  have ha : ':' ∉ Base64.encodeChars Base64.standard a :=
    Base64.not_mem_encodeChars Base64.standard_digit_ne_colon (by decide) a
  have hv : ':' ∉ "v1".toList := by decide
  simp only [splitParts, hl, splitOnce_append hv, splitOnce_append ha]
  rfl

theorem decryptSecret_encryptSecret
    (h : encryptSecret P nonce masterKey plaintext aad = .ok ciphertext) :
    decryptSecret P masterKey ciphertext aad = .ok plaintext := by
  obtain ⟨key, hkey, hc⟩ := bind_eq_ok.mp h
  rw [pure_ok] at hc
  obtain rfl := Except.ok.inj hc
  have hn : Base64.encode Base64.standard nonce.val ≠ "" := by
    refine Base64.encode_ne_empty ?_
    intro h0
    have := nonce.property
    simp [h0] at this
  have hp : Base64.encode Base64.standard (P.aead.encrypt key nonce aad (utf8 plaintext)) ≠ "" := by
    refine Base64.encode_ne_empty ?_
    intro h0
    have := P.aead.length_encrypt key nonce aad (utf8 plaintext)
    simp [h0] at this
  have hg : ¬ (ciphertextHead ≠ ciphertextHead ∨ Base64.encode Base64.standard nonce.val = ""
      ∨ Base64.encode Base64.standard (P.aead.encrypt key nonce aad (utf8 plaintext)) = "") := by
    simp [hn, hp]
  unfold decryptSecret
  simp only [splitParts_encoded, rejectIf_neg hg, Base64.decode_encode Base64.standard_lawful,
    okOr_some, asNonce_val, hkey, P.aead.decrypt_encrypt, fromUtf8_utf8, ok_bind]

theorem trim_encryptSecret (h : encryptSecret P nonce masterKey plaintext aad = .ok ciphertext) :
    trim ciphertext ≠ "" := by
  obtain ⟨key, _, hc⟩ := bind_eq_ok.mp h
  rw [pure_ok] at hc
  obtain rfl := Except.ok.inj hc
  refine trim_ne_empty (c := 'v') ?_ (by decide)
  rw [String.toList_append, String.toList_append, String.toList_append, String.toList_append]
  rfl

theorem decryptSecret_empty : decryptSecret P masterKey "" aad = .error (.crypto "密文格式无效") := by
  have hs : splitParts "" = ("", "", "") := by decide
  unfold decryptSecret
  simp only [hs]
  rw [rejectIf_pos (by simp), error_bind]

end Crypto
end Platform
end Yuance
