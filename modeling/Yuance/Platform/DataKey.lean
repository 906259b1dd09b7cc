import Yuance.Platform.Crypto

/-!
# Yuance.Platform.DataKey

The envelope of a file's data key: `seal_data_key` and `open_data_key` of
`api/src/platform/file_crypto.rs`.

* `openDataKey_sealDataKey`: the key is found again under the same associated data.
-/

namespace Yuance
namespace Platform

open Lib

/-- AES-256-GCM and HKDF-SHA256 under the salt and the info of the file keys. -/
structure FilePrims where
  aead : Aead
  fileKey : String → FixedBytes 32

namespace FileKeys

def keyVersion : String := "v1"

def fileMasterCipher (P : FilePrims) (fileMasterKey : String) : Except AppError (FixedBytes 32) := do
  rejectIf (byteLen (trim fileMasterKey) < 16) (.config "文件主密钥长度不能少于 16 个字符")
  pure (P.fileKey fileMasterKey)

/-- `seal_data_key`, with the nonce that is drawn. -/
def sealDataKey (P : FilePrims) (nonce : FixedBytes 12) (fileMasterKey : String)
    (dataKey : FixedBytes 32) (aad : Bytes) : Except AppError String := do
  let key ← fileMasterCipher P fileMasterKey
  pure (keyVersion ++ ":" ++ Base64.encode Base64.standard nonce.val ++ ":"
    ++ Base64.encode Base64.standard (P.aead.encrypt key nonce aad dataKey.val))

/-- Thirty-two bytes as the key they are. -/
def asKey (bytes : Bytes) : Option (FixedBytes 32) :=
  if h : bytes.length = 32 then some ⟨bytes, h⟩ else none

def openDataKey (P : FilePrims) (fileMasterKey envelope : String) (aad : Bytes) :
    Except AppError (FixedBytes 32) := do
  let (version, nonce, payload) := Crypto.splitParts envelope
  rejectIf (version ≠ keyVersion ∨ nonce = "" ∨ payload = "") (.crypto "文件密钥信封格式无效")
  let nonce ← okOr (Base64.decode Base64.standard nonce) (.crypto "文件密钥信封 nonce 无效")
  let nonce ← okOr (asNonce nonce) (.crypto "文件密钥信封 nonce 长度无效")
  let payload ← okOr (Base64.decode Base64.standard payload) (.crypto "文件密钥信封内容无效")
  let key ← fileMasterCipher P fileMasterKey
  let plaintext ← okOr (P.aead.decrypt key nonce aad payload) (.crypto "文件密钥信封解密失败")
  okOr (asKey plaintext) (.crypto "文件密钥长度无效")

variable {P : FilePrims} {nonce : FixedBytes 12} {fileMasterKey envelope : String}
  {dataKey : FixedBytes 32} {aad : Bytes}

theorem openDataKey_sealDataKey
    (h : sealDataKey P nonce fileMasterKey dataKey aad = .ok envelope) :
    openDataKey P fileMasterKey envelope aad = .ok dataKey := by
  obtain ⟨key, hkey, henvelope⟩ := bind_eq_ok.mp h
  rw [pure_ok] at henvelope
  obtain rfl := Except.ok.inj henvelope
  have hnonce : Base64.encode Base64.standard nonce.val ≠ "" := by
    refine Base64.encode_ne_empty fun h0 => ?_
    have hlength := nonce.property
    rw [h0] at hlength
    cases hlength
  have hpayload : Base64.encode Base64.standard (P.aead.encrypt key nonce aad dataKey.val) ≠ "" := by
    refine Base64.encode_ne_empty fun h0 => ?_
    have hlength := P.aead.length_encrypt key nonce aad dataKey.val
    rw [h0, List.length_nil] at hlength
    omega
  have hparts := Crypto.splitParts_encoded nonce.val (P.aead.encrypt key nonce aad dataKey.val)
  have hversion : Crypto.ciphertextHead = keyVersion := rfl
  rw [hversion] at hparts
  unfold openDataKey
  rw [hparts]
  dsimp only
  rw [rejectIf_neg (by
      rintro (hne | hne | hne)
      · exact hne rfl
      · exact hnonce hne
      · exact hpayload hne), ok_bind,
    Base64.decode_encode Base64.standard_lawful, okOr_some, ok_bind, asNonce_val, okOr_some, ok_bind,
    Base64.decode_encode Base64.standard_lawful, okOr_some, ok_bind, hkey, ok_bind,
    P.aead.decrypt_encrypt, okOr_some, ok_bind, asKey, dif_pos dataKey.property]
  rfl

end FileKeys

end Platform
end Yuance
