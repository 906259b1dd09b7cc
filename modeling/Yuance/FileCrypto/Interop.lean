import Yuance.FileCrypto.Server
import Yuance.FileCrypto.Cli
import Yuance.FileCrypto.Desktop
import Yuance.FileCrypto.Browser

/-!
# Yuance.FileCrypto.Interop

Every encoder of the file format against every decoder. The encoders all produce `Format.encoded`
and the decoders all open it, so sixteen pairs follow from eight facts.
-/

namespace Yuance
namespace FileCrypto
namespace Interop

open Lib

/-- Every decoder returns `plaintext` from `ciphertext`; the command-line client is told the true size
and digest. -/
structure Decodes (P : Prims) (key : Key) (fileObjectId : Int) (plaintext ciphertext : Bytes) :
    Prop where
  server : Server.decryptCiphertextFull P key fileObjectId ciphertext = .ok plaintext
  cli : Cli.decryptFile P ciphertext fileObjectId key plaintext.length
    (hexEncode (P.sha.hash plaintext)) = .ok plaintext
  desktop : Desktop.decryptFile P key fileObjectId ciphertext = .ok plaintext
  browser : Browser.decryptFile P key.val fileObjectId ciphertext = .ok plaintext

variable {P : Prims} {key : Key} {fileObjectId : Int} {nonce : Nat → Nonce} {plaintext : Bytes}

theorem decodes_encoded (hid : 1 ≤ fileObjectId) (hmax : fileObjectId ≤ 2 ^ 53 - 1)
    (h : Format.count plaintext.length < 2 ^ 32) :
    Decodes P key fileObjectId plaintext (Format.encoded P key fileObjectId nonce plaintext) :=
  ⟨Server.decryptCiphertextFull_encoded h, Cli.decryptFile_encoded hid h,
    Desktop.decryptFile_encoded hid hmax h, Browser.decryptFile_encoded h⟩

/-- The bytes that any encoder produces are opened by every decoder. The server, the command-line
client and the desktop application produce bytes for every plaintext; the browser does so while the
nonce table fits one `getRandomValues` call. -/
theorem encoders_interoperate (P : Prims) (key : Key) (fileObjectId : Int) (plaintext : Bytes)
    (nonce : Nat → Nonce) (hid : 1 ≤ fileObjectId) (hmax : fileObjectId ≤ 2 ^ 53 - 1)
    (h : Format.count plaintext.length < 2 ^ 32) :
    (∃ c, Server.encryptPlaintext P key fileObjectId plaintext nonce = .ok c
        ∧ Decodes P key fileObjectId plaintext c)
    ∧ (∀ sizes modified fuel, Format.count plaintext.length + 2 ≤ fuel →
        ∃ c, Cli.streamedFile P (Cli.unchanged plaintext modified) fileObjectId key
            (Cli.hashFile P sizes plaintext) nonce fuel = some (.ok c)
          ∧ Decodes P key fileObjectId plaintext c)
    ∧ (∃ c, Desktop.encryptFile P key fileObjectId plaintext nonce = .ok c
        ∧ Decodes P key fileObjectId plaintext c)
    ∧ (∀ c, Browser.encryptFile P key.val fileObjectId plaintext nonce = .ok c →
        Decodes P key fileObjectId plaintext c)
    ∧ (Format.count plaintext.length * 12 ≤ 65536 →
        ∃ c, Browser.encryptFile P key.val fileObjectId plaintext nonce = .ok c) := by
  have hd := @decodes_encoded P key fileObjectId nonce plaintext hid hmax h
  refine ⟨⟨_, Server.encryptPlaintext_eq h, hd⟩, ?_, ⟨_, Desktop.encryptFile_eq hid hmax h, hd⟩,
    ?_, ?_⟩
  · intro sizes modified fuel hf
    exact ⟨_, Cli.streamedFile_unchanged hid h sizes hf, hd⟩
  · intro c hc
    rw [Browser.encryptFile_eq] at hc
    split at hc
    · cases hc
    · obtain rfl := Except.ok.inj hc
      exact hd
  · intro hq
    rw [Browser.encryptFile_eq, if_neg (by omega)]
    exact ⟨_, rfl⟩

/-- A two-byte file under the cipher that only appends a tag. -/
theorem encoders_interoperate_two_bytes :
    (1 : Int) ≤ 7 ∧ Format.count [104, 105].length < 2 ^ 32
      ∧ ∃ c, Server.encryptPlaintext ⟨Aead.plain, Digest.const⟩ ⟨zeros 32, rfl⟩ 7 [104, 105]
          (fun _ => ⟨zeros 12, rfl⟩) = .ok c
        ∧ Decodes ⟨Aead.plain, Digest.const⟩ ⟨zeros 32, rfl⟩ 7 [104, 105] c :=
  ⟨by decide, by decide, (encoders_interoperate ⟨Aead.plain, Digest.const⟩ ⟨zeros 32, rfl⟩ 7
    [104, 105] (fun _ => ⟨zeros 12, rfl⟩) (by decide) (by decide) (by decide)).1⟩

end Interop
end FileCrypto
end Yuance
