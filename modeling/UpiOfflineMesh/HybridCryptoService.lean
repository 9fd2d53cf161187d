import UpiOfflineMesh.Js.Base64
import UpiOfflineMesh.Models

/-!
# Hybrid encryption

The wire format of `src/crypto/hybridCryptoService.js`: a JSON instruction sealed
with AES-GCM, in front of it the session key under RSA-OAEP, and the whole as
Base64 text. The primitives of `node:crypto` and of `JSON` are parameters; the
layout, the Base64 text and the constructor of the instruction are modelled.
-/

namespace UpiOfflineMesh

open Js

/-- What the ingestion pipeline asks of its crypto service. -/
structure CryptoService where
  /-- The idempotency key of a submitted ciphertext. -/
  hashCiphertext : String → String
  /-- The instruction inside a submitted ciphertext, or the error thrown. -/
  decrypt : String → Except Error PaymentInstruction

/-- The primitives that the service uses, for one server key pair. Random input is explicit. -/
structure NodeCrypto where
  /-- RSA-OAEP under the server's public key, with the padding's randomness. -/
  publicEncrypt : (randomness aesKey : Bytes) → Bytes
  /-- RSA-OAEP under the server's private key; none when it throws. -/
  privateDecrypt : Bytes → Option Bytes
  /-- AES-256-GCM sealing: ciphertext and authentication tag. -/
  gcmSeal : (aesKey iv plaintext : Bytes) → Bytes × Bytes
  /-- AES-256-GCM opening; none when key or tag are refused. -/
  gcmOpen : (aesKey iv aesCiphertext authTag : Bytes) → Option Bytes
  /-- The hexadecimal SHA-256 digest of a text. -/
  sha256Hex : String → String
  /-- `JSON.stringify(data)`. -/
  stringify : Value → String
  /-- `JSON.parse(text)`. -/
  parseJson : String → Except Error Value
  /-- `buffer.toString('utf8')` of bytes that are not valid UTF-8. -/
  replacementText : Bytes → String

/-- Opening inverts sealing, for a 256-bit session key and for a payload sealed
with it, and the fields have the fixed lengths that the wire format relies on. -/
structure NodeCrypto.Lawful (node : NodeCrypto) : Prop where
  privateDecrypt_publicEncrypt : ∀ randomness aesKey, aesKey.length = 32 →
    node.privateDecrypt (node.publicEncrypt randomness aesKey) = some aesKey
  length_publicEncrypt : ∀ randomness aesKey, aesKey.length = 32 →
    (node.publicEncrypt randomness aesKey).length = 256
  gcmOpen_gcmSeal : ∀ aesKey iv plaintext, aesKey.length = 32 → iv.length = 12 →
    node.gcmOpen aesKey iv (node.gcmSeal aesKey iv plaintext).1
      (node.gcmSeal aesKey iv plaintext).2 = some plaintext
  length_authTag : ∀ aesKey iv plaintext, aesKey.length = 32 → iv.length = 12 →
    (node.gcmSeal aesKey iv plaintext).2.length = 16

/-- A 2048-bit RSA key produces exactly 256 bytes of ciphertext. -/
def rsaEncryptedKeyBytes : ℕ := 256

def gcmIvBytes : ℕ := 12

def gcmTagBytes : ℕ := 16

/-- `Buffer.from(text, 'utf8')`. -/
def utf8Bytes (text : String) : Bytes := text.toUTF8.data.toList

/-- `buffer.toString('utf8')`. -/
def utf8Text (node : NodeCrypto) (bytes : Bytes) : String :=
  (String.fromUTF8? ⟨bytes.toArray⟩).getD (node.replacementText bytes)

@[simp] theorem utf8Text_utf8Bytes (node : NodeCrypto) (text : String) :
    utf8Text node (utf8Bytes text) = text := by
  have hbytes : (⟨(utf8Bytes text).toArray⟩ : ByteArray) = text.toByteArray := by
    simp [utf8Bytes]
  rw [utf8Text, hbytes, String.fromUTF8?, dif_pos text.isValidUTF8, Option.getD_some]
  rfl

/-- `buffer.subarray(start, stop)`. -/
def subarray (bytes : Bytes) (start stop : ℕ) : Bytes := (bytes.take stop).drop start

theorem length_subarray (bytes : Bytes) (start stop : ℕ) :
    (subarray bytes start stop).length = min stop bytes.length - start := by
  simp [subarray]

/-- The wire package: `[RSA key][IV][AES ciphertext][auth tag]`. -/
def pack (node : NodeCrypto) (randomness aesKey iv plaintext : Bytes) : Bytes :=
  node.publicEncrypt randomness aesKey ++ iv ++ (node.gcmSeal aesKey iv plaintext).1 ++
    (node.gcmSeal aesKey iv plaintext).2

/-- `encrypt(instruction)` with the random bytes it draws. The argument may be any
object, an instruction or not. -/
def encrypt (node : NodeCrypto) (randomness aesKey iv : Bytes) (instruction : Value) : String :=
  toBase64 (pack node randomness aesKey iv (utf8Bytes (node.stringify instruction)))

/-- The instruction inside a wire package: length check, unpacking, key
recovery, authenticated opening, parsing, construction. -/
def decryptBytes (node : NodeCrypto) (all : Bytes) : Except Error PaymentInstruction :=
  if all.length < rsaEncryptedKeyBytes + gcmIvBytes + gcmTagBytes then
    .error ⟨"Ciphertext payload is truncated or too short to be valid"⟩
  else
    let encryptedAesKey := subarray all 0 rsaEncryptedKeyBytes
    let iv := subarray all rsaEncryptedKeyBytes (rsaEncryptedKeyBytes + gcmIvBytes)
    let aesCiphertext :=
      subarray all (rsaEncryptedKeyBytes + gcmIvBytes) (all.length - gcmTagBytes)
    let authTag := subarray all (all.length - gcmTagBytes) all.length
    match node.privateDecrypt encryptedAesKey with
    | none => .error ⟨"error:02000079:rsa routines::oaep decoding error"⟩
    | some aesKey =>
      match node.gcmOpen aesKey iv aesCiphertext authTag with
      | none => .error ⟨"Unsupported state or unable to authenticate data"⟩
      | some plaintext => do
        let parsed ← node.parseJson (utf8Text node plaintext)
        PaymentInstruction.new parsed

/-- `decrypt(base64Ciphertext)`. -/
def decrypt (node : NodeCrypto) (base64Ciphertext : String) : Except Error PaymentInstruction :=
  decryptBytes node (fromBase64 base64Ciphertext)

/-- The service as the server runs it: the idempotency key is the digest of the
*text*, while the payment is read from the decoded *bytes*. -/
def hybridCryptoService (node : NodeCrypto) : CryptoService where
  hashCiphertext := node.sha256Hex
  decrypt := decrypt node

/-! ### Unpacking -/

/-- The four fields of a package with a 256-byte key, a 12-byte IV and a 16-byte tag. -/
theorem subarray_fields {encryptedAesKey iv aesCiphertext authTag all : Bytes}
    (hkey : encryptedAesKey.length = 256) (hiv : iv.length = 12) (htag : authTag.length = 16)
    (hall : all = encryptedAesKey ++ iv ++ aesCiphertext ++ authTag) :
    subarray all 0 256 = encryptedAesKey ∧ subarray all 256 (256 + 12) = iv ∧
      subarray all (256 + 12) (all.length - 16) = aesCiphertext ∧
      subarray all (all.length - 16) all.length = authTag := by
  have hlength : all.length - 16 = (encryptedAesKey ++ iv ++ aesCiphertext).length := by
    simp only [hall, List.length_append]
    omega
  refine ⟨?_, ?_, ?_, ?_⟩
  · rw [subarray, hall, List.append_assoc, List.append_assoc, List.drop_zero, ← hkey,
      List.take_left']
    rfl
  · rw [subarray, hall, List.append_assoc, List.take_left' (by simp [hkey, hiv]), ← hkey,
      List.drop_left']
    rfl
  · rw [subarray, hlength, hall, List.take_left' rfl, List.drop_left' (by simp [hkey, hiv])]
  · rw [subarray, hlength, List.take_length, hall, List.drop_left' rfl]

/-- **Unpacking inverts packing:** what `decrypt` parses is what was sealed. -/
theorem decryptBytes_pack {node : NodeCrypto} (hnode : node.Lawful) {randomness aesKey iv : Bytes}
    (haesKey : aesKey.length = 32) (hiv : iv.length = 12) (plaintext : Bytes) :
    decryptBytes node (pack node randomness aesKey iv plaintext) =
      node.parseJson (utf8Text node plaintext) >>= PaymentInstruction.new := by
  have hkey := hnode.length_publicEncrypt randomness aesKey haesKey
  have htag := hnode.length_authTag aesKey iv plaintext haesKey hiv
  obtain ⟨hfield, hfieldIv, hfieldCiphertext, hfieldTag⟩ :=
    subarray_fields hkey hiv htag (Eq.refl (pack node randomness aesKey iv plaintext))
  have hlong : ¬(pack node randomness aesKey iv plaintext).length <
      rsaEncryptedKeyBytes + gcmIvBytes + gcmTagBytes := by
    simp only [pack, List.length_append, rsaEncryptedKeyBytes, gcmIvBytes, gcmTagBytes]
    omega
  rw [decryptBytes, if_neg hlong]
  simp only [rsaEncryptedKeyBytes, gcmIvBytes, gcmTagBytes, hfield, hfieldIv, hfieldCiphertext,
    hfieldTag, hnode.privateDecrypt_publicEncrypt _ _ haesKey, hnode.gcmOpen_gcmSeal _ _ _ haesKey hiv]

/-- Decrypting what was encrypted parses its own JSON text. -/
theorem decrypt_encrypt {node : NodeCrypto} (hnode : node.Lawful) {randomness aesKey iv : Bytes}
    (haesKey : aesKey.length = 32) (hiv : iv.length = 12) (instruction : Value) :
    decrypt node (encrypt node randomness aesKey iv instruction) =
      node.parseJson (node.stringify instruction) >>= PaymentInstruction.new := by
  rw [decrypt, encrypt, fromBase64_toBase64, decryptBytes_pack hnode haesKey hiv,
    utf8Text_utf8Bytes]

end UpiOfflineMesh
