import UpiOfflineMesh.WirePackage

/-!
# The sender's phone

`createPacket` of `src/services/demoService.js`: what the sender's phone does offline.
It builds the instruction, encrypts it for the server and wraps the text into a packet.
All but the TTL of such a packet passes the checks of `MeshPacket.validate`.
-/

namespace UpiOfflineMesh

open Js

/-- What the phone draws for one packet: random ids and bytes, and the clock. -/
structure Draw where
  nonce : String
  signedAt : ℤ
  /-- The randomness of the RSA padding. -/
  randomness : Bytes
  aesKey : Bytes
  iv : Bytes
  packetId : String
  createdAt : ℤ
  aesKey_length : aesKey.length = 32
  iv_length : iv.length = gcmIvBytes
  /-- A random UUID has characters. -/
  packetId_ne_empty : packetId ≠ ""

/-- `createPacket(senderVpa, receiverVpa, amount, pin, ttl)`. -/
def createPacket (node : NodeCrypto) (draw : Draw) (senderVpa receiverVpa : Value) (amount : Number)
    (pin : String) (ttl : Number := .fin 5) : MeshPacket :=
  let instruction := PaymentInstruction.ofFields senderVpa receiverVpa (.num amount)
    (.str (node.sha256Hex pin)) (.str draw.nonce) (.num (.fin draw.signedAt))
  let ciphertext := encrypt node draw.randomness draw.aesKey draw.iv instruction.record
  ⟨draw.packetId, ttl, .fin draw.createdAt, ciphertext⟩

/-- The instruction that such a packet carries. -/
def instructionOf (node : NodeCrypto) (draw : Draw) (senderVpa receiverVpa : Value)
    (amount : Number) (pin : String) : PaymentInstruction :=
  .ofFields senderVpa receiverVpa (.num amount) (.str (node.sha256Hex pin)) (.str draw.nonce)
    (.num (.fin draw.signedAt))

section

variable {node : NodeCrypto} {draw : Draw} {senderVpa receiverVpa : Value} {amount ttl : Number}
  {pin : String}

@[simp] theorem ttl_createPacket :
    (createPacket node draw senderVpa receiverVpa amount pin ttl).ttl = ttl := rfl

theorem ciphertext_createPacket :
    (createPacket node draw senderVpa receiverVpa amount pin ttl).ciphertext =
      encrypt node draw.randomness draw.aesKey draw.iv
        (instructionOf node draw senderVpa receiverVpa amount pin).record := rfl

/-- What the phone encrypts the server decrypts, if `JSON.parse` reads its record back. -/
theorem decrypt_createPacket (hnode : node.Lawful)
    (hjson : node.parseJson
        (node.stringify (instructionOf node draw senderVpa receiverVpa amount pin).record) =
      .ok (instructionOf node draw senderVpa receiverVpa amount pin).record) :
    decrypt node (createPacket node draw senderVpa receiverVpa amount pin ttl).ciphertext =
      .ok (instructionOf node draw senderVpa receiverVpa amount pin) := by
  rw [ciphertext_createPacket, decrypt_encrypt hnode draw.aesKey_length draw.iv_length, hjson]
  exact PaymentInstruction.new_record _

/-- An encrypted instruction is never the empty text: at least the IV is in it. -/
theorem encrypt_ne_empty (instruction : Value) :
    encrypt node draw.randomness draw.aesKey draw.iv instruction ≠ "" := by
  intro hempty
  have hbytes := congrArg (fun text => (fromBase64 text).length) hempty
  have hnone : (fromBase64 "").length = 0 := by decide
  have hiv := draw.iv_length
  simp only [encrypt, fromBase64_toBase64, hnone, pack, List.length_append, gcmIvBytes]
    at hbytes hiv
  omega

/-- **Only the TTL is at risk:** a packet of the demo service is well formed as soon as
its TTL is not negative. -/
theorem wellFormed_createPacket :
    (createPacket node draw senderVpa receiverVpa amount pin ttl).WellFormed ↔
      ttl.lt (.fin 0) = false := by
  constructor
  · intro h
    exact h.ttl
  · intro h
    exact ⟨draw.packetId_ne_empty, h, encrypt_ne_empty _⟩

end

end UpiOfflineMesh
