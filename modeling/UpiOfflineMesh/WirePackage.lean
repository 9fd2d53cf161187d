import UpiOfflineMesh.Respelling

/-!
# Wire packages

Encoder and decoder fix the layout of a package independently, the one by
concatenation and the other by offsets from both ends. They agree at every length,
so decrypting undoes encrypting. The other way round, a text that decrypts denotes
the bytes of a sealed package; it need not be the text that `encrypt` writes for
them, because Base64 is read leniently.
-/

namespace UpiOfflineMesh

open Js InMemoryDb

/-! ### Unpacking -/

/-- The binary fields of a wire package. -/
structure WireFields where
  encryptedAesKey : Bytes
  iv : Bytes
  aesCiphertext : Bytes
  authTag : Bytes

/-- How `decrypt` cuts the bytes. -/
def unpack (all : Bytes) : WireFields where
  encryptedAesKey := subarray all 0 rsaEncryptedKeyBytes
  iv := subarray all rsaEncryptedKeyBytes (rsaEncryptedKeyBytes + gcmIvBytes)
  aesCiphertext := subarray all (rsaEncryptedKeyBytes + gcmIvBytes) (all.length - gcmTagBytes)
  authTag := subarray all (all.length - gcmTagBytes) all.length

/-- Everything after the length check works on the unpacked fields. -/
theorem decryptBytes_of_long {node : NodeCrypto} {all : Bytes} (h : 284 ≤ all.length) :
    decryptBytes node all =
      match node.privateDecrypt (unpack all).encryptedAesKey with
      | none => .error ⟨"error:02000079:rsa routines::oaep decoding error"⟩
      | some aesKey =>
        match node.gcmOpen aesKey (unpack all).iv (unpack all).aesCiphertext (unpack all).authTag with
        | none => .error ⟨"Unsupported state or unable to authenticate data"⟩
        | some plaintext =>
          node.parseJson (utf8Text node plaintext) >>= PaymentInstruction.new := by
  rw [decryptBytes, if_neg (by simp only [rsaEncryptedKeyBytes, gcmIvBytes, gcmTagBytes]; omega)]
  rfl

/-- The fields have 256, 12, `length - 284` and 16 bytes and are the whole package. -/
theorem unpack_fields {all : Bytes} (h : 284 ≤ all.length) :
    (unpack all).encryptedAesKey.length = 256 ∧ (unpack all).iv.length = 12 ∧
      (unpack all).aesCiphertext.length = all.length - 284 ∧ (unpack all).authTag.length = 16 ∧
      (unpack all).encryptedAesKey ++ (unpack all).iv ++ (unpack all).aesCiphertext ++
        (unpack all).authTag = all := by
  have hjoin : ∀ (start stop : ℕ), start ≤ stop →
      all.take start ++ subarray all start stop = all.take stop := by
    intro start stop hle
    rw [subarray]
    conv_rhs => rw [← List.take_append_drop start (all.take stop), List.take_take, min_eq_left hle]
  simp only [unpack, rsaEncryptedKeyBytes, gcmIvBytes, gcmTagBytes]
  refine ⟨?_, ?_, ?_, ?_, ?_⟩
  · rw [length_subarray]
    omega
  · rw [length_subarray]
    omega
  · rw [length_subarray]
    omega
  · rw [length_subarray]
    omega
  · have hfirst : subarray all 0 256 = all.take 256 := by rw [subarray, List.drop_zero]
    rw [hfirst, hjoin 256 (256 + 12) (by omega), hjoin (256 + 12) (all.length - 16) (by omega),
      hjoin (all.length - 16) all.length (by omega), List.take_length]

/-! ### Round trip -/

/-- The constructor takes the six fields and writes the amount as text. -/
theorem PaymentInstruction.new_fields
    (senderVpa receiverVpa amount pinHash nonce signedAt : Value) :
    PaymentInstruction.new (.obj [("senderVpa", senderVpa), ("receiverVpa", receiverVpa),
      ("amount", amount), ("pinHash", pinHash), ("nonce", nonce), ("signedAt", signedAt)]) =
        .ok (.ofFields senderVpa receiverVpa amount pinHash nonce signedAt) := rfl

/-- Constructing an instruction from its record gives it back: the amount was
already written as text. -/
theorem PaymentInstruction.new_record (instruction : PaymentInstruction) :
    PaymentInstruction.new instruction.record = .ok instruction := by
  obtain ⟨senderVpa, receiverVpa, amount, pinHash, nonce, signedAt, hamount⟩ := instruction
  simp only [record, new_fields, ofFields, hamount]

/-- `new PaymentInstruction({...})` of texts, an amount as number or text, and a
finite time. -/
def PaymentInstruction.ofTexts (senderVpa receiverVpa : String) (amount : Money)
    (pinHash nonce : String) (signedAt : ℚ) : PaymentInstruction :=
  .ofFields (.str senderVpa) (.str receiverVpa) (amount.elim .num .str) (.str pinHash) (.str nonce)
    (.num (.fin signedAt))

/-- **Decrypting undoes encrypting,** for every session key, every IV and every length
of the plaintext: a payment whose record `JSON.parse` reads back from the text of
`JSON.stringify` comes out with all six fields. The byte string of a package is cut
into its four fields at every length from 284 on, and refused below. -/
theorem decrypt_undoes_encrypt (node : NodeCrypto) (hnode : node.Lawful)
    (randomness aesKey iv : Bytes) (haesKey : aesKey.length = 32) (hiv : iv.length = 12)
    (senderVpa receiverVpa : String) (amount : Money) (pinHash nonce : String) (signedAt : ℚ)
    (hjson : node.parseJson (node.stringify
        (PaymentInstruction.ofTexts senderVpa receiverVpa amount pinHash nonce signedAt).record) =
      .ok (PaymentInstruction.ofTexts senderVpa receiverVpa amount pinHash nonce signedAt).record) :
    decrypt node (encrypt node randomness aesKey iv
        (PaymentInstruction.ofTexts senderVpa receiverVpa amount pinHash nonce signedAt).record) =
      .ok (.ofTexts senderVpa receiverVpa amount pinHash nonce signedAt) ∧
    ∀ all : Bytes,
      (284 ≤ all.length →
        (unpack all).encryptedAesKey.length = 256 ∧ (unpack all).iv.length = 12 ∧
          (unpack all).aesCiphertext.length = all.length - 284 ∧
          (unpack all).authTag.length = 16 ∧
          (unpack all).encryptedAesKey ++ (unpack all).iv ++ (unpack all).aesCiphertext ++
            (unpack all).authTag = all) ∧
      (all.length < 284 → decryptBytes node all =
        .error ⟨"Ciphertext payload is truncated or too short to be valid"⟩) := by
  refine ⟨?_, fun all => ⟨unpack_fields, fun hshort => ?_⟩⟩
  · rw [decrypt_encrypt hnode haesKey hiv, hjson]
    exact PaymentInstruction.new_record _
  · rw [decryptBytes, if_pos (by simpa only [rsaEncryptedKeyBytes, gcmIvBytes, gcmTagBytes])]

/-- The payment of 500 from Alice to Bob, whose package has 404 bytes. -/
theorem decrypt_undoes_encrypt_alicePaysBob :
    decrypt plainNode (encrypt plainNode [] (List.replicate 32 7) (List.replicate 12 9)
        (PaymentInstruction.ofTexts "alice@demo" "bob@demo" (.inr "500.00") "8f434346" "n-1"
          1000).record) =
      .ok (.ofTexts "alice@demo" "bob@demo" (.inr "500.00") "8f434346" "n-1" 1000) := by
  have hjson : plainNode.parseJson paymentJson = .ok paymentFields := by simp [plainNode]
  exact (decrypt_undoes_encrypt plainNode plainNode_lawful [] (List.replicate 32 7)
    (List.replicate 12 9) List.length_replicate List.length_replicate "alice@demo" "bob@demo"
    (.inr "500.00") "8f434346" "n-1" 1000 hjson).1

/-! ### Forgeries -/

/-- Ideal primitives: private decryption opens the blobs of public encryption and no
others, and GCM opens under a key what was sealed under it and nothing else. OAEP
with SHA-256 takes 190 bytes at most, and AES-256 a key of 32 bytes. -/
structure NodeCrypto.Ideal (node : NodeCrypto) : Prop extends node.Lawful where
  privateDecrypt_iff : ∀ blob aesKey, node.privateDecrypt blob = some aesKey ↔
    aesKey.length ≤ 190 ∧ ∃ randomness, blob = node.publicEncrypt randomness aesKey
  gcmOpen_iff : ∀ aesKey iv aesCiphertext authTag plaintext, iv.length = 12 →
    (node.gcmOpen aesKey iv aesCiphertext authTag = some plaintext ↔
      aesKey.length = 32 ∧ node.gcmSeal aesKey iv plaintext = (aesCiphertext, authTag))

/-- The bytes are a package that seals this plaintext. -/
def Seals (node : NodeCrypto) (all plaintext : Bytes) : Prop :=
  ∃ randomness aesKey iv, aesKey.length = 32 ∧ iv.length = 12 ∧
    all = pack node randomness aesKey iv plaintext

/-- The plaintext is the JSON text of something that has the fields of an instruction. -/
def Readable (node : NodeCrypto) (plaintext : Bytes) : Prop :=
  ∃ instruction, node.parseJson (utf8Text node plaintext) >>= PaymentInstruction.new =
    .ok instruction

/-- `encrypt` can output this text. It throws on `undefined`, which has no JSON text. -/
def IsCiphertext (node : NodeCrypto) (text : String) : Prop :=
  ∃ randomness aesKey iv instruction, aesKey.length = 32 ∧ iv.length = 12 ∧
    instruction ≠ .undefined ∧ text = encrypt node randomness aesKey iv instruction

section

variable {node : NodeCrypto} {all plaintext : Bytes} {text : String}

/-- A sealed package decrypts to what its plaintext reads as. -/
theorem decryptBytes_of_seals (hnode : node.Lawful) (h : Seals node all plaintext) :
    decryptBytes node all =
      node.parseJson (utf8Text node plaintext) >>= PaymentInstruction.new := by
  obtain ⟨randomness, aesKey, iv, haesKey, hiv, rfl⟩ := h
  exact decryptBytes_pack hnode haesKey hiv plaintext

/-- A package seals one plaintext: the key is found in it and opens it. -/
theorem Seals.plaintext_unique (hnode : node.Lawful) (h : Seals node all plaintext)
    {plaintext' : Bytes} (h' : Seals node all plaintext') : plaintext = plaintext' := by
  obtain ⟨randomness, aesKey, iv, haesKey, hiv, hall⟩ := h
  obtain ⟨randomness', aesKey', iv', haesKey', hiv', hall'⟩ := h'
  obtain ⟨hblob, hivField, hcut, htag⟩ := subarray_fields
    (hnode.length_publicEncrypt randomness aesKey haesKey) hiv
    (hnode.length_authTag aesKey iv plaintext haesKey hiv) hall
  obtain ⟨hblob', hivField', hcut', htag'⟩ := subarray_fields
    (hnode.length_publicEncrypt randomness' aesKey' haesKey') hiv'
    (hnode.length_authTag aesKey' iv' plaintext' haesKey' hiv') hall'
  have hkey : aesKey = aesKey' := by
    have hopened := hnode.privateDecrypt_publicEncrypt randomness aesKey haesKey
    rw [hblob.symm.trans hblob', hnode.privateDecrypt_publicEncrypt _ _ haesKey'] at hopened
    exact (Option.some.inj hopened).symm
  obtain rfl := hkey
  obtain rfl : iv = iv' := hivField.symm.trans hivField'
  have hopened := hnode.gcmOpen_gcmSeal aesKey iv plaintext haesKey hiv
  rw [hcut.symm.trans hcut', htag.symm.trans htag', hnode.gcmOpen_gcmSeal _ _ _ haesKey hiv]
    at hopened
  exact (Option.some.inj hopened).symm

/-- What decrypts is a sealed package. -/
theorem exists_seals_of_decryptBytes (hnode : node.Ideal) {instruction : PaymentInstruction}
    (h : decryptBytes node all = .ok instruction) :
    ∃ plaintext, Seals node all plaintext ∧ Readable node plaintext := by
  have hlong : 284 ≤ all.length := by
    by_contra hshort
    rw [decryptBytes, if_pos (by
      simp only [rsaEncryptedKeyBytes, gcmIvBytes, gcmTagBytes]
      omega)] at h
    cases h
  obtain ⟨-, hiv, -, -, hfields⟩ := unpack_fields hlong
  rw [decryptBytes_of_long hlong] at h
  cases hkey : node.privateDecrypt (unpack all).encryptedAesKey with
  | none => simp [hkey] at h
  | some aesKey =>
  cases hopen : node.gcmOpen aesKey (unpack all).iv (unpack all).aesCiphertext
      (unpack all).authTag with
  | none => simp [hkey, hopen] at h
  | some plaintext =>
    obtain ⟨-, randomness, hblob⟩ := (hnode.privateDecrypt_iff _ _).mp hkey
    obtain ⟨haesKey, hseal⟩ := (hnode.gcmOpen_iff _ _ _ _ _ hiv).mp hopen
    simp only [hkey, hopen] at h
    refine ⟨plaintext, ⟨randomness, aesKey, (unpack all).iv, haesKey, hiv, ?_⟩, instruction, h⟩
    rw [pack, hseal, ← hblob]
    exact hfields.symm

/-- An output of `encrypt` is the standard Base64 text of its bytes. -/
theorem IsCiphertext.toBase64_fromBase64 (h : IsCiphertext node text) :
    toBase64 (fromBase64 text) = text := by
  obtain ⟨randomness, aesKey, iv, instruction, -, -, -, rfl⟩ := h
  rw [encrypt, fromBase64_toBase64]

/-- An output of `encrypt` seals what `JSON.stringify` writes. -/
theorem IsCiphertext.exists_seals (h : IsCiphertext node text) :
    ∃ instruction, instruction ≠ .undefined ∧
      Seals node (fromBase64 text) (utf8Bytes (node.stringify instruction)) := by
  obtain ⟨randomness, aesKey, iv, instruction, haesKey, hiv, hdefined, rfl⟩ := h
  exact ⟨instruction, hdefined, randomness, aesKey, iv, haesKey, hiv, fromBase64_toBase64 _⟩

/-- If the text denotes a package with a readable plaintext, it is the standard
Base64 text of that package, and the plaintext is as `JSON.stringify` writes it. -/
def Canonical (node : NodeCrypto) (text : String) : Prop :=
  ∀ plaintext, Seals node (fromBase64 text) plaintext → Readable node plaintext →
    toBase64 (fromBase64 text) = text ∧
      ∃ data, data ≠ .undefined ∧ plaintext = utf8Bytes (node.stringify data)

/-- A canonical text decrypts only if `encrypt` can output it. -/
theorem Canonical.isCiphertext (hnode : node.Ideal) (h : Canonical node text)
    {instruction : PaymentInstruction} (hdecrypt : decrypt node text = .ok instruction) :
    IsCiphertext node text := by
  obtain ⟨plaintext, hseals, hreadable⟩ := exists_seals_of_decryptBytes hnode hdecrypt
  obtain ⟨hspelling, data, hdefined, hplaintext⟩ := h plaintext hseals hreadable
  obtain ⟨randomness, aesKey, iv, haesKey, hiv, hall⟩ := hseals
  refine ⟨randomness, aesKey, iv, data, haesKey, hiv, hdefined, ?_⟩
  rw [encrypt, ← hplaintext, ← hall, hspelling]

/-- A text that `encrypt` can output is canonical. -/
theorem IsCiphertext.canonical (hnode : node.Lawful) (h : IsCiphertext node text) :
    Canonical node text := by
  intro plaintext hseals _
  obtain ⟨data, hdefined, hsealed⟩ := h.exists_seals
  exact ⟨h.toBase64_fromBase64, data, hdefined, hseals.plaintext_unique hnode hsealed⟩

end

/-- The text is refused unless `encrypt` can output it: it does not decrypt, and a
packet that carries it and was not seen before is invalid. -/
def RefusesForgery (backend : Backend) (node : NodeCrypto) (text : String) : Prop :=
  (∀ instruction, decrypt node text = .ok instruction → IsCiphertext node text) ∧
  ∀ (server : Server) (packet : MeshPacket) (bridgeNodeId : String) (hopCount : Number)
    (clock : Clock), packet.ciphertext = text →
      server.seen.has (backend.hashOf packet) = false → ¬IsCiphertext node text →
        (backend.ingest server packet bridgeNodeId hopCount clock).1 =
          .invalid (backend.hashOf packet) .decryptionFailed

/-- **Which texts are safe from forgery.** Under ideal primitives a text decrypts only
as an output of `encrypt`, and is refused otherwise, exactly if it is canonical: the
authentication covers the bytes and not their spelling. -/
theorem refuses_forgery_iff (platform : Platform) (node : NodeCrypto) (hnode : node.Ideal)
    (ttlSeconds maxAgeSeconds clockSkewTolerance : ℚ) (text : String) :
    RefusesForgery (nodeBackend platform node ttlSeconds maxAgeSeconds clockSkewTolerance) node
        text ↔
      Canonical node text := by
  constructor
  · rintro ⟨hrefuses, -⟩ plaintext hseals hreadable
    have hciphertext : IsCiphertext node text := by
      obtain ⟨instruction, hinstruction⟩ := hreadable
      refine hrefuses instruction ?_
      rw [decrypt, decryptBytes_of_seals hnode.toLawful hseals, hinstruction]
    exact hciphertext.canonical hnode.toLawful plaintext hseals hreadable
  · intro hcanonical
    refine ⟨fun instruction hdecrypt => hcanonical.isCiphertext hnode hdecrypt, ?_⟩
    intro server packet bridgeNodeId hopCount clock hpacket hnew hforged
    cases hdecrypt : decrypt node text with
    | ok instruction => exact absurd (hcanonical.isCiphertext hnode hdecrypt) hforged
    | error err =>
      rw [← hpacket] at hdecrypt
      rw [Backend.ingest_of_not_decrypted hnew hdecrypt]

/-- Ideal primitives, still without secrets: the blob is the key behind its length,
and the tag is constant. -/
def idealNode : NodeCrypto where
  publicEncrypt _ aesKey :=
    UInt8.ofNat aesKey.length :: (aesKey ++ List.replicate (255 - aesKey.length) 0)
  privateDecrypt
    | [] => none
    | n :: padded =>
      if n.toNat ≤ 190 ∧ padded = padded.take n.toNat ++ List.replicate (255 - n.toNat) 0 then
        some (padded.take n.toNat)
      else none
  gcmSeal _ _ plaintext := (plaintext, List.replicate 16 0)
  gcmOpen aesKey _ aesCiphertext authTag :=
    if aesKey.length = 32 ∧ authTag = List.replicate 16 0 then some aesCiphertext else none
  sha256Hex text := text
  stringify _ := paymentJson
  parseJson text :=
    if text = paymentJson then .ok paymentFields else .error ⟨"Unexpected token in JSON"⟩
  replacementText _ := ""

theorem idealNode_privateDecrypt_iff (blob aesKey : Bytes) :
    idealNode.privateDecrypt blob = some aesKey ↔
      aesKey.length ≤ 190 ∧ ∃ randomness, blob = idealNode.publicEncrypt randomness aesKey := by
  constructor
  · intro h
    cases blob with
    | nil => cases h
    | cons n padded =>
      simp only [idealNode, Option.ite_none_right_eq_some, Option.some.injEq] at h
      obtain ⟨⟨hshort, hpadded⟩, rfl⟩ := h
      have hlength : (padded.take n.toNat).length = n.toNat := by
        have htotal := congrArg List.length hpadded
        rw [List.length_append, List.length_replicate] at htotal
        rw [List.length_take] at htotal ⊢
        omega
      refine ⟨by omega, [], ?_⟩
      simp only [idealNode, hlength, UInt8.ofNat_toNat]
      exact congrArg (n :: ·) hpadded
  · rintro ⟨hshort, randomness, rfl⟩
    have hbyte : (UInt8.ofNat aesKey.length).toNat = aesKey.length := by
      rw [UInt8.toNat_ofNat']
      omega
    simp [idealNode, hbyte, hshort]

theorem idealNode_ideal : idealNode.Ideal where
  privateDecrypt_publicEncrypt randomness aesKey h :=
    (idealNode_privateDecrypt_iff _ _).mpr ⟨by omega, randomness, rfl⟩
  length_publicEncrypt randomness aesKey h := by
    simp only [idealNode, List.length_cons, List.length_append, List.length_replicate, h]
  gcmOpen_gcmSeal aesKey iv plaintext h _ := by
    simp only [idealNode, h, true_and, if_true]
  length_authTag aesKey iv plaintext _ _ := rfl
  privateDecrypt_iff := idealNode_privateDecrypt_iff
  gcmOpen_iff aesKey iv aesCiphertext authTag plaintext _ := by
    simp only [idealNode, Option.ite_none_right_eq_some, Option.some.injEq, Prod.mk.injEq]
    tauto

/-- The text that `encrypt` sends for 500 from Alice to Bob. -/
def idealCiphertext : String :=
  encrypt idealNode [] (List.replicate 32 7) (List.replicate 12 9)
    (alicePaysBob (.str "500.00") (.num (.fin 1000))).record

/-- The shipped windows over these primitives. -/
def idealBackend : Backend := nodeBackend utcPlatform idealNode 86400 86400 300

/-- Every spelling of the package opens to the payment. -/
theorem decrypt_idealNode {text : String} (h : fromBase64 text = fromBase64 idealCiphertext) :
    decrypt idealNode text = .ok (alicePaysBob (.str "500.00") (.num (.fin 1000))) := by
  have hparse : idealNode.parseJson paymentJson = .ok paymentFields := by simp [idealNode]
  rw [decrypt, h, ← decrypt, idealCiphertext,
    decrypt_encrypt idealNode_ideal.toLawful List.length_replicate List.length_replicate]
  change idealNode.parseJson paymentJson >>= PaymentInstruction.new = _
  rw [hparse]
  rfl

/-- A forgery that pays: `encrypt` cannot output its text with a line feed after it,
and yet the text decrypts, and the packet that carries it is settled. -/
theorem forgery_respelled :
    idealNode.Ideal ∧ ¬IsCiphertext idealNode (idealCiphertext ++ "\n") ∧
      decrypt idealNode (idealCiphertext ++ "\n") =
        .ok (alicePaysBob (.str "500.00") (.num (.fin 1000))) ∧
      (idealBackend.ingest seeded (packetOf (idealCiphertext ++ "\n")) "bridge-1" (.fin 2)
        ⟨2000, 2000, 2000⟩).1.outcome = .settled := by
  obtain ⟨hbytes, hother⟩ := fromBase64_append_newline idealCiphertext
  refine ⟨idealNode_ideal, ?_, decrypt_idealNode hbytes, ?_⟩
  · intro hforged
    have hspelling := hforged.toBase64_fromBase64
    rw [hbytes, idealCiphertext, encrypt, fromBase64_toBase64, ← encrypt, ← idealCiphertext]
      at hspelling
    exact hother hspelling.symm
  · have hcovered : 500 ≤ seededDb.balance "alice@demo" := by decide +kernel
    have hpayable := @payable_of_decrypt idealNode seeded _ (decrypt_idealNode hbytes) rfl hcovered
    have hpaid := @Payable.paid idealBackend seeded (packetOf (idealCiphertext ++ "\n")) "bridge-1"
      (.fin 2) ⟨2000, 2000, 2000⟩ _ _ _ _ hpayable sound_seededDb rfl rfl
    exact hpaid.outcome

/-- The package of this text with the last byte of its authentication tag changed. -/
def tamperedPackage : Bytes := (fromBase64 idealCiphertext).dropLast ++ [1]

/-- A package with one byte changed is as long as before and goes through the layout, the
private key and GCM; no text for it decrypts, and its delivery is invalid. -/
theorem refuses_forgery_tampered :
    tamperedPackage.length = (fromBase64 idealCiphertext).length ∧ 284 ≤ tamperedPackage.length ∧
      RefusesForgery idealBackend idealNode (toBase64 tamperedPackage) ∧
      (idealBackend.ingest seeded (packetOf (toBase64 tamperedPackage)) "bridge-1" (.fin 2)
        ⟨2000, 2000, 2000⟩).1 =
          .invalid (idealBackend.hashOf (packetOf (toBase64 tamperedPackage)))
            .decryptionFailed := by
  have hunsealed : ∀ plaintext,
      ¬Seals idealNode (fromBase64 (toBase64 tamperedPackage)) plaintext := by
    rintro plaintext ⟨randomness, aesKey, iv, -, -, hall⟩
    rw [fromBase64_toBase64, tamperedPackage] at hall
    obtain ⟨untagged, htagged⟩ : ∃ untagged, pack idealNode randomness aesKey iv plaintext =
        untagged ++ List.replicate 16 0 := ⟨_, rfl⟩
    have hlast := congrArg List.getLast? (hall.trans htagged)
    rw [List.getLast?_append, List.getLast?_append] at hlast
    cases hlast
  have hrefuses : RefusesForgery idealBackend idealNode (toBase64 tamperedPackage) :=
    (refuses_forgery_iff utcPlatform idealNode idealNode_ideal 86400 86400 300 _).mpr
      fun plaintext hseals => absurd hseals (hunsealed plaintext)
  have hlong : 284 ≤ (fromBase64 idealCiphertext).length := by
    rw [idealCiphertext, encrypt, fromBase64_toBase64, pack, List.length_append, List.length_append,
      List.length_append, idealNode_ideal.length_publicEncrypt _ _ List.length_replicate,
      idealNode_ideal.length_authTag _ _ _ List.length_replicate List.length_replicate,
      List.length_replicate]
    omega
  have hlength : tamperedPackage.length = (fromBase64 idealCiphertext).length := by
    rw [tamperedPackage, List.length_append, List.length_dropLast, List.length_singleton]
    omega
  refine ⟨hlength, hlong.trans hlength.ge, hrefuses, ?_⟩
  have hforged : ¬IsCiphertext idealNode (toBase64 tamperedPackage) := by
    intro hciphertext
    obtain ⟨_, _, hseals⟩ := hciphertext.exists_seals
    exact hunsealed _ hseals
  generalize toBase64 tamperedPackage = text at hrefuses hforged
  exact hrefuses.2 seeded (packetOf text) "bridge-1" (.fin 2) ⟨2000, 2000, 2000⟩ rfl
    (KeyedMap.has_empty _) hforged

end UpiOfflineMesh
