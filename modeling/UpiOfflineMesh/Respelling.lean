import UpiOfflineMesh.Delivery
import UpiOfflineMesh.LedgerIndex

/-!
# Spellings of one wire package

The idempotency key is the digest of the submitted text, the payment is read from
the decoded bytes, and many texts decode to the same bytes. A package that is
always submitted in one spelling moves money at most once, in every run; a second
spelling has a digest of its own and is settled again.
-/

namespace UpiOfflineMesh

open Js InMemoryDb

/-- The backend whose packets are sealed for this server key. -/
def nodeBackend (platform : Platform) (node : NodeCrypto)
    (ttlSeconds maxAgeSeconds clockSkewTolerance : ℚ) : Backend :=
  ⟨platform, hybridCryptoService node, ttlSeconds, maxAgeSeconds, clockSkewTolerance⟩

/-- The text that a delivery submits. -/
def Event.ciphertext : Event → Option String
  | .ingest packet _ _ _ => some packet.ciphertext
  | _ => none

/-- A delivery whose text decodes to these bytes. -/
def Event.submits (bytes : Bytes) (event : Event) : Bool :=
  event.ciphertext.any fun text => fromBase64 text = bytes

/-- Every delivery of these bytes spells them in this one way. -/
def Event.Spells (bytes : Bytes) (spelling : String) (event : Event) : Prop :=
  ∀ text, event.ciphertext = some text → fromBase64 text = bytes → text = spelling

/-- The ledger rows that a transition wrote. -/
def writtenRows (t : Transition Server Event (Option IngestResult)) : List Transaction :=
  t.after.db.rows.drop t.before.db.rows.length

/-- A delivery of these bytes that wrote a settled row. -/
def settlesBytes (bytes : Bytes) (t : Transition Server Event (Option IngestResult)) : Bool :=
  t.event.submits bytes && (writtenRows t).any fun row => row.status = .settled

section

variable {backend : Backend} {server : Server} {event : Event}

/-- A transition that keeps the ledger has written nothing. -/
theorem writtenRows_of_rows_eq {t : Transition Server Event (Option IngestResult)}
    (h : t.after.db.rows = t.before.db.rows) : writtenRows t = [] := by
  rw [writtenRows, h, List.drop_length]

/-- Every event writes at most one row. -/
theorem length_writtenRows_le_one (server : Server) (event : Event) :
    (writtenRows (backend.machine.transition server event)).length ≤ 1 := by
  have heffect := @db_effect backend server event
  rw [writtenRows, Machine.after_transition, Machine.before_transition]
  generalize (backend.machine.next server event).db = db at heffect ⊢
  cases heffect with
  | unchanged => simp
  | rejected row => rw [rows_insertRow, List.drop_left, List.length_singleton]
  | settled row hhash hfresh hstatus hid sender receiver amount =>
    rw [rows_insertRow]
    change ((server.db.rows ++ [row]).drop server.db.rows.length).length ≤ 1
    rw [List.drop_left, List.length_singleton]

/-- A delivery that wrote a row has its hash in the index afterwards. -/
theorem has_of_writtenRows {hash : String} (hdelivers : event.delivers backend hash = true)
    (h : writtenRows (backend.machine.transition server event) ≠ []) :
    (backend.machine.next server event).db.txPacketHashes.has hash = true := by
  rw [Event.delivers_iff] at hdelivers
  have heffect := @db_effect backend server event
  rw [writtenRows, Machine.after_transition, Machine.before_transition] at h
  generalize (backend.machine.next server event).db = db at heffect h ⊢
  cases heffect with
  | unchanged => exact absurd List.drop_length h
  | rejected row hhash =>
    rw [hhash, Option.some.injEq] at hdelivers
    rw [txPacketHashes_insertRow, KeyedMap.has_set]
    simp [hdelivers]
  | settled row hhash =>
    rw [hhash, Option.some.injEq] at hdelivers
    rw [txPacketHashes_insertRow, KeyedMap.has_set]
    simp [hdelivers]

/-- Rows of a kind in lists of at most one element are counted by the lists that have one. -/
theorem countP_flatMap_filter_le {α β : Type*} {f : α → List β} {chosen : α → Bool} {p : β → Bool}
    (l : List α) (h : ∀ x ∈ l, (f x).length ≤ 1) :
    ((l.filter chosen).flatMap f).countP p ≤ l.countP fun x => chosen x && (f x).any p := by
  induction l with
  | nil => simp
  | cons x l ih =>
    have htail := ih (fun y hy => h y (by simp [hy]))
    have hhead : (f x).countP p ≤ if (f x).any p then 1 else 0 := by
      split
      case isTrue => exact le_trans List.countP_le_length (h x (by simp))
      case isFalse hnone =>
        rw [Nat.le_zero, List.countP_eq_zero]
        intro y hy hp
        exact hnone (List.any_eq_true.mpr ⟨y, hy, hp⟩)
    rw [List.countP_cons]
    cases hchosen : chosen x with
    | false =>
      rw [List.filter_cons_of_neg (by simp [hchosen])]
      simpa using htail
    | true =>
      rw [List.filter_cons_of_pos hchosen, List.flatMap_cons, List.countP_append]
      simp only [Bool.true_and]
      omega

end

/-- **At most one settlement per spelling.** When all deliveries of a package
spell its bytes in the same way, then in every run, from any state and with
anything else delivered, evicted and reset in between, at most one settled row is
written for the package and at most one of its deliveries changes accounts. -/
theorem one_settlement_per_spelling (platform : Platform) (node : NodeCrypto)
    (ttlSeconds maxAgeSeconds clockSkewTolerance : ℚ) (start : Server) (events : List Event)
    (bytes : Bytes) (spelling : String)
    (hspelling : ∀ event ∈ events, event.Spells bytes spelling) :
    ((((nodeBackend platform node ttlSeconds maxAgeSeconds clockSkewTolerance).machine.transitions
      start events).filter fun t => t.event.submits bytes).flatMap writtenRows).countP
        (fun row => row.status = .settled) ≤ 1 ∧
    ((nodeBackend platform node ttlSeconds maxAgeSeconds clockSkewTolerance).machine.transitions
      start events).countP (fun t => t.event.submits bytes && accountsChanged t) ≤ 1 := by
  generalize hbackend : nodeBackend platform node ttlSeconds maxAgeSeconds clockSkewTolerance =
    backend
  have hdelivers : ∀ event : Event, event.Spells bytes spelling → event.submits bytes = true →
      event.delivers backend (node.sha256Hex spelling) = true := by
    intro event hspells hsubmits
    cases event with
    | evictExpired now => cases hsubmits
    | clear => cases hsubmits
    | ingest packet bridgeNodeId hopCount clock =>
      have hbytes : fromBase64 packet.ciphertext = bytes := by
        simpa [Event.submits, Event.ciphertext] using hsubmits
      rw [Event.delivers_iff, ← hspells packet.ciphertext rfl hbytes, ← hbackend]
      rfl
  constructor
  · have hone : (backend.machine.transitions start events).countP (settlesBytes bytes) ≤ 1 := by
      refine @countP_changes_le_one backend (node.sha256Hex spelling) _ _ ?_ ?_ start events
        hspelling
      · intro server event hspells hfires
        rw [settlesBytes, Bool.and_eq_true] at hfires
        have hwritten : writtenRows (backend.machine.transition server event) ≠ [] := by
          rintro hnone
          rw [hnone] at hfires
          cases hfires.2
        have hdelivered := hdelivers event hspells hfires.1
        exact ⟨hdelivered, has_of_writtenRows hdelivered hwritten⟩
      · intro server event hkept
        rw [settlesBytes, writtenRows_of_rows_eq (congrArg InMemoryDb.rows hkept), List.any_nil,
          Bool.and_false]
    refine le_trans (countP_flatMap_filter_le _ fun t ht => ?_) hone
    obtain ⟨earlier, later, _, heq⟩ := Machine.eq_transition_of_mem ht
    rw [heq]
    exact length_writtenRows_le_one _ _
  · refine @countP_changes_le_one backend (node.sha256Hex spelling) _ _ ?_ ?_ start events hspelling
    · intro server event hspells hfires
      rw [Bool.and_eq_true] at hfires
      have hdelivered := hdelivers event hspells hfires.1
      exact ⟨hdelivered, (settled_of_accountsChanged hdelivered hfires.2).2⟩
    · intro server event hkept
      rw [accountsChanged_of_db_eq hkept, Bool.and_false]

/-! ### A second spelling -/

/-- A delivery that paid wrote one row, and it is settled. -/
theorem Paid.writtenRows_eq {backend : Backend} {server : Server} {packet : MeshPacket}
    {bridgeNodeId : String} {hopCount : Number} {clock : Clock} {sender receiver : String} {a : ℚ}
    (h : Paid backend server packet clock sender receiver a
      (backend.ingest server packet bridgeNodeId hopCount clock).1
      (backend.ingest server packet bridgeNodeId hopCount clock).2) :
    ∃ row : Transaction, row.status = .settled ∧ writtenRows
      (backend.machine.transition server (.ingest packet bridgeNodeId hopCount clock)) = [row] := by
  obtain ⟨row, _, hstatus, _, hrows⟩ := h.row
  refine ⟨row, hstatus, ?_⟩
  rw [writtenRows, Machine.after_transition, Machine.before_transition, next_ingest, hrows,
    List.drop_left]

/-- The JSON text of a payment of 500 from Alice to Bob. -/
def paymentJson : String :=
  "\x7b\"senderVpa\":\"alice@demo\",\"receiverVpa\":\"bob@demo\",\"amount\":\"500.00\"," ++
    "\"pinHash\":\"8f434346\",\"nonce\":\"n-1\",\"signedAt\":1000\x7d"

/-- What that text parses to. -/
def paymentFields : Value :=
  .obj [("senderVpa", .str "alice@demo"), ("receiverVpa", .str "bob@demo"),
    ("amount", .str "500.00"), ("pinHash", .str "8f434346"), ("nonce", .str "n-1"),
    ("signedAt", .num (.fin 1000))]

/-- Primitives that keep nothing secret, for that one payment. -/
def plainNode : NodeCrypto where
  publicEncrypt _ aesKey := aesKey ++ List.replicate (256 - aesKey.length) 0
  privateDecrypt bytes := some (bytes.take 32)
  gcmSeal _ _ plaintext := (plaintext, List.replicate 16 0)
  gcmOpen _ _ aesCiphertext _ := some aesCiphertext
  sha256Hex text := text
  stringify _ := paymentJson
  parseJson text :=
    if text = paymentJson then .ok paymentFields else .error ⟨"Unexpected token in JSON"⟩
  replacementText _ := ""

theorem plainNode_lawful : plainNode.Lawful where
  privateDecrypt_publicEncrypt randomness aesKey h := congrArg some (List.take_left' h)
  length_publicEncrypt randomness aesKey h := by
    change (aesKey ++ List.replicate (256 - aesKey.length) 0).length = 256
    rw [List.length_append, List.length_replicate, h]
  gcmOpen_gcmSeal aesKey iv plaintext _ _ := rfl
  length_authTag aesKey iv plaintext _ _ := rfl

/-- The wire package of the payment under one session key and IV. -/
def plainPackage : Bytes :=
  pack plainNode [] (List.replicate 32 7) (List.replicate 12 9) (utf8Bytes paymentJson)

/-- The text that `encrypt` sends for it. -/
def plainCiphertext : String :=
  encrypt plainNode [] (List.replicate 32 7) (List.replicate 12 9)
    (alicePaysBob (.str "500.00") (.num (.fin 1000))).record

/-- The shipped windows over these primitives. -/
def plainBackend : Backend := nodeBackend utcPlatform plainNode 86400 86400 300

/-- Every spelling of the package opens to the payment. -/
theorem decrypt_plainNode {text : String} (h : fromBase64 text = plainPackage) :
    decrypt plainNode text = .ok (alicePaysBob (.str "500.00") (.num (.fin 1000))) := by
  have hparse : plainNode.parseJson paymentJson = .ok paymentFields := by simp [plainNode]
  rw [decrypt, h, plainPackage, decryptBytes_pack plainNode_lawful List.length_replicate
    List.length_replicate, utf8Text_utf8Bytes, hparse]
  rfl

/-- A text that opens to the payment is payable, whatever the primitives, as long as
Alice has the money. -/
theorem payable_of_decrypt {node : NodeCrypto} {server : Server} {text : String}
    (hdecrypt : decrypt node text = .ok (alicePaysBob (.str "500.00") (.num (.fin 1000))))
    (hholders : server.db.holders = seededDb.holders)
    (hcovered : 500 ≤ server.db.balance "alice@demo") :
    Payable (nodeBackend utcPlatform node 86400 86400 300) server (packetOf text) 2000
      (alicePaysBob (.str "500.00") (.num (.fin 1000))) "alice@demo" "bob@demo" 500 where
  accepts := by
    have hfresh : plainBackend.freshness 2000
        (alicePaysBob (.str "500.00") (.num (.fin 1000))) = .ok none := by decide +kernel
    exact ⟨hdecrypt, hfresh⟩
  senderVpa_eq := rfl
  receiverVpa_eq := rfl
  sender_known := by
    rw [has_eq_of_holders_eq hholders]
    decide +kernel
  receiver_known := by
    rw [has_eq_of_holders_eq hholders]
    decide +kernel
  different := by decide
  amount_read := by
    change Value.parseFloat utcPlatform _ = _
    decide +kernel
  amount_positive := by norm_num
  whole_paise := ⟨50000, by norm_num⟩
  covered := hcovered
  signedAt_valid := by
    change ∃ signedAt, newDate utcPlatform _ = _
    exact ⟨1000, by decide +kernel⟩

/-- A package that is settled twice: the text of `encrypt`, and the same text with
a line feed after it, both within the same second. -/
theorem two_settlements_respelled :
    plainNode.Lawful ∧ Function.Injective plainNode.sha256Hex ∧
      fromBase64 plainCiphertext = plainPackage ∧
      fromBase64 (plainCiphertext ++ "\n") = plainPackage ∧
      (((plainBackend.machine.transitions seeded
        [deliver plainCiphertext 2000, deliver (plainCiphertext ++ "\n") 2000]).filter
          fun t => t.event.submits plainPackage).flatMap writtenRows).countP
            (fun row => row.status = .settled) = 2 ∧
      (plainBackend.machine.final seeded
        [deliver plainCiphertext 2000, deliver (plainCiphertext ++ "\n") 2000]).db.balance
          "alice@demo" = 4000 := by
  have hfirst : fromBase64 plainCiphertext = plainPackage := fromBase64_toBase64 plainPackage
  obtain ⟨hsame, hother⟩ := fromBase64_append_newline plainCiphertext
  have hsecond : fromBase64 (plainCiphertext ++ "\n") = plainPackage := hsame.trans hfirst
  have hne : plainCiphertext ≠ plainCiphertext ++ "\n" := hother.symm
  have hstart : seeded.db.balance "alice@demo" = 5000 := by decide +kernel
  have hpaid := @Payable.paid plainBackend seeded (packetOf plainCiphertext) "bridge-1" (.fin 2)
    ⟨2000, 2000, 2000⟩ _ _ _ _
    (payable_of_decrypt (decrypt_plainNode hfirst) rfl (by rw [hstart]; norm_num))
    sound_seededDb rfl rfl
  obtain ⟨hsound, hholders⟩ :=
    @sound_next plainBackend seeded sound_seededDb (deliver plainCiphertext 2000)
  have hleft : (plainBackend.machine.next seeded (deliver plainCiphertext 2000)).db.balance
      "alice@demo" = 4500 := by
    rw [deliver, next_ingest, hpaid.balances, Transfers.Payment.apply, hstart]
    decide +kernel
  have hagain := @Payable.paid plainBackend
    (plainBackend.machine.next seeded (deliver plainCiphertext 2000))
    (packetOf (plainCiphertext ++ "\n")) "bridge-1" (.fin 2) ⟨2000, 2000, 2000⟩ _ _ _ _
    (payable_of_decrypt (decrypt_plainNode hsecond) hholders (by rw [hleft]; norm_num)) hsound
    (by
      rw [deliver, next_ingest, hpaid.indexed, KeyedMap.has_set, Bool.or_eq_false_iff]
      exact ⟨decide_eq_false hne, rfl⟩)
    (by
      rw [deliver, next_ingest, hpaid.claimed, KeyedMap.has_set, Bool.or_eq_false_iff]
      exact ⟨decide_eq_false hne, rfl⟩)
  obtain ⟨row, hstatus, hwritten⟩ := hpaid.writtenRows_eq
  obtain ⟨row', hstatus', hwritten'⟩ := hagain.writtenRows_eq
  refine ⟨plainNode_lawful, fun _ _ h => h, hfirst, hsecond, ?_, ?_⟩
  · have hsubmits : ∀ text now, fromBase64 text = plainPackage →
        (deliver text now).submits plainPackage = true := by
      intro text now h
      simp [deliver, packetOf, Event.submits, Event.ciphertext, h]
    rw [Machine.transitions_cons, Machine.transitions_cons, Machine.transitions_nil,
      List.filter_cons_of_pos (by exact hsubmits _ _ hfirst),
      List.filter_cons_of_pos (by exact hsubmits _ _ hsecond), List.filter_nil, List.flatMap_cons,
      List.flatMap_cons, List.flatMap_nil]
    simp only [deliver] at hwritten' ⊢
    rw [hwritten, hwritten']
    simp [hstatus, hstatus']
  · rw [Machine.final_cons, Machine.final_cons, Machine.final_nil,
      next_deliver _ (plainBackend.machine.next seeded _), hagain.balances,
      Transfers.Payment.apply, hleft]
    decide +kernel

/-- The same package delivered twice in the spelling of `encrypt`. -/
theorem one_settlement_same_spelling :
    (((plainBackend.machine.transitions seeded
      [deliver plainCiphertext 2000, deliver plainCiphertext 3000]).filter
        fun t => t.event.submits plainPackage).flatMap writtenRows).countP
          (fun row => row.status = .settled) ≤ 1 ∧
    (plainBackend.machine.transitions seeded
      [deliver plainCiphertext 2000, deliver plainCiphertext 3000]).countP
        (fun t => t.event.submits plainPackage && accountsChanged t) ≤ 1 := by
  refine one_settlement_per_spelling utcPlatform plainNode 86400 86400 300 seeded
    [deliver plainCiphertext 2000, deliver plainCiphertext 3000] plainPackage plainCiphertext ?_
  intro event hevent text htext _
  simp only [List.mem_cons, List.not_mem_nil, or_false] at hevent
  rcases hevent with rfl | rfl
  · exact (Option.some.inj htext).symm
  · exact (Option.some.inj htext).symm

end UpiOfflineMesh
