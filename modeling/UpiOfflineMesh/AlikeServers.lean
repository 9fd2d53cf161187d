import UpiOfflineMesh.AlikeDatabases
import UpiOfflineMesh.AlikeMeshes
import UpiOfflineMesh.MeshToLedger

/-!
# Servers that differ in packet hashes

The server uses a packet hash as a name: it compares hashes and stores them. Of an opened
instruction it reads everything but PIN hash and nonce. Two servers whose hashes are related
one to one therefore answer alike, and stay alike, when they get packets with related hashes
that open to the same payment.
-/

namespace UpiOfflineMesh

open Js InMemoryDb

/-! ### What may differ -/

/-- Ledger rows that differ at most in related packet hashes. -/
structure Transaction.Alike (H : String → String → Prop) (row row' : Transaction) : Prop where
  packetHash : H row.packetHash row'.packetHash
  others : row' = { row with packetHash := row'.packetHash }

/-- Databases that differ at most in related packet hashes. -/
structure InMemoryDb.Alike (H : String → String → Prop) (db db' : InMemoryDb) : Prop where
  accounts : db.accounts = db'.accounts
  transactions : List.Forall₂ (Option.Rel (Transaction.Alike H)) db.transactions db'.transactions
  txPacketHashes : db.txPacketHashes.Related H db'.txPacketHashes
  nextTxId : db.nextTxId = db'.nextTxId

/-- Claims of related hashes at the same instant. -/
def SeenEntry.Alike (H : String → String → Prop) (entry entry' : SeenEntry) : Prop :=
  H entry.1 entry'.1 ∧ entry.2 = entry'.2

/-- Servers that differ at most in related packet hashes. -/
structure Server.Alike (H : String → String → Prop) (server server' : Server) : Prop where
  seen : server.seen.Related (SeenEntry.Alike H) server'.seen
  db : server.db.Alike H server'.db

/-- The same error, or two that name related packet hashes. -/
inductive ErrorAlike (H : String → String → Prop) : Error → Error → Prop
  | same (err : Error) : ErrorAlike H err err
  | duplicate {hash hash' : String} (h : H hash hash') :
      ErrorAlike H (dataIntegrityViolation hash) (dataIntegrityViolation hash')

/-- The same reason, or two such errors. -/
inductive Reason.Alike (H : String → String → Prop) : Reason → Reason → Prop
  | same (reason : Reason) : Alike H reason reason
  | internalError {err err' : Error} (h : ErrorAlike H err err') :
      Alike H (.internalError err.message) (.internalError err'.message)

/-- Answers that differ at most in related packet hashes. -/
structure IngestResult.Alike (H : String → String → Prop) (result result' : IngestResult) :
    Prop where
  outcome : result.outcome = result'.outcome
  packetHash : H result.packetHash result'.packetHash ∨
    result.packetHash = "?" ∧ result'.packetHash = "?"
  reason : Option.Rel (Reason.Alike H) result.reason result'.reason
  transactionId : result.transactionId = result'.transactionId

/-- The hashes of related ciphertexts. -/
def Backend.Hashes (backend : Backend) (C : String → String → Prop) (hash hash' : String) : Prop :=
  ∃ c c', C c c' ∧ backend.crypto.hashCiphertext c = hash ∧ backend.crypto.hashCiphertext c' = hash'

/-- Related ciphertexts have hashes that agree in the same places, and open to the same
payment or not at all. -/
structure Backend.Blind (backend : Backend) (C : String → String → Prop) : Prop where
  hashes : ∀ {c c' d d'}, C c c' → C d d' →
    (backend.crypto.hashCiphertext c = backend.crypto.hashCiphertext d ↔
      backend.crypto.hashCiphertext c' = backend.crypto.hashCiphertext d')
  opens : ∀ {c c'}, C c c' → Outcomes (fun _ _ => True) PaymentInstruction.SamePayment
    (backend.crypto.decrypt c) (backend.crypto.decrypt c')

section

variable {H : String → String → Prop} {arith : Arithmetic} {platform : Platform}
  {instruction instruction' : PaymentInstruction} {hash hash' bridgeNodeId : String}
  {hopCount : Number} {now : ℤ}

/-! ### The operations of the database -/

theorem equalAccounts_alike : EqualAccounts (InMemoryDb.Alike H) where
  accounts_eq h := h.accounts
  setAccounts h _ := { h with accounts := rfl }
  rollback {db db' after after'} h hafter := by
    refine { h with transactions := ?_ }
    have hlengths : db.transactions.length = db'.transactions.length := h.transactions.length_eq
    rw [setLength, setLength, hlengths, hafter.transactions.length_eq]
    refine List.rel_append (List.forall₂_take _ hafter.transactions) ?_
    exact List.forall₂_same.mpr fun slot hslot => List.eq_of_mem_replicate hslot ▸ .none

/-- The unique index finds related hashes alike. -/
theorem InMemoryDb.Alike.has {db db' : InMemoryDb} (h : db.Alike H db') (hH : Relator.BiUnique H)
    (hhash : H hash hash') : db.txPacketHashes.has hash = db'.txPacketHashes.has hash' :=
  h.txPacketHashes.has ⟨hH, fun hkey => hkey⟩ hhash

theorem InMemoryDb.Alike.insertRow {db db' : InMemoryDb} (h : db.Alike H db')
    (hH : Relator.BiUnique H) {row row' : Transaction} (hrow : row.Alike H row') :
    (db.insertRow row).Alike H (db'.insertRow row') where
  accounts := h.accounts
  transactions := List.rel_append h.transactions (.cons (.some hrow) .nil)
  txPacketHashes := h.txPacketHashes.set ⟨hH, fun hkey => hkey⟩ hrow.packetHash
  nextTxId := congrArg (· + 1) h.nextTxId

theorem saveTransactionWith_alike (hH : Relator.BiUnique H) {data data' : TransactionData}
    (hhash : H data.packetHash data'.packetHash)
    (hothers : data' = { data with packetHash := data'.packetHash }) :
    RunsAlike (InMemoryDb.Alike H) (ErrorAlike H) (Transaction.Alike H)
      (saveTransactionWith arith data) (saveTransactionWith arith data') := by
  refine RunsAlike.bind .get fun db db' hdb => ?_
  have hrow : (Transaction.newWith arith data db.nextTxId).Alike H
      (Transaction.newWith arith data' db'.nextTxId) := by
    refine ⟨hhash, ?_⟩
    rw [hothers, hdb.nextTxId]
    rfl
  refine .ite (by rw [hdb.has hH hhash]) (.throw (.duplicate hhash)) ?_
  exact .bind (.set (hdb.insertRow hH hrow)) fun _ _ _ => .pure hrow

/-- **`settle` reads neither hash nor PIN nor nonce.** -/
theorem settleWith_alikeRow (hH : Relator.BiUnique H) (hhash : H hash hash')
    (hsame : instruction.SamePayment instruction') :
    RunsAlike (InMemoryDb.Alike H) (ErrorAlike H) (Transaction.Alike H)
      (settleWith arith platform instruction hash bridgeNodeId hopCount now)
      (settleWith arith platform instruction' hash' bridgeNodeId hopCount now) := by
  refine settleWith_alike equalAccounts_alike .same hsame fun amount signedAt status => ?_
  refine saveTransactionWith_alike hH hhash ?_
  rw [ledgerData, ledgerData, hsame.senderVpa, hsame.receiverVpa]

/-! ### Deliveries -/

theorem keyed_seen (hH : Relator.BiUnique H) :
    KeyedMap.Keyed H (SeenEntry.Alike H) Prod.fst Prod.fst where
  keys := hH
  key h := h.1

/-- Claims of related hashes are granted alike. -/
theorem claim_alike (hH : Relator.BiUnique H) {seen seen' : SeenCache}
    (h : seen.Related (SeenEntry.Alike H) seen') (hhash : H hash hash') :
    (seen.claim hash now).1 = (seen'.claim hash' now).1 ∧
      (seen.claim hash now).2.Related (SeenEntry.Alike H) (seen'.claim hash' now).2 := by
  unfold SeenCache.claim
  rw [h.has (keyed_seen hH) hhash]
  split
  case isTrue => exact ⟨rfl, h⟩
  case isFalse => exact ⟨rfl, h.set (keyed_seen hH) ⟨hhash, rfl⟩⟩

theorem evictExpired_alike {seen seen' : SeenCache} (h : seen.Related (SeenEntry.Alike H) seen')
    (ttlSeconds : ℚ) : (seen.evictExpired ttlSeconds now).Related (SeenEntry.Alike H)
      (seen'.evictExpired ttlSeconds now) := by
  unfold KeyedMap.Related
  rw [SeenCache.values_evictExpired, SeenCache.values_evictExpired]
  refine List.rel_filter ?_ h
  rintro ⟨packetHash, instant⟩ ⟨packetHash', _⟩ ⟨-, rfl⟩
  exact Iff.rfl

variable {backend : Backend} {C : String → String → Prop} {server server' : Server}
  {packet packet' : MeshPacket} {clock : Clock}

theorem Backend.Blind.biUnique (hblind : backend.Blind C) :
    Relator.BiUnique (backend.Hashes C) := by
  constructor
  · rintro _ _ _ ⟨c, c', hc, rfl, rfl⟩ ⟨d, d', hd, rfl, hsame⟩
    exact (hblind.hashes hc hd).mpr hsame.symm
  · rintro _ _ _ ⟨c, c', hc, rfl, rfl⟩ ⟨d, d', hd, hsame, rfl⟩
    exact (hblind.hashes hc hd).mp hsame.symm

theorem invalid_alike (hhash : H hash hash') (reason : Reason) :
    (IngestResult.invalid hash reason).Alike H (.invalid hash' reason) :=
  ⟨rfl, Or.inl hhash, .some (.same reason), rfl⟩

theorem invalid_internalError_alike {err err' : Error} (h : ErrorAlike H err err') :
    (IngestResult.invalid "?" (.internalError err.message)).Alike H
      (.invalid "?" (.internalError err'.message)) :=
  ⟨rfl, Or.inr ⟨rfl, rfl⟩, .some (.internalError h), rfl⟩

/-- **A delivery is answered alike** and leaves the servers alike. -/
theorem ingestWith_alike (hblind : backend.Blind C) (h : server.Alike (backend.Hashes C) server')
    (hpacket : C packet.ciphertext packet'.ciphertext) :
    (backend.ingestWith arith server packet bridgeNodeId hopCount clock).1.Alike (backend.Hashes C)
        (backend.ingestWith arith server' packet' bridgeNodeId hopCount clock).1 ∧
      (backend.ingestWith arith server packet bridgeNodeId hopCount clock).2.Alike (backend.Hashes C)
        (backend.ingestWith arith server' packet' bridgeNodeId hopCount clock).2 := by
  have hhash : backend.Hashes C (backend.crypto.hashCiphertext packet.ciphertext)
      (backend.crypto.hashCiphertext packet'.ciphertext) := ⟨_, _, hpacket, rfl, rfl⟩
  obtain ⟨hgranted, hseen⟩ := @claim_alike _ _ _ clock.claimed hblind.biUnique _ _ h.seen hhash
  have hopens := hblind.opens hpacket
  simp only [Backend.ingestWith]
  generalize server.seen.claim _ clock.claimed = claimed at hgranted hseen ⊢
  generalize server'.seen.claim _ clock.claimed = claimed' at hgranted hseen ⊢
  obtain ⟨granted, seen⟩ := claimed
  obtain ⟨_, seen'⟩ := claimed'
  obtain rfl : granted = _ := hgranted
  cases granted with
  | false => exact ⟨⟨rfl, Or.inl hhash, .none, rfl⟩, hseen, h.db⟩
  | true =>
  generalize backend.crypto.decrypt packet.ciphertext = opened at hopens ⊢
  generalize backend.crypto.decrypt packet'.ciphertext = opened' at hopens ⊢
  cases hopens with
  | error => exact ⟨invalid_alike hhash _, hseen, h.db⟩
  | @ok instruction instruction' hsame =>
  have hfresh : backend.freshnessWith arith clock.checked instruction =
      backend.freshnessWith arith clock.checked instruction' := by
    rw [Backend.freshnessWith, Backend.freshnessWith, hsame.signedAt]
  simp only [hfresh]
  cases backend.freshnessWith arith clock.checked instruction' with
  | error err => exact ⟨invalid_internalError_alike (.same err), hseen, h.db⟩
  | ok verdict =>
  cases verdict with
  | some reason => exact ⟨invalid_alike hhash reason, hseen, h.db⟩
  | none =>
  obtain ⟨houtcomes, hafter⟩ := @settleWith_alikeRow _ arith backend.platform _ _ _ _ bridgeNodeId hopCount
    clock.stamped hblind.biUnique hhash hsame _ _ h.db
  simp only
  generalize (settleWith arith backend.platform instruction _ _ _ _).run server.db = settled
    at houtcomes hafter ⊢
  generalize (settleWith arith backend.platform instruction' _ _ _ _).run server'.db = settled'
    at houtcomes hafter ⊢
  obtain ⟨outcome, db⟩ := settled
  obtain ⟨outcome', db'⟩ := settled'
  cases houtcomes with
  | error herr => exact ⟨invalid_internalError_alike herr, hseen, hafter⟩
  | @ok row row' hrow =>
    refine ⟨⟨rfl, Or.inl hhash, .none, ?_⟩, hseen, hafter⟩
    rw [hrow.others]
    rfl

/-- A delivery without rounding is answered alike. -/
theorem ingest_alike (hblind : backend.Blind C) (h : server.Alike (backend.Hashes C) server')
    (hpacket : C packet.ciphertext packet'.ciphertext) :
    (backend.ingest server packet bridgeNodeId hopCount clock).1.Alike (backend.Hashes C)
        (backend.ingest server' packet' bridgeNodeId hopCount clock).1 ∧
      (backend.ingest server packet bridgeNodeId hopCount clock).2.Alike (backend.Hashes C)
        (backend.ingest server' packet' bridgeNodeId hopCount clock).2 :=
  ingestWith_alike hblind h hpacket

end

end UpiOfflineMesh
