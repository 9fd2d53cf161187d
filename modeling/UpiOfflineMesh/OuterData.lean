import UpiOfflineMesh.AlikeDatabases
import UpiOfflineMesh.Server

/-!
# The untrusted outer data

Relays write the packet's readable header, and the bridge its own name and the hop
count. Two runs that submit the same ciphertexts at the same instants go through
the pipeline side by side whatever these fields say: they are carried into the
ledger row and looked at nowhere.
-/

namespace UpiOfflineMesh

open Js InMemoryDb

/-- The row without the two fields that say how the packet arrived. -/
def Transaction.withoutRoute (row : Transaction) : Transaction :=
  { row with bridgeNodeId := "", hopCount := .fin 0 }

/-- Databases that differ at most in how packets arrived: the ledgers are equal slot
by slot except for bridge and hop count. -/
structure InMemoryDb.SameButRoutes (db db' : InMemoryDb) : Prop where
  accounts_eq : db.accounts = db'.accounts
  txPacketHashes_eq : db.txPacketHashes = db'.txPacketHashes
  nextTxId_eq : db.nextTxId = db'.nextTxId
  transactions_eq : db.transactions.map (Option.map Transaction.withoutRoute) =
    db'.transactions.map (Option.map Transaction.withoutRoute)

/-- Servers with equal caches whose databases differ at most in how packets arrived. -/
structure Server.SameButRoutes (server server' : Server) : Prop where
  seen_eq : server.seen = server'.seen
  db : server.db.SameButRoutes server'.db

/-- Two events that agree on everything but the outer data of a delivery: packet id,
ttl, creation time, bridge and hop count. -/
inductive SameButOuter : Event → Event → Prop
  | ingest (packet packet' : MeshPacket) (hsame : packet.ciphertext = packet'.ciphertext)
      (bridgeNodeId bridgeNodeId' : String) (hopCount hopCount' : Number) (clock : Clock) :
      SameButOuter (.ingest packet bridgeNodeId hopCount clock)
        (.ingest packet' bridgeNodeId' hopCount' clock)
  | evictExpired (now : ℤ) : SameButOuter (.evictExpired now) (.evictExpired now)
  | clear : SameButOuter .clear .clear

/-- Rows that differ at most in how the packet arrived. -/
def SameRow (row row' : Transaction) : Prop := row.withoutRoute = row'.withoutRoute

theorem SameRow.id_eq {row row' : Transaction} (h : SameRow row row') : row.id = row'.id :=
  (Transaction.mk.inj h).1

theorem SameRow.packetHash_eq {row row' : Transaction} (h : SameRow row row') :
    row.packetHash = row'.packetHash :=
  (Transaction.mk.inj h).2.1

namespace InMemoryDb.SameButRoutes

variable {db db' : InMemoryDb}

theorem refl (db : InMemoryDb) : db.SameButRoutes db := ⟨rfl, rfl, rfl, rfl⟩

theorem length_eq (h : db.SameButRoutes db') : db.transactions.length = db'.transactions.length := by
  have hlength := congrArg List.length h.transactions_eq
  simpa using hlength

theorem insertRow (h : db.SameButRoutes db') {row row' : Transaction} (hrow : SameRow row row') :
    (db.insertRow row).SameButRoutes (db'.insertRow row') := by
  refine ⟨h.accounts_eq, ?_, ?_, ?_⟩
  · rw [txPacketHashes_insertRow, txPacketHashes_insertRow, h.txPacketHashes_eq,
      hrow.packetHash_eq]
  · rw [nextTxId_insertRow, nextTxId_insertRow, h.nextTxId_eq]
  · rw [SameRow] at hrow
    simp [InMemoryDb.insertRow, h.transactions_eq, hrow]

/-- Cutting off or extending the ledger to one length keeps the slots equal. -/
theorem setLength_eq (h : db.SameButRoutes db') (n : ℕ) :
    (setLength db.transactions n).map (Option.map Transaction.withoutRoute) =
      (setLength db'.transactions n).map (Option.map Transaction.withoutRoute) := by
  rw [setLength, setLength, List.map_append, List.map_append, List.map_take, List.map_take,
    h.transactions_eq, h.length_eq]

end InMemoryDb.SameButRoutes

/-! ### One call on both sides -/

theorem equalAccounts_sameButRoutes : EqualAccounts SameButRoutes where
  accounts_eq h := h.accounts_eq
  setAccounts h _ := { h with accounts_eq := rfl }
  rollback h hafter := { h with transactions_eq := h.length_eq ▸ hafter.setLength_eq _ }

section

variable {arith : Arithmetic} {platform : Platform} {instruction : PaymentInstruction}
  {packetHash bridgeNodeId bridgeNodeId' : String} {hopCount hopCount' : Number} {now : ℤ}

/-- The row data of two calls that differ in the route only. -/
theorem saveTransactionWith_sameRow (amount : Number) (signedAt : ℤ) (status : TransactionStatus) :
    RunsAlike SameButRoutes Eq SameRow
      (saveTransactionWith arith
        (ledgerData instruction packetHash bridgeNodeId hopCount amount signedAt now status))
      (saveTransactionWith arith
        (ledgerData instruction packetHash bridgeNodeId' hopCount' amount signedAt now status)) := by
  refine RunsAlike.bind .get fun db db' h => ?_
  refine .ite (by rw [h.txPacketHashes_eq]; rfl) (.throw rfl) ?_
  have hrow : SameRow
      (.newWith arith
        (ledgerData instruction packetHash bridgeNodeId hopCount amount signedAt now status)
        db.nextTxId)
      (.newWith arith
        (ledgerData instruction packetHash bridgeNodeId' hopCount' amount signedAt now status)
        db'.nextTxId) := by
    rw [h.nextTxId_eq]
    rfl
  exact .bind (.set (h.insertRow hrow)) fun _ _ _ => .pure hrow

/-- **`settle` side by side:** bridge and hop count reach the row and nothing else. -/
theorem settleWith_sameRow :
    RunsAlike SameButRoutes Eq SameRow
      (settleWith arith platform instruction packetHash bridgeNodeId hopCount now)
      (settleWith arith platform instruction packetHash bridgeNodeId' hopCount' now) :=
  settleWith_alike equalAccounts_sameButRoutes (fun _ => rfl) (.refl instruction)
    saveTransactionWith_sameRow

end

/-! ### Runs on both sides -/

/-- Deliveries that agree on the ciphertext are answered alike from alike servers. -/
theorem ingestWith_sameButRoutes {arith : Arithmetic} {backend : Backend}
    {server server' : Server} (h : server.SameButRoutes server') {packet packet' : MeshPacket}
    (hsame : packet.ciphertext = packet'.ciphertext) (bridgeNodeId bridgeNodeId' : String)
    (hopCount hopCount' : Number) (clock : Clock) :
    (backend.ingestWith arith server packet bridgeNodeId hopCount clock).1 =
        (backend.ingestWith arith server' packet' bridgeNodeId' hopCount' clock).1 ∧
      (backend.ingestWith arith server packet bridgeNodeId hopCount clock).2.SameButRoutes
        (backend.ingestWith arith server' packet' bridgeNodeId' hopCount' clock).2 := by
  obtain ⟨seen, db⟩ := server
  obtain ⟨seen', db'⟩ := server'
  obtain rfl : seen = seen' := h.seen_eq
  simp only [Backend.ingestWith, hsame]
  generalize seen.claim (backend.crypto.hashCiphertext packet'.ciphertext) clock.claimed = claim
  obtain ⟨claimed, seen⟩ := claim
  cases claimed with
  | false => exact ⟨rfl, rfl, h.db⟩
  | true =>
  cases backend.crypto.decrypt packet'.ciphertext with
  | error err => exact ⟨rfl, rfl, h.db⟩
  | ok instruction =>
  cases hfresh : backend.freshnessWith arith clock.checked instruction with
  | error err => simpa only [hfresh] using ⟨trivial, rfl, h.db⟩
  | ok verdict =>
  cases verdict with
  | some reason => simpa only [hfresh] using ⟨trivial, rfl, h.db⟩
  | none =>
    obtain ⟨houtcome, hafter⟩ := @settleWith_sameRow arith backend.platform instruction
      (backend.crypto.hashCiphertext packet'.ciphertext) bridgeNodeId bridgeNodeId' hopCount
      hopCount' clock.stamped db db' h.db
    simp only [hfresh]
    generalize (settleWith arith backend.platform instruction
      (backend.crypto.hashCiphertext packet'.ciphertext) bridgeNodeId hopCount clock.stamped).run
      db = left at houtcome hafter ⊢
    generalize (settleWith arith backend.platform instruction
      (backend.crypto.hashCiphertext packet'.ciphertext) bridgeNodeId' hopCount' clock.stamped).run
      db' = right at houtcome hafter ⊢
    obtain ⟨result, after⟩ := left
    obtain ⟨result', after'⟩ := right
    cases houtcome with
    | ok hrow => exact ⟨by simp only [IngestResult.settled, hrow.id_eq], rfl, hafter⟩
    | error herr => exact ⟨by rw [herr], rfl, hafter⟩

/-- **The outer data cannot influence money.** Two runs from one state that submit the
same ciphertexts in the same order at the same instants, and differ as they like in
packet ids, ttls, creation times, bridges and hop counts, get the same results and
end with the same accounts, cache, index and next id, and with ledgers that are
equal row by row except in bridge and hop count. -/
theorem outer_data_irrelevant (backend : Backend) (server : Server) (events events' : List Event)
    (hevents : List.Forall₂ SameButOuter events events') :
    (backend.machine.transitions server events).map Transition.output =
        (backend.machine.transitions server events').map Transition.output ∧
      (backend.machine.final server events).SameButRoutes (backend.machine.final server events') := by
  have hstep : ∀ (server server' : Server) (event event' : Event), server.SameButRoutes server' →
      SameButOuter event event' →
        (backend.machine.step server event).1 = (backend.machine.step server' event').1 ∧
          (backend.machine.next server event).SameButRoutes
            (backend.machine.next server' event') := by
    intro server server' event event' h hevent
    cases hevent with
    | ingest packet packet' hsame bridgeNodeId bridgeNodeId' hopCount hopCount' clock =>
      obtain ⟨hresult, hafter⟩ :=
        ingestWith_sameButRoutes h hsame bridgeNodeId bridgeNodeId' hopCount hopCount' clock
      exact ⟨congrArg some hresult, hafter⟩
    | evictExpired now => exact ⟨rfl, by rw [next_evictExpired, h.seen_eq]; rfl, h.db⟩
    | clear => exact ⟨rfl, rfl, h.db⟩
  obtain ⟨houtputs, hfinal⟩ :=
    Machine.simulation hstep ⟨rfl, InMemoryDb.SameButRoutes.refl server.db⟩ hevents
  exact ⟨List.forall₂_eq_eq_eq ▸ houtputs, hfinal⟩

/-- One ciphertext under two headers, from two bridges. -/
theorem outer_data_irrelevant_twoHeaders :
    ((backendPaying (.num (.fin 500)) (.num (.fin 1000))).machine.transitions seeded
        [.ingest ⟨"packet-1", .fin 4, .fin 0, "c1"⟩ "bridge-1" (.fin 1) ⟨2000, 2000, 2000⟩]).map
          Transition.output =
      ((backendPaying (.num (.fin 500)) (.num (.fin 1000))).machine.transitions seeded
        [.ingest ⟨"packet-9", .fin (-7), .fin 99, "c1"⟩ "bridge-2" .nan ⟨2000, 2000, 2000⟩]).map
          Transition.output :=
  (outer_data_irrelevant (backendPaying (.num (.fin 500)) (.num (.fin 1000))) seeded _ _
    (.cons (.ingest _ _ rfl _ _ _ _ _) .nil)).1

end UpiOfflineMesh
