import UpiOfflineMesh.HybridCryptoService
import UpiOfflineMesh.IdempotencyService
import UpiOfflineMesh.SettlementService

/-!
# The ingestion pipeline

`ingest` of `src/services/bridgeIngestionService.js`: hash, claim, decrypt, check
freshness, settle. The claim stays when a later step fails, while the database
rolls back. `IngestEffect` lists what a delivery can do to the server, for every
state and every packet.
-/

namespace UpiOfflineMesh

open Js

/-- The outcome told to the bridge node. -/
inductive Outcome where
  | settled
  | duplicateDropped
  | invalid
  deriving DecidableEq, Repr

/-- Why a packet is invalid. -/
inductive Reason where
  | decryptionFailed
  | stalePacket
  | futureDated
  | internalError (message : String)
  deriving DecidableEq, Repr

/-- The text of a reason in the response. -/
def Reason.text : Reason → String
  | decryptionFailed => "decryption_failed"
  | stalePacket => "stale_packet"
  | futureDated => "future_dated"
  | internalError message => "internal_error: " ++ message

/-- The result of a delivery. -/
structure IngestResult where
  outcome : Outcome
  packetHash : String
  reason : Option Reason := none
  transactionId : Option ℕ := none
  deriving DecidableEq, Repr

/-- `IngestResult.settled(hash, tx)`. -/
def IngestResult.settled (hash : String) (tx : Transaction) : IngestResult :=
  ⟨.settled, hash, none, some tx.id⟩

/-- `IngestResult.duplicate(hash)`. -/
def IngestResult.duplicate (hash : String) : IngestResult := ⟨.duplicateDropped, hash, none, none⟩

/-- `IngestResult.invalid(hash, reason)`. -/
def IngestResult.invalid (hash : String) (reason : Reason) : IngestResult :=
  ⟨.invalid, hash, some reason, none⟩

/-- The three readings of the clock in one call: at the claim, at the freshness
check and when the ledger row is stamped. -/
structure Clock where
  claimed : ℤ
  checked : ℤ
  stamped : ℤ
  deriving DecidableEq, Repr

/-- The constructor arguments of the server's services: its crypto service and
its configured windows. -/
structure Backend where
  platform : Platform
  crypto : CryptoService
  /-- How long the idempotency cache keeps a claim. -/
  ttlSeconds : ℚ
  maxAgeSeconds : ℚ
  clockSkewTolerance : ℚ

/-- What the server remembers: the idempotency cache and the database. -/
structure Server where
  seen : SeenCache
  db : InMemoryDb

/-- The server after claiming a hash at an instant. -/
def Server.claim (server : Server) (packetHash : String) (now : ℤ) : Server :=
  { server with seen := server.seen.set (packetHash, now) }

namespace Backend

/-- The freshness check of step 4: the age in seconds against the two windows;
none when the packet is fresh. -/
def freshnessWith (arith : Arithmetic) (backend : Backend) (now : ℤ)
    (instruction : PaymentInstruction) : Except Error (Option Reason) := do
  let signedAt ← instruction.signedAt.toNumberWith arith backend.platform
  let ageSeconds := arith.divNat (arith.sub (.fin now) signedAt) 1000
  if (Number.fin backend.maxAgeSeconds).lt ageSeconds then return some .stalePacket
  else if ageSeconds.lt (.fin (-backend.clockSkewTolerance)) then return some .futureDated
  else return none

/-- The freshness check without rounding. -/
def freshness (backend : Backend) (now : ℤ) (instruction : PaymentInstruction) :
    Except Error (Option Reason) :=
  freshnessWith .exact backend now instruction

/-- Ingests a packet that a bridge device uploads. -/
def ingestWith (arith : Arithmetic) (backend : Backend) (server : Server) (packet : MeshPacket)
    (bridgeNodeId : String) (hopCount : Number) (clock : Clock) : IngestResult × Server :=
  let packetHash := backend.crypto.hashCiphertext packet.ciphertext
  match server.seen.claim packetHash clock.claimed with
  | (false, seen) => (.duplicate packetHash, { server with seen })
  | (true, seen) =>
    match backend.crypto.decrypt packet.ciphertext with
    | .error _ => (.invalid packetHash .decryptionFailed, { server with seen })
    | .ok instruction =>
      match freshnessWith arith backend clock.checked instruction with
      | .error err => (.invalid "?" (.internalError err.message), { server with seen })
      | .ok (some reason) => (.invalid packetHash reason, { server with seen })
      | .ok none =>
        match (settleWith arith backend.platform instruction packetHash bridgeNodeId hopCount
            clock.stamped).run server.db with
        | (.ok tx, db) => (.settled packetHash tx, ⟨seen, db⟩)
        | (.error err, db) => (.invalid "?" (.internalError err.message), ⟨seen, db⟩)

/-- Ingests a packet without rounding. -/
def ingest (backend : Backend) (server : Server) (packet : MeshPacket) (bridgeNodeId : String)
    (hopCount : Number) (clock : Clock) : IngestResult × Server :=
  ingestWith .exact backend server packet bridgeNodeId hopCount clock

/-- The idempotency key of a packet. -/
def hashOf (backend : Backend) (packet : MeshPacket) : String :=
  backend.crypto.hashCiphertext packet.ciphertext

/-- The packet decrypts to this instruction and passes the freshness check. -/
structure AcceptsWith (arith : Arithmetic) (backend : Backend) (now : ℤ) (packet : MeshPacket)
    (instruction : PaymentInstruction) : Prop where
  decrypted : backend.crypto.decrypt packet.ciphertext = .ok instruction
  fresh : freshnessWith arith backend now instruction = .ok none

/-- The packet passes the freshness check without rounding. -/
abbrev Accepts := AcceptsWith .exact

/-! ### The freshness windows -/

/-- The instants that count as fresh, in milliseconds: not older than the maximum
age and not further ahead than the clock skew tolerance. -/
def InWindow (backend : Backend) (now : ℤ) (t : ℚ) : Prop :=
  now - backend.maxAgeSeconds * 1000 ≤ t ∧ t ≤ now + backend.clockSkewTolerance * 1000

instance (backend : Backend) (now : ℤ) (t : ℚ) : Decidable (backend.InWindow now t) :=
  inferInstanceAs (Decidable (_ ∧ _))

section

variable {backend : Backend} {now : ℤ} {instruction : PaymentInstruction}

theorem freshness_eq : backend.freshness now instruction = (do
    let signedAt ← instruction.signedAt.toNumber backend.platform
    let ageSeconds := ((Number.fin now).sub signedAt).divNat 1000
    if (Number.fin backend.maxAgeSeconds).lt ageSeconds then return some .stalePacket
    else if ageSeconds.lt (.fin (-backend.clockSkewTolerance)) then return some .futureDated
    else return none) := rfl

/-- The two comparisons on a finite reading of `signedAt`. -/
theorem freshness_fin {t : ℚ}
    (h : instruction.signedAt.toNumber backend.platform = .ok (.fin t)) :
    backend.freshness now instruction =
      if backend.maxAgeSeconds < (now - t) / 1000 then .ok (some .stalePacket)
      else if (now - t) / 1000 < -backend.clockSkewTolerance then .ok (some .futureDated)
      else .ok none := by
  rw [freshness_eq, h]
  change (if (Number.fin backend.maxAgeSeconds).lt (((Number.fin now).sub (.fin t)).divNat 1000)
    then _ else _ : Except Error (Option Reason)) = _
  simp only [Number.sub_fin, Number.divNat_fin, Number.lt_fin, decide_eq_true_eq]
  rfl

/-- A finite reading of `signedAt` is fresh exactly inside the window. -/
theorem freshness_fin_iff {t : ℚ}
    (h : instruction.signedAt.toNumber backend.platform = .ok (.fin t)) :
    backend.freshness now instruction = .ok none ↔ backend.InWindow now t := by
  rw [freshness_fin h, InWindow]
  by_cases hstale : backend.maxAgeSeconds < (now - t) / 1000
  · rw [if_pos hstale]
    simp only [Except.ok.injEq, reduceCtorEq, false_iff, not_and]
    intro hlower
    linarith
  by_cases hfuture : (now - t) / 1000 < -backend.clockSkewTolerance
  · rw [if_neg hstale, if_pos hfuture]
    simp only [Except.ok.injEq, reduceCtorEq, false_iff, not_and]
    intro _ hupper
    linarith
  · rw [if_neg hstale, if_neg hfuture]
    simp only [true_iff]
    constructor
    · linarith
    · linarith

/-- A reading beyond the maximum age is refused as stale. -/
theorem freshness_stale {t : ℚ}
    (h : instruction.signedAt.toNumber backend.platform = .ok (.fin t))
    (hold : t < now - backend.maxAgeSeconds * 1000) :
    backend.freshness now instruction = .ok (some .stalePacket) := by
  rw [freshness_fin h, if_pos (by linarith)]

/-- A fresh `signedAt` converts to `NaN` or to a number inside the window. -/
theorem toNumber_of_fresh (h : backend.freshness now instruction = .ok none) :
    ∃ x, instruction.signedAt.toNumber backend.platform = .ok x ∧
      (x = .nan ∨ ∃ t, x = .fin t ∧ backend.InWindow now t) := by
  cases hx : instruction.signedAt.toNumber backend.platform with
  | error err =>
    rw [freshness_eq, hx] at h
    cases h
  | ok x =>
    refine ⟨x, rfl, ?_⟩
    cases x with
    | nan => exact Or.inl rfl
    | fin t => exact Or.inr ⟨t, rfl, (freshness_fin_iff hx).mp h⟩
    | infinity =>
      rw [freshness_eq, hx] at h
      cases h
    | negInfinity =>
      rw [freshness_eq, hx] at h
      cases h

end

/-! ### What a delivery can do -/

/-- What a delivery may answer and leave behind: it meets a claimed hash; it is
refused, which leaves the claim and nothing else; it records a rejection; or it
moves money and records that. Both kinds of rows are answered as settled. -/
inductive IngestEffect (backend : Backend) (server : Server) (packet : MeshPacket)
    (bridgeNodeId : String) (hopCount : Number) (clock : Clock) : IngestResult → Server → Prop
  | duplicate (hseen : server.seen.has (backend.hashOf packet) = true) :
      IngestEffect backend server packet bridgeNodeId hopCount clock
        (.duplicate (backend.hashOf packet)) server
  | refused (hash : String) (reason : Reason)
      (hnew : server.seen.has (backend.hashOf packet) = false)
      (hwhy : ∀ instruction sender receiver amount signedAt,
        backend.Accepts clock.checked packet instruction →
        Admissible backend.platform server.db instruction (backend.hashOf packet) sender receiver
            amount signedAt →
          sender.getBalanceAsNumber.lt amount = false ∧ sender.vpa = receiver.vpa) :
      IngestEffect backend server packet bridgeNodeId hopCount clock
        (.invalid hash reason) (server.claim (backend.hashOf packet) clock.claimed)
  | rejected {instruction : PaymentInstruction} {sender receiver : Account} {amount : Number}
      {signedAt : ℤ} (hnew : server.seen.has (backend.hashOf packet) = false)
      (haccepts : backend.Accepts clock.checked packet instruction)
      (hadmissible : Admissible backend.platform server.db instruction (backend.hashOf packet)
        sender receiver amount signedAt)
      (hfunds : sender.getBalanceAsNumber.lt amount = true) (row : Transaction)
      (hrow : row = nextRow server.db instruction (backend.hashOf packet) bridgeNodeId hopCount
        amount signedAt clock.stamped .rejected) :
      IngestEffect backend server packet bridgeNodeId hopCount clock
        (.settled (backend.hashOf packet) row)
        ⟨server.seen.set (backend.hashOf packet, clock.claimed), server.db.insertRow row⟩
  | settled {instruction : PaymentInstruction} {sender receiver : Account} {amount : Number}
      {signedAt : ℤ} (hnew : server.seen.has (backend.hashOf packet) = false)
      (haccepts : backend.Accepts clock.checked packet instruction)
      (hadmissible : Admissible backend.platform server.db instruction (backend.hashOf packet)
        sender receiver amount signedAt)
      (hfunds : sender.getBalanceAsNumber.lt amount = false) (hne : sender.vpa ≠ receiver.vpa)
      (row : Transaction)
      (hrow : row = nextRow server.db instruction (backend.hashOf packet) bridgeNodeId hopCount
        amount signedAt clock.stamped .settled) :
      IngestEffect backend server packet bridgeNodeId hopCount clock
        (.settled (backend.hashOf packet) row)
        ⟨server.seen.set (backend.hashOf packet, clock.claimed),
          (server.db.transfer sender receiver amount).insertRow row⟩

section

variable {arith : Arithmetic} {backend : Backend} {server : Server} {packet : MeshPacket}
  {bridgeNodeId : String} {hopCount : Number} {clock : Clock} {instruction : PaymentInstruction}

/-- A claimed hash is dropped without any change. -/
theorem ingestWith_of_seen (h : server.seen.has (backend.hashOf packet) = true) :
    ingestWith arith backend server packet bridgeNodeId hopCount clock =
      (.duplicate (backend.hashOf packet), server) := by
  simp only [hashOf] at h
  simp only [ingestWith, SeenCache.claim, h, if_true, hashOf]

/-- A new packet that does not decrypt. -/
theorem ingestWith_of_not_decrypted {err : Error}
    (hnew : server.seen.has (backend.hashOf packet) = false)
    (hdecrypt : backend.crypto.decrypt packet.ciphertext = .error err) :
    ingestWith arith backend server packet bridgeNodeId hopCount clock =
      (.invalid (backend.hashOf packet) .decryptionFailed,
        server.claim (backend.hashOf packet) clock.claimed) := by
  simp only [hashOf] at hnew
  simp only [ingestWith, SeenCache.claim, hnew, Bool.false_eq_true, if_false, hdecrypt, hashOf,
    Server.claim]

/-- A new packet that the freshness check refuses. -/
theorem ingestWith_of_not_fresh {reason : Reason}
    (hnew : server.seen.has (backend.hashOf packet) = false)
    (hdecrypt : backend.crypto.decrypt packet.ciphertext = .ok instruction)
    (hreason : freshnessWith arith backend clock.checked instruction = .ok (some reason)) :
    ingestWith arith backend server packet bridgeNodeId hopCount clock =
      (.invalid (backend.hashOf packet) reason,
        server.claim (backend.hashOf packet) clock.claimed) := by
  simp only [hashOf] at hnew
  simp only [ingestWith, SeenCache.claim, hnew, Bool.false_eq_true, if_false, hdecrypt, hreason,
    hashOf, Server.claim]

/-- A new packet whose freshness check throws. -/
theorem ingestWith_of_freshness_throws {err : Error}
    (hnew : server.seen.has (backend.hashOf packet) = false)
    (hdecrypt : backend.crypto.decrypt packet.ciphertext = .ok instruction)
    (hthrown : freshnessWith arith backend clock.checked instruction = .error err) :
    ingestWith arith backend server packet bridgeNodeId hopCount clock =
      (.invalid "?" (.internalError err.message),
        server.claim (backend.hashOf packet) clock.claimed) := by
  simp only [hashOf] at hnew
  simp only [ingestWith, SeenCache.claim, hnew, Bool.false_eq_true, if_false, hdecrypt, hthrown,
    hashOf, Server.claim]

/-- A new and accepted packet is answered by what `settle` does. -/
theorem ingestWith_of_accepts (hnew : server.seen.has (backend.hashOf packet) = false)
    (haccepts : AcceptsWith arith backend clock.checked packet instruction) :
    ingestWith arith backend server packet bridgeNodeId hopCount clock =
      match (settleWith arith backend.platform instruction (backend.hashOf packet) bridgeNodeId
          hopCount clock.stamped).run server.db with
      | (.ok tx, db) => (.settled (backend.hashOf packet) tx,
          ⟨server.seen.set (backend.hashOf packet, clock.claimed), db⟩)
      | (.error err, db) => (.invalid "?" (.internalError err.message),
          ⟨server.seen.set (backend.hashOf packet, clock.claimed), db⟩) := by
  simp only [hashOf] at hnew
  simp only [ingestWith, SeenCache.claim, hnew, Bool.false_eq_true, if_false, haccepts.decrypted,
    haccepts.fresh, hashOf]

/-- A new and accepted packet whose sender lacks the funds is answered as
settled, and its row is a rejection. -/
theorem ingestWith_rejected {sender receiver : Account} {amount : Number} {signedAt : ℤ}
    (hnew : server.seen.has (backend.hashOf packet) = false)
    (haccepts : AcceptsWith arith backend clock.checked packet instruction)
    (hadmissible : AdmissibleWith arith backend.platform server.db instruction
      (backend.hashOf packet) sender receiver amount signedAt)
    (hfunds : (sender.getBalanceAsNumberWith arith).lt amount = true) {row : Transaction}
    (hrow : row = nextRowWith arith server.db instruction (backend.hashOf packet) bridgeNodeId
      hopCount amount signedAt clock.stamped .rejected) :
    ingestWith arith backend server packet bridgeNodeId hopCount clock =
      (.settled (backend.hashOf packet) row,
        ⟨server.seen.set (backend.hashOf packet, clock.claimed), server.db.insertRow row⟩) := by
  rw [ingestWith_of_accepts hnew haccepts, settleWith_rejected hadmissible hfunds, ← hrow]

/-- A new and accepted packet with funds and two different accounts moves the money. -/
theorem ingestWith_settled {sender receiver : Account} {amount : Number} {signedAt : ℤ}
    (hnew : server.seen.has (backend.hashOf packet) = false)
    (haccepts : AcceptsWith arith backend clock.checked packet instruction)
    (hadmissible : AdmissibleWith arith backend.platform server.db instruction
      (backend.hashOf packet) sender receiver amount signedAt)
    (hfunds : (sender.getBalanceAsNumberWith arith).lt amount = false)
    (hne : sender.vpa ≠ receiver.vpa) {row : Transaction}
    (hrow : row = nextRowWith arith server.db instruction (backend.hashOf packet) bridgeNodeId
      hopCount amount signedAt clock.stamped .settled) :
    ingestWith arith backend server packet bridgeNodeId hopCount clock =
      (.settled (backend.hashOf packet) row,
        ⟨server.seen.set (backend.hashOf packet, clock.claimed),
          (server.db.transferWith arith sender receiver amount).insertRow row⟩) := by
  rw [ingestWith_of_accepts hnew haccepts, settleWith_settled hadmissible hfunds hne, ← hrow]

/-- A claimed hash is dropped. -/
theorem ingest_of_seen (h : server.seen.has (backend.hashOf packet) = true) :
    backend.ingest server packet bridgeNodeId hopCount clock =
      (.duplicate (backend.hashOf packet), server) :=
  ingestWith_of_seen h

/-- A new packet that does not decrypt leaves its claim and nothing else. -/
theorem ingest_of_not_decrypted {err : Error}
    (hnew : server.seen.has (backend.hashOf packet) = false)
    (hdecrypt : backend.crypto.decrypt packet.ciphertext = .error err) :
    backend.ingest server packet bridgeNodeId hopCount clock =
      (.invalid (backend.hashOf packet) .decryptionFailed,
        server.claim (backend.hashOf packet) clock.claimed) :=
  ingestWith_of_not_decrypted hnew hdecrypt

/-- A new packet outside the windows leaves its claim and nothing else. -/
theorem ingest_of_not_fresh {reason : Reason}
    (hnew : server.seen.has (backend.hashOf packet) = false)
    (hdecrypt : backend.crypto.decrypt packet.ciphertext = .ok instruction)
    (hreason : backend.freshness clock.checked instruction = .ok (some reason)) :
    backend.ingest server packet bridgeNodeId hopCount clock =
      (.invalid (backend.hashOf packet) reason,
        server.claim (backend.hashOf packet) clock.claimed) :=
  ingestWith_of_not_fresh hnew hdecrypt hreason

/-- A new and accepted packet is answered by what `settle` does without rounding. -/
theorem ingest_of_accepts (hnew : server.seen.has (backend.hashOf packet) = false)
    (haccepts : backend.Accepts clock.checked packet instruction) :
    backend.ingest server packet bridgeNodeId hopCount clock =
      match (settle backend.platform instruction (backend.hashOf packet) bridgeNodeId hopCount
          clock.stamped).run server.db with
      | (.ok tx, db) => (.settled (backend.hashOf packet) tx,
          ⟨server.seen.set (backend.hashOf packet, clock.claimed), db⟩)
      | (.error err, db) => (.invalid "?" (.internalError err.message),
          ⟨server.seen.set (backend.hashOf packet, clock.claimed), db⟩) :=
  ingestWith_of_accepts hnew haccepts

/-- **Effect of a delivery**, for every server state and every packet. -/
theorem ingest_effect :
    IngestEffect backend server packet bridgeNodeId hopCount clock
      (backend.ingest server packet bridgeNodeId hopCount clock).1
      (backend.ingest server packet bridgeNodeId hopCount clock).2 := by
  cases hseen : server.seen.has (backend.hashOf packet) with
  | true =>
    rw [ingest_of_seen hseen]
    exact .duplicate hseen
  | false =>
  cases hdecrypt : backend.crypto.decrypt packet.ciphertext with
  | error err =>
    rw [ingest_of_not_decrypted hseen hdecrypt]
    refine .refused _ _ hseen fun instruction _ _ _ _ haccepts => ?_
    rw [haccepts.decrypted] at hdecrypt
    cases hdecrypt
  | ok instruction =>
  have hrefused : backend.freshness clock.checked instruction ≠ .ok none →
      ∀ instruction', ¬backend.Accepts clock.checked packet instruction' := by
    intro hne instruction' haccepts
    obtain rfl : instruction' = instruction :=
      Except.ok.inj (haccepts.decrypted.symm.trans hdecrypt)
    exact hne haccepts.fresh
  cases hfresh : backend.freshness clock.checked instruction with
  | error err =>
    rw [ingest, ingestWith_of_freshness_throws hseen hdecrypt hfresh]
    exact .refused _ _ hseen fun instruction' _ _ _ _ haccepts =>
      absurd haccepts (hrefused (by simp [hfresh]) instruction')
  | ok verdict =>
  cases verdict with
  | some reason =>
    rw [ingest_of_not_fresh hseen hdecrypt hfresh]
    exact .refused _ _ hseen fun instruction' _ _ _ _ haccepts =>
      absurd haccepts (hrefused (by simp [hfresh]) instruction')
  | none =>
    have haccepts : backend.Accepts clock.checked packet instruction := ⟨hdecrypt, hfresh⟩
    have heffect := @settle_effect backend.platform server.db instruction (backend.hashOf packet)
      bridgeNodeId hopCount clock.stamped
    rw [ingest_of_accepts hseen haccepts]
    generalize (settle backend.platform instruction (backend.hashOf packet) bridgeNodeId hopCount
      clock.stamped).run server.db = outcome at heffect ⊢
    obtain ⟨result, db⟩ := outcome
    cases heffect with
    | thrown err hwhy =>
      refine .refused _ _ hseen fun instruction' sender receiver amount signedAt haccepts' => ?_
      obtain rfl : instruction' = instruction :=
        Except.ok.inj (haccepts'.decrypted.symm.trans hdecrypt)
      exact hwhy sender receiver amount signedAt
    | rejected hadmissible hfunds => exact .rejected hseen haccepts hadmissible hfunds _ rfl
    | settled hadmissible hfunds hne =>
      exact .settled hseen haccepts hadmissible hfunds hne _ rfl

/-- Whatever else happens, a delivery leaves the cache as its claim does. -/
theorem seen_ingest : (backend.ingest server packet bridgeNodeId hopCount clock).2.seen =
    (server.seen.claim (backend.hashOf packet) clock.claimed).2 := by
  have heffect := @ingest_effect backend server packet bridgeNodeId hopCount clock
  generalize (backend.ingest server packet bridgeNodeId hopCount clock).1 = result at heffect
  generalize (backend.ingest server packet bridgeNodeId hopCount clock).2 = after at heffect ⊢
  cases heffect with
  | duplicate hseen => rw [SeenCache.claim, if_pos hseen]
  | refused hash reason hnew => simp [SeenCache.claim, hnew, Server.claim]
  | rejected hnew => simp [SeenCache.claim, hnew]
  | settled hnew => simp [SeenCache.claim, hnew]

end

end Backend

end UpiOfflineMesh
