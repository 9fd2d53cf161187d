import UpiOfflineMesh.ApiRoutes
import UpiOfflineMesh.ClaimAccounting
import UpiOfflineMesh.LedgerIntegrity

/-!
# What the read routes show

`/mesh/state`, `/accounts` and `/transactions` of `src/routes/apiRoutes.js` only look. What
they show can be told from the responses alone: every row is announced with its id when it
is written, and every entry of the cache with an answer that is not a dropped duplicate.
-/

namespace UpiOfflineMesh

open Js InMemoryDb Mesh

/-! ### The read routes -/

/-- A phone in the answer of `/mesh/state`. -/
structure DeviceData where
  deviceId : String
  hasInternet : Bool
  packetCount : ℕ
  packetIds : List String
  deriving DecidableEq, Repr

/-- The answer of `/mesh/state`. -/
structure MeshState where
  devices : List DeviceData
  idempotencyCacheSize : ℕ
  deriving DecidableEq, Repr

namespace AppState

/-- `/mesh/state`. -/
def meshState (state : AppState) : MeshState where
  devices := state.mesh.values.map fun d =>
    ⟨d.deviceId, d.hasInternet, d.packetCount,
      d.getHeldPackets.map fun p => String.ofList (p.packetId.toList.take 8)⟩
  idempotencyCacheSize := state.server.seen.size

/-- `/accounts`; reading the map does not change it. -/
def accounts (state : AppState) : Except Error (List Account) :=
  (findAllAccounts.run state.server.db).1

/-- `/transactions`. -/
def transactions (state : AppState) : List (Option Transaction) :=
  state.server.db.findTop20Transactions

end AppState

/-! ### What the responses say -/

/-- The ids of new rows in a response; a flush writes -1 for none. -/
def AppResponse.transactionIds : AppResponse → List ℤ
  | .flush response => (response.results.map FlushResult.transactionId).filter (· ≠ -1)
  | .ingest (.result result) => (result.transactionId.map Int.ofNat).toList
  | _ => []

/-- The answers of a response to deliveries that got past the idempotency gate. -/
def AppResponse.processed : AppResponse → ℕ
  | .flush response => response.results.countP (·.outcome ≠ .duplicateDropped)
  | .ingest (.result result) => if result.outcome = .duplicateDropped then 0 else 1
  | _ => 0

/-- The claims that a step takes out of the cache. -/
def forgottenClaims (t : Transition AppState AppEvent AppResponse) : ℕ :=
  t.before.server.seen.size - t.after.server.seen.size

/-- The ids of the ledger. -/
def InMemoryDb.ledgerIds (db : InMemoryDb) : List ℤ := db.rows.map fun row => (row.id : ℤ)

section

variable {backend : Backend} {server : Server}

/-- A delivery announces the row that it appends, and no other. -/
theorem ledgerIds_ingest (packet : MeshPacket) (bridgeNodeId : String) (hopCount : Number)
    (clock : Clock) :
    (backend.ingest server packet bridgeNodeId hopCount clock).2.db.ledgerIds =
      server.db.ledgerIds ++ ((backend.ingest server packet bridgeNodeId hopCount
        clock).1.transactionId.map Int.ofNat).toList := by
  have heffect := @Backend.ingest_effect backend server packet bridgeNodeId hopCount clock
  generalize backend.ingest server packet bridgeNodeId hopCount clock = answer at heffect ⊢
  obtain ⟨result, after⟩ := answer
  cases heffect with
  | duplicate => exact (List.append_nil _).symm
  | refused => exact (List.append_nil _).symm
  | rejected hnew haccepts hadmissible hfunds row =>
    rw [ledgerIds, rows_insertRow, List.map_append]
    rfl
  | settled hnew haccepts hadmissible hfunds hne row =>
    rw [ledgerIds, rows_insertRow, List.map_append]
    rfl

/-- A delivery claims its hash unless it is answered as a duplicate. -/
theorem size_seen_ingest (packet : MeshPacket) (bridgeNodeId : String) (hopCount : Number)
    (clock : Clock) :
    (backend.ingest server packet bridgeNodeId hopCount clock).2.seen.size = server.seen.size +
      if (backend.ingest server packet bridgeNodeId hopCount clock).1.outcome = .duplicateDropped
        then 0 else 1 := by
  have houtcome := @outcome_eq_duplicate_iff backend server packet bridgeNodeId hopCount clock
  rw [Backend.seen_ingest, SeenCache.claim]
  cases hseen : server.seen.has (backend.hashOf packet) with
  | true => rw [if_pos rfl, if_pos (houtcome.mpr hseen), Nat.add_zero]
  | false =>
    have hnew : ¬(backend.ingest server packet bridgeNodeId hopCount clock).1.outcome =
        .duplicateDropped := by
      rw [houtcome, hseen]
      exact Bool.false_ne_true
    rw [if_neg Bool.false_ne_true, if_neg hnew, KeyedMap.size, KeyedMap.values_set_of_not_has hseen,
      List.length_append, List.length_singleton, KeyedMap.size]

/-- The entries of a flush announce the rows that it appends. -/
theorem ledgerIds_ingestUploads (entries : List (Upload × Clock)) :
    (ingestUploads backend server entries).2.db.ledgerIds = server.db.ledgerIds ++
      ((ingestUploads backend server entries).1.map FlushResult.transactionId).filter (· ≠ -1) := by
  induction entries generalizing server with
  | nil => exact (List.append_nil _).symm
  | cons entry entries ih =>
    obtain ⟨up, clock⟩ := entry
    simp only [ingestUploads, List.map_cons, List.filter_cons]
    rw [ih, ledgerIds_ingest, List.append_assoc]
    congr 1
    generalize (backend.ingest server up.packet up.bridgeNodeId _ clock).1 = result
    cases hid : result.transactionId with
    | none => simp [FlushResult.of, hid]
    | some id => simp [FlushResult.of, hid]

/-- The entries of a flush that are no duplicates are its new claims. -/
theorem size_seen_ingestUploads (entries : List (Upload × Clock)) :
    (ingestUploads backend server entries).2.seen.size = server.seen.size +
      (ingestUploads backend server entries).1.countP (·.outcome ≠ .duplicateDropped) := by
  induction entries generalizing server with
  | nil => rfl
  | cons entry entries ih =>
    obtain ⟨up, clock⟩ := entry
    simp only [ingestUploads, List.countP_cons]
    rw [ih, size_seen_ingest]
    generalize (backend.ingest server up.packet up.bridgeNodeId _ clock).1 = result
    by_cases hdropped : result.outcome = .duplicateDropped
    · simp [FlushResult.of, hdropped]
    · simp [FlushResult.of, hdropped]
      omega

/-- A posted body claims a hash unless it is refused or answered as a duplicate. -/
theorem size_seen_bridgeIngest (body : Value) (bridgeHeader hopHeader : Option String)
    (clock : Clock) :
    (bridgeIngest backend server body bridgeHeader hopHeader clock).2.seen.size =
      server.seen.size + (AppResponse.ingest
        (bridgeIngest backend server body bridgeHeader hopHeader clock).1).processed := by
  unfold bridgeIngest
  cases MeshPacket.validate body with
  | error err => rfl
  | ok packet => exact size_seen_ingest packet _ _ clock

end

/-! ### Runs -/

section

variable {api : Api} {state : AppState} {event : AppEvent}

/-- A response announces the rows that the request appends. -/
theorem ledgerIds_next (state : AppState) (event : AppEvent) :
    (api.machine.next state event).server.db.ledgerIds = state.server.db.ledgerIds ++
      (api.machine.transition state event).output.transactionIds := by
  cases event with
  | demoSend body draw => exact (List.append_nil _).symm
  | meshGossip => exact (List.append_nil _).symm
  | meshReset => exact (List.append_nil _).symm
  | evictExpired now => exact (List.append_nil _).symm
  | meshFlush clocks => exact ledgerIds_ingestUploads _
  | bridgeIngest body bridgeHeader hopHeader clock =>
    change (bridgeIngest api.backend state.server body bridgeHeader hopHeader clock).2.db.ledgerIds =
      _ ++ (AppResponse.ingest
        (bridgeIngest api.backend state.server body bridgeHeader hopHeader clock).1).transactionIds
    unfold bridgeIngest
    cases MeshPacket.validate body with
    | error err => exact (List.append_nil _).symm
    | ok packet => exact ledgerIds_ingest packet _ _ clock

/-- An eviction brings no entry. -/
theorem size_evictExpired_le (seen : SeenCache) (ttlSeconds : ℚ) (now : ℤ) :
    (seen.evictExpired ttlSeconds now).size ≤ seen.size := by
  rw [KeyedMap.size, SeenCache.values_evictExpired]
  exact List.length_filter_le _ _

/-- The cache grows by what a response reports as processed. -/
theorem size_seen_next (state : AppState) (event : AppEvent) :
    state.server.seen.size + (api.machine.transition state event).output.processed =
      (api.machine.next state event).server.seen.size +
        forgottenClaims (api.machine.transition state event) := by
  have hforgotten : forgottenClaims (api.machine.transition state event) =
      state.server.seen.size - (api.machine.next state event).server.seen.size := rfl
  rw [hforgotten]
  cases event with
  | demoSend body draw =>
    change state.server.seen.size + 0 = state.server.seen.size + (_ - state.server.seen.size)
    omega
  | meshGossip =>
    change state.server.seen.size + 0 = state.server.seen.size + (_ - state.server.seen.size)
    omega
  | meshReset =>
    change state.server.seen.size + 0 = 0 + (state.server.seen.size - 0)
    omega
  | evictExpired now =>
    have hle := size_evictExpired_le state.server.seen api.ttlSeconds now
    change state.server.seen.size + 0 =
      (state.server.seen.evictExpired api.ttlSeconds now).size + (state.server.seen.size -
        (state.server.seen.evictExpired api.ttlSeconds now).size)
    omega
  | meshFlush clocks =>
    have hflush := @size_seen_ingestUploads api.backend state.server
      (clockedUploads state.mesh clocks)
    change state.server.seen.size +
      (ingestUploads api.backend state.server (clockedUploads state.mesh clocks)).1.countP
        (·.outcome ≠ .duplicateDropped) =
      (ingestUploads api.backend state.server (clockedUploads state.mesh clocks)).2.seen.size +
        (state.server.seen.size - (ingestUploads api.backend state.server
          (clockedUploads state.mesh clocks)).2.seen.size)
    omega
  | bridgeIngest body bridgeHeader hopHeader clock =>
    have hposted :=
      @size_seen_bridgeIngest api.backend state.server body bridgeHeader hopHeader clock
    change state.server.seen.size + (AppResponse.ingest
        (bridgeIngest api.backend state.server body bridgeHeader hopHeader clock).1).processed =
      (bridgeIngest api.backend state.server body bridgeHeader hopHeader clock).2.seen.size +
        (state.server.seen.size -
          (bridgeIngest api.backend state.server body bridgeHeader hopHeader clock).2.seen.size)
    omega

end

/-- **The read routes show what the responses told.** In every run of the application:
the transaction ids of all responses, in their order, are `1, …, n` for the `n` rows of
the ledger, and `/transactions` lists the rows of the last twenty of them, the newest
first; `/accounts` lists the four accounts of the start; and the cache size of
`/mesh/state` is the number of answers to deliveries that were not dropped as duplicates,
less the claims that evictions and resets have forgotten. -/
theorem read_routes (api : Api) (events : List AppEvent) :
    (api.machine.transitions ⟨defaultMesh, seeded⟩ events).flatMap
        (fun t => t.output.transactionIds) =
      (List.range' 1 (api.machine.final ⟨defaultMesh, seeded⟩
        events).server.db.rows.length).map Int.ofNat ∧
    (api.machine.final ⟨defaultMesh, seeded⟩ events).transactions.map
        (fun row => row.map fun row => Int.ofNat row.id) =
      (((api.machine.transitions ⟨defaultMesh, seeded⟩ events).flatMap
        (fun t => t.output.transactionIds)).reverse.take 20).map some ∧
    (∃ accounts, (api.machine.final ⟨defaultMesh, seeded⟩ events).accounts = .ok accounts ∧
      accounts.map (fun account => (account.vpa, account.holderName)) =
        [("alice@demo", "Alice"), ("bob@demo", "Bob"), ("carol@demo", "Carol"),
          ("dave@demo", "Dave")]) ∧
    (api.machine.final ⟨defaultMesh, seeded⟩ events).meshState.idempotencyCacheSize +
        ((api.machine.transitions ⟨defaultMesh, seeded⟩ events).map forgottenClaims).sum =
      ((api.machine.transitions ⟨defaultMesh, seeded⟩ events).map
        fun t => t.output.processed).sum := by
  have hinStep : (api.machine.final ⟨defaultMesh, seeded⟩ events).server.db.InStep := by
    rw [Api.server_final]
    exact inStep_final api.backend _
  have hlog := @Machine.log_final _ _ _ _ api.machine (fun state => state.server.db.ledgerIds)
    (fun t => t.output.transactionIds) ledgerIds_next ⟨defaultMesh, seeded⟩ events
  have hstart : (seeded.db).ledgerIds = [] := by
    rw [ledgerIds, seeded, rows_seededDb]
    rfl
  change _ = (seeded.db).ledgerIds ++ _ at hlog
  rw [hstart, List.nil_append] at hlog
  have hids : (api.machine.final ⟨defaultMesh, seeded⟩ events).server.db.ledgerIds =
      (List.range' 1 (api.machine.final ⟨defaultMesh, seeded⟩
        events).server.db.rows.length).map Int.ofNat := by
    rw [← hinStep.ids_eq, List.map_map]
    rfl
  refine ⟨hlog.symm.trans hids, ?_, ?_, ?_⟩
  · rw [← hlog, AppState.transactions, hinStep.findTop20Transactions_eq, ledgerIds,
      ← List.map_reverse, ← List.map_take, List.map_map, List.map_map]
    rfl
  · refine ⟨_, rfl, ?_⟩
    rw [Api.server_final]
    refine (sound_final api.backend _).2.trans ?_
    rw [holders, seededDb_eq.2]
    rfl
  · have haccount := @Machine.balance _ _ _ ℕ _ api.machine (fun _ => True) (fun _ => True)
      (fun state => state.server.seen.size) (fun t => t.output.processed) forgottenClaims
      (fun _ _ _ _ => trivial) (fun state event _ _ => size_seen_next state event)
      ⟨defaultMesh, seeded⟩ trivial events fun _ _ => trivial
    change 0 + _ = _ at haccount
    rw [Nat.zero_add] at haccount
    exact haccount.symm

end UpiOfflineMesh
