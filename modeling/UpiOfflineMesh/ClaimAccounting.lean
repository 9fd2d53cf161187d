import UpiOfflineMesh.LedgerIndex
import UpiOfflineMesh.MeshToLedger

/-!
# Processed and forgotten claims

A delivery is processed when it gets past the idempotency gate, and then its claim
stands until an eviction or a reset forgets it. Over a whole run the processed
deliveries of a hash are therefore the forgotten claims and the one that still stands.
Only after a claim was forgotten does a delivery reach the unique index of the ledger.
-/

namespace UpiOfflineMesh

open Js InMemoryDb

/-! ### The account of one hash -/

/-- The delivery of this hash got past the idempotency gate. -/
def processes (backend : Backend) (hash : String)
    (t : Transition Server Event (Option IngestResult)) : Bool :=
  t.event.delivers backend hash && t.output.map IngestResult.outcome ≠ some .duplicateDropped

/-- The step takes the claim of this hash out of the cache. -/
def forgets (hash : String) (t : Transition Server Event (Option IngestResult)) : Bool :=
  t.before.seen.has hash && !t.after.seen.has hash

/-- One for a standing claim of this hash, zero for none. -/
def Server.claims (server : Server) (hash : String) : ℕ := if server.seen.has hash then 1 else 0

section

variable {backend : Backend} {server : Server} {hash : String}

/-- A delivery is dropped as a duplicate exactly when its hash is claimed. -/
theorem outcome_eq_duplicate_iff {packet : MeshPacket} {bridgeNodeId : String} {hopCount : Number}
    {clock : Clock} :
    (backend.ingest server packet bridgeNodeId hopCount clock).1.outcome = .duplicateDropped ↔
      server.seen.has (backend.hashOf packet) = true := by
  have heffect := @Backend.ingest_effect backend server packet bridgeNodeId hopCount clock
  generalize (backend.ingest server packet bridgeNodeId hopCount clock).1 = result at heffect ⊢
  generalize (backend.ingest server packet bridgeNodeId hopCount clock).2 = after at heffect
  cases heffect with
  | duplicate hseen => simp [hseen, IngestResult.duplicate]
  | refused hash reason hnew => simp [hnew, IngestResult.invalid]
  | rejected hnew => simp [hnew, IngestResult.settled]
  | settled hnew => simp [hnew, IngestResult.settled]

/-- A delivery claims its hash and no other. -/
theorem has_seen_ingest {packet : MeshPacket} {bridgeNodeId : String} {hopCount : Number}
    {clock : Clock} :
    (backend.ingest server packet bridgeNodeId hopCount clock).2.seen.has hash =
      (decide (backend.hashOf packet = hash) || server.seen.has hash) := by
  rw [Backend.seen_ingest, SeenCache.claim]
  split
  case isFalse => rw [KeyedMap.has_set]
  case isTrue hseen =>
    by_cases hsame : backend.hashOf packet = hash
    · rw [← hsame, hseen, Bool.or_true]
    · simp [hsame]

/-- What gets past the gate is the delivery of an unclaimed hash. -/
theorem processes_transition (server : Server) (event : Event) :
    processes backend hash (backend.machine.transition server event) =
      (event.delivers backend hash && !server.seen.has hash) := by
  cases event with
  | evictExpired now => rfl
  | clear => rfl
  | ingest packet bridgeNodeId hopCount clock =>
    have houtcome := @outcome_eq_duplicate_iff backend server packet bridgeNodeId hopCount clock
    by_cases hsame : backend.hashOf packet = hash
    · rw [hsame] at houtcome
      simp [processes, Event.delivers, Event.hash, hsame, houtcome]
    · simp [processes, Event.delivers, Event.hash, hsame]

/-- **One step of the account:** what is processed stands, and what no longer stands was
forgotten. -/
theorem claims_add_processes (server : Server) (event : Event) :
    server.claims hash +
        (if processes backend hash (backend.machine.transition server event) then 1 else 0) =
      (backend.machine.next server event).claims hash +
        (if forgets hash (backend.machine.transition server event) then 1 else 0) := by
  rw [processes_transition, forgets, Machine.before_transition, Machine.after_transition,
    Server.claims, Server.claims]
  cases event with
  | ingest packet bridgeNodeId hopCount clock =>
    rw [next_ingest, has_seen_ingest, Event.delivers, Event.hash]
    by_cases hsame : backend.hashOf packet = hash
    · cases hseen : server.seen.has hash with
      | true => simp [hsame]
      | false => simp [hsame]
    · cases hseen : server.seen.has hash with
      | true => simp [hsame]
      | false => simp [hsame]
  | evictExpired now =>
    rw [next_evictExpired]
    cases hafter : (server.seen.evictExpired backend.ttlSeconds now).has hash with
    | true => simp [SeenCache.has_of_has_evictExpired hafter, Event.delivers, Event.hash]
    | false => simp [Event.delivers, Event.hash]
  | clear => simp [Event.delivers, Event.hash]

/-- Over every run the processed deliveries are paid for by claims. -/
theorem claims_add_countP_processes (server : Server) (events : List Event) :
    server.claims hash +
        (backend.machine.transitions server events).countP (processes backend hash) =
      (backend.machine.final server events).claims hash +
        (backend.machine.transitions server events).countP (forgets hash) := by
  rw [Machine.countP_eq_sum, Machine.countP_eq_sum]
  exact Machine.balance (fun server => server.claims hash)
    (fun t => if processes backend hash t then 1 else 0) (fun t => if forgets hash t then 1 else 0)
    (fun _ _ (_ : True) (_ : True) => trivial)
    (fun server event _ _ => claims_add_processes server event) trivial fun _ _ => trivial

/-! ### A flush -/

/-- After some uploads a hash is claimed if it was before or if one of them carries it. -/
theorem has_seen_ingestUploads (server : Server) (entries : List (Upload × Clock)) :
    (ingestUploads backend server entries).2.seen.has hash =
      (server.seen.has hash || entries.any fun entry => backend.hashOf entry.1.packet = hash) := by
  induction entries generalizing server with
  | nil => simp [ingestUploads]
  | cons entry entries ih =>
    simp only [ingestUploads, ih, has_seen_ingest, List.any_cons]
    rw [Bool.or_comm (decide _) (server.seen.has hash), Bool.or_assoc]

/-- One upload of each unclaimed hash gets past the gate. -/
theorem claims_add_countP_ingestUploads (server : Server) (entries : List (Upload × Clock)) :
    server.claims hash +
        ((entries.map Prod.fst).zip (ingestUploads backend server entries).1).countP
          (fun e => backend.hashOf e.1.packet = hash ∧ e.2.outcome ≠ .duplicateDropped) =
      (ingestUploads backend server entries).2.claims hash := by
  induction entries generalizing server with
  | nil => rfl
  | cons entry entries ih =>
    obtain ⟨up, clock⟩ := entry
    have htail := ih (backend.ingest server up.packet up.bridgeNodeId
      ((Number.fin 5).sub up.packet.ttl) clock).2
    have houtcome := @outcome_eq_duplicate_iff backend server up.packet up.bridgeNodeId
      ((Number.fin 5).sub up.packet.ttl) clock
    simp only [ingestUploads, List.map_cons, List.zip_cons_cons, List.countP_cons, FlushResult.of]
    rw [← htail, Server.claims, Server.claims, has_seen_ingest]
    by_cases hsame : backend.hashOf up.packet = hash
    · rw [hsame] at houtcome
      cases hseen : server.seen.has hash with
      | true => simp [hsame, houtcome.mpr hseen]
      | false =>
        have hnew : (backend.ingest server up.packet up.bridgeNodeId
            ((Number.fin 5).sub up.packet.ttl) clock).1.outcome ≠ .duplicateDropped := by
          rw [Ne, houtcome, hseen]
          exact Bool.false_ne_true
        simp [hsame, hnew, Nat.add_comm]
    · simp [hsame]

end

/-- **A flush processes each packet once.** From every server and every mesh: for each
hash that the bridges hold and that is not claimed, exactly one upload of it gets past
the gate, and none for any other hash; and a second flush after it, at any instants,
drops every upload and changes nothing. -/
theorem flush_processes_once (backend : Backend) (server : Server) (mesh : Mesh)
    (clocks : ℕ → Clock) :
    (∀ hash, (mesh.collectBridgeUploads.zip (flush backend server mesh clocks).1.results).countP
        (fun e => backend.hashOf e.1.packet = hash ∧ e.2.outcome ≠ .duplicateDropped) =
      if server.seen.has hash = false ∧
          ∃ up ∈ mesh.collectBridgeUploads, backend.hashOf up.packet = hash then 1 else 0) ∧
    ∀ laterClocks, Dropped (flush backend server mesh clocks).2 mesh.collectBridgeUploads
      (flush backend (flush backend server mesh clocks).2 mesh laterClocks) := by
  have hserver : (flush backend server mesh clocks).2 =
      (ingestUploads backend server (clockedUploads mesh clocks)).2 := rfl
  have hcarried : ∀ hash, ((clockedUploads mesh clocks).any fun entry =>
      backend.hashOf entry.1.packet = hash) =
        mesh.collectBridgeUploads.any fun up => backend.hashOf up.packet = hash := by
    intro hash
    rw [← map_fst_clockedUploads mesh clocks, List.any_map]
    rfl
  constructor
  · intro hash
    have haccount := @claims_add_countP_ingestUploads backend hash server
      (clockedUploads mesh clocks)
    rw [map_fst_clockedUploads, Server.claims, Server.claims, has_seen_ingestUploads, hcarried]
      at haccount
    change (mesh.collectBridgeUploads.zip
      (ingestUploads backend server (clockedUploads mesh clocks)).1).countP _ = _
    cases hseen : server.seen.has hash with
    | true => simpa [hseen] using haccount
    | false => simpa [hseen] using haccount
  · intro laterClocks
    have hseen : ∀ entry ∈ clockedUploads mesh laterClocks,
        (flush backend server mesh clocks).2.seen.has (backend.hashOf entry.1.packet) = true := by
      intro entry hentry
      rw [hserver, has_seen_ingestUploads, hcarried, Bool.or_eq_true, List.any_eq_true]
      exact Or.inr ⟨entry.1, (exists_of_mem_clockedUploads hentry).1, by simp⟩
    obtain ⟨hduplicates, hunchanged⟩ := ingestUploads_of_seen hseen
    refine ⟨?_, hduplicates, hunchanged⟩
    refine (length_ingestUploads backend _ (clockedUploads mesh laterClocks)).trans ?_
    rw [← map_fst_clockedUploads mesh laterClocks, List.length_map]

/-! ### The second line of defence -/

section

variable {backend : Backend} {server : Server} {hash : String} {events : List Event}

/-- A hash of the ledger that is not claimed was forgotten after its row was written. -/
theorem exists_forgets_of_recorded
    (hrecorded : (backend.machine.final seeded events).db.txPacketHashes.has hash = true)
    (hunclaimed : (backend.machine.final seeded events).seen.has hash = false) :
    ∃ earlier event later, events = earlier ++ event :: later ∧
      forgets hash (backend.machine.transition (backend.machine.final seeded earlier) event) =
        true ∧
      (backend.machine.final seeded earlier).db.txPacketHashes.has hash = true := by
  have hinit : ¬(seeded.db.txPacketHashes.has hash = true ∧ seeded.seen.has hash = false) := by
    rintro ⟨hhas, -⟩
    obtain ⟨row, hrow, -⟩ := (indexed_seededDb.has_iff hash).mp hhas
    rw [rows_seededDb] at hrow
    cases hrow
  obtain ⟨earlier, event, later, rfl, hbefore, hindexed, hafter⟩ :=
    Machine.exists_cause (P := fun server : Server =>
      server.db.txPacketHashes.has hash = true ∧ server.seen.has hash = false) hinit
      ⟨hrecorded, hunclaimed⟩
  refine ⟨earlier, event, later, rfl, ?_⟩
  generalize backend.machine.final seeded earlier = server at hbefore hindexed hafter ⊢
  -- Evictions and resets leave the ledger alone, so it is the claim that they have changed.
  have hforgets : server.db.txPacketHashes.has hash = true →
      forgets hash (backend.machine.transition server event) = true ∧
        server.db.txPacketHashes.has hash = true := by
    intro hhas
    have hclaimed : server.seen.has hash = true := by
      by_contra hnone
      exact hbefore ⟨hhas, Bool.eq_false_of_not_eq_true hnone⟩
    rw [forgets, Machine.before_transition, Machine.after_transition, hclaimed, hafter]
    exact ⟨rfl, hhas⟩
  cases event with
  | evictExpired now => exact hforgets hindexed
  | clear => exact hforgets hindexed
  | ingest packet bridgeNodeId hopCount clock =>
    rw [next_ingest, has_seen_ingest, Bool.or_eq_false_iff, decide_eq_false_iff_not] at hafter
    obtain ⟨hother, hunclaimed⟩ := hafter
    -- A delivery of another hash does not index this one.
    have heffect := @db_effect backend server (.ingest packet bridgeNodeId hopCount clock)
    generalize (backend.machine.next server (.ingest packet bridgeNodeId hopCount clock)).db = db
      at heffect hindexed
    have hkept : server.db.txPacketHashes.has hash = true := by
      cases heffect with
      | unchanged => exact hindexed
      | rejected row hhash =>
        rw [Event.hash, Option.some.injEq] at hhash
        rw [txPacketHashes_insertRow, KeyedMap.has_set, id, ← hhash, Bool.or_eq_true] at hindexed
        exact hindexed.resolve_left (by simp [hother])
      | settled row hhash =>
        rw [Event.hash, Option.some.injEq] at hhash
        rw [txPacketHashes_insertRow, KeyedMap.has_set, id, ← hhash, Bool.or_eq_true] at hindexed
        exact hindexed.resolve_left (by simp [hother])
    exact absurd ⟨hkept, hunclaimed⟩ hbefore

end

/-- **The unique index decides only after a claim was forgotten.** When, in any run, a
delivery gets past the idempotency gate although the ledger has a row for its hash, an
eviction or a reset between that row and the delivery has forgotten the claim; and then
the delivery is answered as invalid and leaves the whole database as it is. -/
theorem index_decides_after_forgetting (backend : Backend) (events : List Event)
    (packet : MeshPacket) (bridgeNodeId : String) (hopCount : Number) (clock : Clock)
    (hunclaimed :
      (backend.machine.final seeded events).seen.has (backend.hashOf packet) = false)
    (hrecorded : ∃ row ∈ (backend.machine.final seeded events).db.rows,
      row.packetHash = backend.hashOf packet) :
    (∃ earlier event later, events = earlier ++ event :: later ∧
      forgets (backend.hashOf packet)
        (backend.machine.transition (backend.machine.final seeded earlier) event) = true ∧
      ∃ row ∈ (backend.machine.final seeded earlier).db.rows,
        row.packetHash = backend.hashOf packet) ∧
    (backend.ingest (backend.machine.final seeded events) packet bridgeNodeId hopCount
      clock).1.outcome = .invalid ∧
    (backend.ingest (backend.machine.final seeded events) packet bridgeNodeId hopCount
      clock).2.db = (backend.machine.final seeded events).db := by
  have hindexed := ((indexed_final backend events).has_iff _).mpr hrecorded
  constructor
  · obtain ⟨earlier, event, later, hsplit, hforgets, hhas⟩ :=
      exists_forgets_of_recorded hindexed hunclaimed
    exact ⟨earlier, event, later, hsplit, hforgets,
      ((indexed_final backend earlier).has_iff _).mp hhas⟩
  · generalize backend.machine.final seeded events = server at hunclaimed hindexed ⊢
    have heffect := @Backend.ingest_effect backend server packet bridgeNodeId hopCount clock
    generalize backend.ingest server packet bridgeNodeId hopCount clock = answer at heffect ⊢
    obtain ⟨result, after⟩ := answer
    cases heffect with
    | duplicate hseen => simp [hunclaimed] at hseen
    | refused => exact ⟨rfl, rfl⟩
    | rejected hnew haccepts hadmissible =>
      have hfresh := hadmissible.hash_fresh
      simp [hindexed] at hfresh
    | settled hnew haccepts hadmissible =>
      have hfresh := hadmissible.hash_fresh
      simp [hindexed] at hfresh

/-- The same ciphertext before and after a reset of the cache. -/
theorem index_decides_after_forgetting_reset :
    ((backendPaying (.num (.fin 500)) (.num (.fin 1000))).ingest
      ((backendPaying (.num (.fin 500)) (.num (.fin 1000))).machine.final seeded
        [deliver "c1" 2000, .clear]) (packetOf "c1") "bridge-1" (.fin 2)
      ⟨3000, 3000, 3000⟩).1.outcome = .invalid :=
  (index_decides_after_forgetting (backendPaying (.num (.fin 500)) (.num (.fin 1000)))
    [deliver "c1" 2000, .clear] (packetOf "c1") "bridge-1" (.fin 2) ⟨3000, 3000, 3000⟩ rfl
    (by
      refine ((indexed_final _ _).has_iff _).mp ?_
      decide +kernel)).2.1

end UpiOfflineMesh
