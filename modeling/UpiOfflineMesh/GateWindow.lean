import UpiOfflineMesh.Recording

/-!
# The gate and the freshness window

A claim is kept for the retention time after the claim, a packet is fresh for the
maximum age after its signature. When both times are equal, the gate outlives the
freshness of every packet that was signed no later than it was claimed. A packet
signed ahead of the server's clock, within the tolerance for skew, is still fresh
when its claim has expired.
-/

namespace UpiOfflineMesh

open Js InMemoryDb

/-- Either the cache holds a claim of the hash that is not older than `claimed`,
or the retention time after `claimed` is over for all readings to come. -/
def GateHolds (backend : Backend) (hash : String) (claimed : ℤ) (server : Server)
    (readings : List ℤ) : Prop :=
  (∃ instant, server.seen.get hash = some (hash, instant) ∧ claimed ≤ instant) ∨
    ∀ reading ∈ readings, (claimed : ℚ) + backend.ttlSeconds * 1000 < reading

section

variable {backend : Backend} {hash : String} {claimed : ℤ}

/-- One event other than a reset keeps the gate: a claim leaves the cache only at
an instant beyond its retention time, and the clock does not run backwards. -/
theorem gateHolds_next {server : Server} {event : Event} {later : List ℤ}
    (h : GateHolds backend hash claimed server (event.readings ++ later))
    (hordered : (event.readings ++ later).Pairwise (· ≤ ·)) (hevent : event ≠ .clear) :
    GateHolds backend hash claimed (backend.machine.next server event) later := by
  rcases h with ⟨instant, hget, hclaimed⟩ | hpast
  case inr => exact Or.inr fun reading hreading => hpast reading (List.mem_append_right _ hreading)
  cases event with
  | clear => exact absurd rfl hevent
  | ingest packet bridgeNodeId hopCount clock =>
    left
    refine ⟨instant, ?_, hclaimed⟩
    rw [next_ingest, Backend.seen_ingest]
    exact SeenCache.get_claim_of_get hget _ _
  | evictExpired now =>
    rw [next_evictExpired]
    by_cases hrecent : SeenCache.cutoff backend.ttlSeconds now ≤ instant
    · left
      exact ⟨instant, SeenCache.get_evictExpired_of_recent hget hrecent, hclaimed⟩
    · right
      intro reading hreading
      have hnow : now ≤ reading := by
        rw [Event.readings, List.singleton_append, List.pairwise_cons] at hordered
        exact hordered.1 reading hreading
      have hexpired : (instant : ℚ) < now - backend.ttlSeconds * 1000 := not_le.mp hrecent
      have hclaimed' : (claimed : ℚ) ≤ instant := by exact_mod_cast hclaimed
      have hnow' : (now : ℚ) ≤ reading := by exact_mod_cast hnow
      linarith

/-- The gate through a run without resets. -/
theorem gateHolds_final {server : Server} {events : List Event} {later : List ℤ}
    (h : GateHolds backend hash claimed server (events.flatMap Event.readings ++ later))
    (hordered : (events.flatMap Event.readings ++ later).Pairwise (· ≤ ·))
    (hevents : ∀ event ∈ events, event ≠ .clear) :
    GateHolds backend hash claimed (backend.machine.final server events) later := by
  induction events generalizing server with
  | nil => exact h
  | cons event events ih =>
    rw [List.flatMap_cons, List.append_assoc] at h hordered
    exact ih (gateHolds_next h hordered (hevents event (by simp)))
      (List.pairwise_append.mp hordered).2.1 (fun e he => hevents e (by simp [he]))

/-- Once the gate has held, a delivery of a packet that was fresh at most for the
retention time after `claimed` is dropped as a duplicate or refused as stale. -/
theorem dropped_of_gateHolds {server : Server} {packet : MeshPacket} {bridgeNodeId : String}
    {hopCount : Number} {clock : Clock} {instruction : PaymentInstruction} {t : ℚ}
    (hwindows : backend.ttlSeconds = backend.maxAgeSeconds)
    (h : GateHolds backend (backend.hashOf packet) claimed server
      [clock.claimed, clock.checked, clock.stamped])
    (hdecrypt : backend.crypto.decrypt packet.ciphertext = .ok instruction)
    (hsigned : instruction.signedAt = .num (.fin t)) (hpunctual : t ≤ claimed) :
    (backend.ingest server packet bridgeNodeId hopCount clock).1 =
        .duplicate (backend.hashOf packet) ∨
      (backend.ingest server packet bridgeNodeId hopCount clock).1 =
        .invalid (backend.hashOf packet) .stalePacket := by
  cases hseen : server.seen.has (backend.hashOf packet) with
  | true =>
    left
    rw [Backend.ingest_of_seen hseen]
  | false =>
    right
    rcases h with ⟨instant, hget, _⟩ | hpast
    · simp [KeyedMap.has_of_get hget] at hseen
    · have hchecked := hpast clock.checked (by simp)
      have hstale : backend.freshness clock.checked instruction = .ok (some .stalePacket) := by
        refine Backend.freshness_stale (t := t) ?_ ?_
        · rw [hsigned, Value.toNumber_num]
        · rw [← hwindows]
          linarith
      rw [Backend.ingest_of_not_fresh hseen hdecrypt hstale]

end

/-- **The gate outlives the freshness window** of punctual packets. When claims
are kept as long as packets are fresh, and a delivery that appended a row claimed
its packet no earlier than the packet was signed, then every later delivery of
the same ciphertext is dropped as a duplicate or refused as stale: whatever is
delivered and evicted in between, as long as the clock does not run backwards and
the cache is not reset. -/
theorem gate_outlives_window (backend : Backend) (server : Server) (first last : MeshPacket)
    (firstBridge lastBridge : String) (firstHops lastHops : Number) (firstClock lastClock : Clock)
    (middle : List Event) (instruction : PaymentInstruction) (signedAt : Number)
    (hwindows : backend.ttlSeconds = backend.maxAgeSeconds)
    (hordered : ClockOrdered (.ingest first firstBridge firstHops firstClock ::
      (middle ++ [.ingest last lastBridge lastHops lastClock])))
    (hmiddle : ∀ event ∈ middle, event ≠ .clear)
    (hdecrypt : backend.crypto.decrypt first.ciphertext = .ok instruction)
    (hsigned : instruction.signedAt = .num signedAt)
    (hrow : (backend.ingest server first firstBridge firstHops firstClock).2.db.rows ≠
      server.db.rows)
    (hsame : last.ciphertext = first.ciphertext)
    (hpunctual : signedAt.le (.fin firstClock.claimed) = true) :
    (backend.ingest (backend.machine.final server
          (.ingest first firstBridge firstHops firstClock :: middle)) last lastBridge lastHops
        lastClock).1 = .duplicate (backend.hashOf last) ∨
      (backend.ingest (backend.machine.final server
          (.ingest first firstBridge firstHops firstClock :: middle)) last lastBridge lastHops
        lastClock).1 = .invalid (backend.hashOf last) .stalePacket := by
  have hhash : backend.hashOf last = backend.hashOf first := by
    rw [Backend.hashOf, Backend.hashOf, hsame]
  have hdecrypt' : backend.crypto.decrypt last.ciphertext = .ok instruction := by
    rw [hsame, hdecrypt]
  -- The first delivery appended a row, so it was new, fresh and claimed its hash.
  obtain ⟨instruction', sender, receiver, amount, date, hrecords⟩ : ∃ instruction' sender receiver
      amount date, backend.Records server first firstClock instruction' sender receiver amount
        date := by
    by_contra hnone
    push Not at hnone
    exact hrow (congrArg InMemoryDb.rows (Backend.ingest_of_not_records hnone).2)
  obtain rfl : instruction' = instruction :=
    Except.ok.inj (hrecords.accepts.decrypted.symm.trans hdecrypt)
  obtain ⟨t, rfl⟩ : ∃ t, signedAt = .fin t := by
    obtain ⟨x, hx, hread⟩ := Backend.toNumber_of_fresh hrecords.accepts.fresh
    rw [hsigned, Value.toNumber_num, Except.ok.injEq] at hx
    subst hx
    rcases hread with rfl | ⟨t, rfl, _⟩
    · cases hpunctual
    · exact ⟨t, rfl⟩
  have hpunctual' : t ≤ firstClock.claimed := by
    simpa using hpunctual
  have hordered' : ([firstClock.claimed, firstClock.checked, firstClock.stamped] ++
      (middle.flatMap Event.readings ++ [lastClock.claimed, lastClock.checked,
        lastClock.stamped])).Pairwise (· ≤ ·) := by
    simpa [ClockOrdered, Event.readings, List.flatMap_append] using hordered
  have hclaimed : GateHolds backend (backend.hashOf last) firstClock.claimed
      (backend.machine.next server (.ingest first firstBridge firstHops firstClock))
      (middle.flatMap Event.readings ++ [lastClock.claimed, lastClock.checked,
        lastClock.stamped]) := by
    left
    refine ⟨firstClock.claimed, ?_, le_rfl⟩
    rw [next_ingest, Backend.seen_ingest, hhash]
    exact SeenCache.get_claim_of_new hrecords.unclaimed _
  rw [Machine.final_cons]
  exact dropped_of_gateHolds hwindows
    (gateHolds_final hclaimed (List.pairwise_append.mp hordered').2.1 hmiddle) hdecrypt' hsigned
    hpunctual'

/-- A packet signed 300 seconds ahead is recorded, its claim is evicted a day
later, and its next delivery runs into the unique index of the ledger. -/
theorem gate_misses_skewed_packet :
    ClockOrdered [deliver "c1" 0, .evictExpired 86400001, deliver "c1" 86400001] ∧
      ((backendPaying (.num (.fin 500)) (.num (.fin 300000))).machine.final seeded
        [deliver "c1" 0]).db.rows.length = 1 ∧
      ((backendPaying (.num (.fin 500)) (.num (.fin 300000))).machine.step
        ((backendPaying (.num (.fin 500)) (.num (.fin 300000))).machine.final seeded
          [deliver "c1" 0, .evictExpired 86400001]) (deliver "c1" 86400001)).1 =
        some ⟨.invalid, "?",
          some (.internalError (dataIntegrityViolation "c1").message), none⟩ := by
  refine ⟨?_, by decide +kernel, by decide +kernel⟩
  rw [ClockOrdered]
  decide

/-- The same run with a packet signed at the instant of its first delivery. -/
theorem gate_outlives_window_punctual :
    ((backendPaying (.num (.fin 500)) (.num (.fin 0))).ingest
        ((backendPaying (.num (.fin 500)) (.num (.fin 0))).machine.final seeded
          [deliver "c1" 0, .evictExpired 86400001]) (packetOf "c1") "bridge-1" (.fin 2)
        ⟨86400001, 86400001, 86400001⟩).1 = .duplicate "c1" ∨
      ((backendPaying (.num (.fin 500)) (.num (.fin 0))).ingest
        ((backendPaying (.num (.fin 500)) (.num (.fin 0))).machine.final seeded
          [deliver "c1" 0, .evictExpired 86400001]) (packetOf "c1") "bridge-1" (.fin 2)
        ⟨86400001, 86400001, 86400001⟩).1 = .invalid "c1" .stalePacket := by
  refine gate_outlives_window (backendPaying (.num (.fin 500)) (.num (.fin 0))) seeded
    (packetOf "c1") (packetOf "c1") "bridge-1" "bridge-1" (.fin 2) (.fin 2) ⟨0, 0, 0⟩
    ⟨86400001, 86400001, 86400001⟩ [.evictExpired 86400001] _ _ rfl ?_ (by simp)
    (decrypt_backendPaying _ _) rfl ?_ rfl (by decide +kernel)
  · rw [ClockOrdered]
    decide
  · intro hrows
    have hlength := congrArg List.length hrows
    revert hlength
    decide +kernel

end UpiOfflineMesh
