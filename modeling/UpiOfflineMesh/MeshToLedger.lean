import UpiOfflineMesh.FundedBatch
import UpiOfflineMesh.MeshInvariant

/-!
# From the mesh to the ledger

The handler of `/mesh/flush` ingests what the bridges hold. After a last round every
bridge holds every packet, so the uploads are the pairs of bridges and packets, and
the first upload of each packet pays. Flushing leaves the mesh as it is: the same
uploads again meet their own claims.
-/

namespace UpiOfflineMesh

open Js Mesh

/-! ### Flushing -/

/-- One entry of the response. -/
structure FlushResult where
  bridgeNode : String
  packetId : String
  outcome : Outcome
  reason : String
  transactionId : ℤ
  deriving DecidableEq, Repr

/-- The entry for an upload, with the defaults of the missing fields. -/
def FlushResult.of (up : Upload) (ingestResult : IngestResult) : FlushResult where
  bridgeNode := up.bridgeNodeId
  packetId := String.ofList (up.packet.packetId.toList.take 8)
  outcome := ingestResult.outcome
  reason := (ingestResult.reason.map Reason.text).getD ""
  transactionId := (ingestResult.transactionId.map Int.ofNat).getD (-1)

/-- The response of `/mesh/flush`. -/
structure FlushResponse where
  uploadsAttempted : ℕ
  results : List FlushResult
  deriving DecidableEq, Repr

/-- The bodies of `Promise.all`: none of them awaits anything, so they run one after
the other, each to its end. -/
def ingestUploads (backend : Backend) : Server → List (Upload × Clock) → List FlushResult × Server
  | server, [] => ([], server)
  | server, (up, clock) :: uploads =>
    let hopCount := (Number.fin 5).sub up.packet.ttl
    let (ingestResult, server) := backend.ingest server up.packet up.bridgeNodeId hopCount clock
    let (results, server) := ingestUploads backend server uploads
    (.of up ingestResult :: results, server)

/-- `/mesh/flush`, with the readings of the clock during each upload. -/
def flush (backend : Backend) (server : Server) (mesh : Mesh) (clocks : ℕ → Clock) :
    FlushResponse × Server :=
  let uploads := mesh.collectBridgeUploads
  let (results, server) :=
    ingestUploads backend server (uploads.zipIdx.map fun e => (e.1, clocks e.2))
  (⟨uploads.length, results⟩, server)

/-- The delivery that an upload is for the server. -/
def Upload.event (up : Upload) (clock : Clock) : Event :=
  .ingest up.packet up.bridgeNodeId ((Number.fin 5).sub up.packet.ttl) clock

section

variable {backend : Backend} {server : Server} {entries : List (Upload × Clock)}

theorem length_ingestUploads (backend : Backend) (server : Server)
    (entries : List (Upload × Clock)) :
    (ingestUploads backend server entries).1.length = entries.length := by
  induction entries generalizing server with
  | nil => rfl
  | cons entry entries ih => simp [ingestUploads, ih]

/-- Ingesting the uploads is a run of the server. -/
theorem server_ingestUploads (backend : Backend) (server : Server)
    (entries : List (Upload × Clock)) :
    (ingestUploads backend server entries).2 =
      backend.machine.final server (entries.map fun e => e.1.event e.2) := by
  induction entries generalizing server with
  | nil => rfl
  | cons entry entries ih =>
    rw [List.map_cons, Machine.final_cons, ← ih]
    rfl

/-- The settled entries of one packet are the settling transitions of its hash. -/
theorem countP_ingestUploads {packetId hash : String}
    (hsame : ∀ entry ∈ entries,
      entry.1.packet.packetId = packetId ↔ backend.hashOf entry.1.packet = hash) :
    ((entries.map Prod.fst).zip (ingestUploads backend server entries).1).countP
        (fun e => decide (e.1.packet.packetId = packetId ∧ e.2.outcome = .settled)) =
      (backend.machine.transitions server (entries.map fun e => e.1.event e.2)).countP
        (settles backend hash) := by
  induction entries generalizing server with
  | nil => rfl
  | cons entry entries ih =>
    have htail := @ih (backend.machine.next server (entry.1.event entry.2))
      (fun e he => hsame e (by simp [he]))
    rw [List.map_cons, List.map_cons, Machine.transitions_cons, List.countP_cons, ← htail]
    have hhead : settles backend hash
        (backend.machine.transition server (entry.1.event entry.2)) =
          decide (entry.1.packet.packetId = packetId ∧
            (FlushResult.of entry.1 (backend.ingest server entry.1.packet entry.1.bridgeNodeId
              ((Number.fin 5).sub entry.1.packet.ttl) entry.2).1).outcome = .settled) := by
      simp [settles, Event.delivers, Event.hash, Upload.event, FlushResult.of,
        hsame entry (by simp)]
    rw [hhead]
    simp only [ingestUploads, List.zip_cons_cons, List.countP_cons]
    rfl

/-- Uploads with claimed hashes are dropped and change nothing. -/
theorem ingestUploads_of_seen
    (hseen : ∀ entry ∈ entries, server.seen.has (backend.hashOf entry.1.packet) = true) :
    (∀ result ∈ (ingestUploads backend server entries).1, result.outcome = .duplicateDropped) ∧
      (ingestUploads backend server entries).2 = server := by
  induction entries with
  | nil => exact ⟨by simp [ingestUploads], rfl⟩
  | cons entry entries ih =>
    obtain ⟨hresults, hserver⟩ := ih fun e he => hseen e (by simp [he])
    simp only [ingestUploads, Backend.ingest_of_seen (hseen entry (by simp)), List.mem_cons]
    refine ⟨?_, hserver⟩
    rintro result (rfl | hresult)
    · rfl
    · exact hresults result hresult

end

/-! ### The journey of the packets -/

/-- Packets with different ids and at least one hop to go are injected at known and
empty devices, with rounds in between. -/
structure Journey (start : Mesh) (events : List MeshEvent) : Prop where
  empty : ∀ device ∈ start.values, device.heldPackets = .empty
  allowed : ∀ event ∈ events, event = .gossip ∨ ∃ home packet, ∃ T : ℤ,
    event = .inject home packet ∧ start.has home = true ∧ packet.ttl = .fin (T : ℚ) ∧ 1 ≤ T
  distinct : ((injections events).map MeshPacket.packetId).Nodup

/-- The mesh after the journey and a last round. -/
def arrivedMesh (start : Mesh) (events : List MeshEvent) : Mesh :=
  meshMachine.final start (events ++ [.gossip])

section

variable {start : Mesh} {events : List MeshEvent} {packet : MeshPacket}

/-- Where and how a packet of the journey was injected. -/
theorem Journey.exists_injection (h : Journey start events) (hpacket : packet ∈ injections events) :
    ∃ before home after, events = before ++ .inject home packet :: after ∧
      start.has home = true ∧ packet.forwardable = true ∧ .reset ∉ after := by
  obtain ⟨event, hevent, hinjected⟩ := List.mem_filterMap.mp hpacket
  rcases h.allowed event hevent with rfl | ⟨home, packet', T, rfl, hknown, httl, hhops⟩
  · cases hinjected
  obtain rfl := Option.some.inj hinjected
  obtain ⟨before, after, rfl⟩ := List.append_of_mem hevent
  refine ⟨before, home, after, rfl, hknown, ?_, fun hreset => ?_⟩
  · simp only [MeshPacket.forwardable, httl, Number.le_fin, Bool.not_eq_true',
      decide_eq_false_iff_not, not_le]
    exact_mod_cast hhops
  · rcases h.allowed .reset (by simp [hreset]) with heq | ⟨_, _, _, heq, _⟩
    · cases heq
    · cases heq

/-- After a last round every device holds every packet, with its ciphertext. -/
theorem Journey.arrived (h : Journey start events) (hpacket : packet ∈ injections events)
    {deviceId : String} (hknown : start.has deviceId = true) :
    ∃ copy, (arrivedMesh start events).held deviceId packet.packetId = some copy ∧
      copy.ciphertext = packet.ciphertext := by
  obtain ⟨before, home, after, rfl, hhome, hforward, hreset⟩ := h.exists_injection hpacket
  have hspread := spread_of_injected h.empty h.distinct hhome hreset
  rw [arrivedMesh, Machine.final_append, Machine.final_cons, Machine.final_nil, next_gossip]
  generalize hmesh : meshMachine.final start (before ++ .inject home packet :: after) = mesh at hspread
  have heverywhere : Everywhere mesh.gossipOnce.2 home packet := by
    rcases hspread with halone | heverywhere
    · exact halone.gossip.1 hforward
    · have hspares : MeshEvent.gossip.Spares packet.packetId :=
        fun _ hinjected => by cases hinjected
      exact heverywhere.next hspares (by simp)
  have hdevice : KeyedMap.has mesh.gossipOnce.2 deviceId = true := by
    rw [has_eq_of_roster_eq (roster_gossipOnce mesh), ← hmesh,
      has_eq_of_roster_eq (roster_final start _), hknown]
  refine ⟨_, heverywhere.2 deviceId hdevice, ?_⟩
  split
  case isTrue => rfl
  case isFalse => rfl

/-- Every copy comes from a packet of the journey. -/
theorem Journey.origin (h : Journey start events) {deviceId packetId : String} {copy : MeshPacket}
    (hcopy : (arrivedMesh start events).held deviceId packetId = some copy) :
    ∃ packet ∈ injections events, copy.packetId = packet.packetId ∧
      copy.ciphertext = packet.ciphertext := by
  rw [arrivedMesh] at hcopy
  obtain ⟨packet, hpacket, heq⟩ :=
    stemsFrom_final h.empty (events ++ [.gossip]) deviceId packetId copy hcopy
  have hsame : injections (events ++ [.gossip]) = injections events := by
    rw [injections, List.filterMap_append]
    exact List.append_nil _
  rw [hsame] at hpacket
  refine ⟨packet, hpacket, ?_⟩
  rw [heq]
  exact ⟨rfl, rfl⟩

theorem bridges_arrivedMesh (bridgeNodeId : String) :
    bridgeNodeId ∈ (arrivedMesh start events).bridges ↔ bridgeNodeId ∈ start.bridges :=
  mem_bridges_final

/-- The uploads after a last round: every packet once per bridge, with its ciphertext. -/
theorem Journey.uploads_perm (h : Journey start events) :
    ((arrivedMesh start events).collectBridgeUploads.map
        fun up => (up.bridgeNodeId, up.packet.packetId, up.packet.ciphertext)).Perm
      (start.bridges.product
        ((injections events).map fun packet => (packet.packetId, packet.ciphertext))) := by
  have hleft : ((arrivedMesh start events).collectBridgeUploads.map
      fun up => (up.bridgeNodeId, up.packet.packetId, up.packet.ciphertext)).Nodup := by
    refine List.Nodup.of_map (fun e => (e.1, e.2.1)) ?_
    rw [List.map_map]
    exact nodup_collectBridgeUploads _
  have hright : (start.bridges.product
      ((injections events).map fun packet => (packet.packetId, packet.ciphertext))).Nodup := by
    refine start.nodup_bridges.product (List.Nodup.of_map Prod.fst ?_)
    rw [List.map_map]
    exact h.distinct
  refine (List.perm_ext_iff_of_nodup hleft hright).mpr ?_
  rintro ⟨bridgeNodeId, packetId, ciphertext⟩
  simp only [List.mem_map, List.pair_mem_product, mem_collectBridgeUploads, bridges_arrivedMesh,
    Prod.mk.injEq]
  constructor
  · rintro ⟨up, ⟨hbridge, hheld⟩, rfl, rfl, rfl⟩
    obtain ⟨packet, hpacket, hid, hciphertext⟩ := h.origin hheld
    exact ⟨hbridge, packet, hpacket, hid.symm, hciphertext.symm⟩
  · rintro ⟨hbridge, packet, hpacket, rfl, rfl⟩
    obtain ⟨copy, hheld, hciphertext⟩ := h.arrived hpacket (has_of_mem_bridges hbridge)
    have hid := packetId_of_held hheld
    exact ⟨⟨bridgeNodeId, copy⟩, ⟨hbridge, by rw [hid]; exact hheld⟩, rfl, hid, hciphertext⟩

end

/-! ### Two flushes -/

/-- The uploads of a flush with the readings of the clock. -/
def clockedUploads (mesh : Mesh) (clocks : ℕ → Clock) : List (Upload × Clock) :=
  mesh.collectBridgeUploads.zipIdx.map fun e => (e.1, clocks e.2)

theorem map_fst_clockedUploads (mesh : Mesh) (clocks : ℕ → Clock) :
    (clockedUploads mesh clocks).map Prod.fst = mesh.collectBridgeUploads := by
  rw [clockedUploads, List.map_map]
  exact List.zipIdx_map_fst 0 mesh.collectBridgeUploads

theorem exists_of_mem_clockedUploads {mesh : Mesh} {clocks : ℕ → Clock} {entry : Upload × Clock}
    (h : entry ∈ clockedUploads mesh clocks) :
    entry.1 ∈ mesh.collectBridgeUploads ∧ ∃ i, entry.2 = clocks i := by
  constructor
  · rw [← map_fst_clockedUploads mesh clocks]
    exact List.mem_map_of_mem h
  · obtain ⟨e, _, rfl⟩ := List.mem_map.mp h
    exact ⟨e.2, rfl⟩

/-- The batch consists of the payments inside these packets. -/
def Carries (packets : List MeshPacket) (items : List BatchItem) : Prop :=
  packets.map MeshPacket.ciphertext = items.map BatchItem.ciphertext

section

variable {backend : Backend} {server : Server} {opens closes : ℤ} {items : List BatchItem}
  {packets : List MeshPacket} {packet : MeshPacket}

theorem Carries.exists_item (h : Carries packets items) (hpacket : packet ∈ packets) :
    ∃ item ∈ items, item.ciphertext = packet.ciphertext :=
  List.mem_map.mp (h ▸ List.mem_map_of_mem hpacket)

theorem Carries.exists_packet (h : Carries packets items) {item : BatchItem} (hitem : item ∈ items) :
    ∃ packet ∈ packets, packet.ciphertext = item.ciphertext :=
  List.mem_map.mp (h.symm ▸ List.mem_map_of_mem hitem)

/-- The packets of a funded batch have different hashes. -/
theorem Carries.nodup_hashOf (h : Carries packets items)
    (hbatch : FundedBatch backend server opens closes items) :
    (packets.map backend.hashOf).Nodup := by
  have hhashes : packets.map backend.hashOf = items.map (BatchItem.hash backend) := by
    calc packets.map backend.hashOf
        = (packets.map MeshPacket.ciphertext).map backend.crypto.hashCiphertext :=
          List.map_map.symm
      _ = (items.map BatchItem.ciphertext).map backend.crypto.hashCiphertext := by rw [h]
      _ = items.map (BatchItem.hash backend) := List.map_map
  rw [hhashes]
  exact hbatch.distinct

/-- Within the retention window evictions keep the claims. -/
theorem ClaimedSince.evictions {hash : String} (h : ClaimedSince opens hash server)
    {evictions : List ℤ}
    (hevictions : ∀ now ∈ evictions, ((now - opens : ℤ) : ℚ) ≤ backend.ttlSeconds * 1000) :
    ClaimedSince opens hash (backend.machine.final server (evictions.map .evictExpired)) := by
  have hstep : ∀ (server : Server) (event : Event), event ∈ evictions.map Event.evictExpired →
      ClaimedSince opens hash server → ClaimedSince opens hash (backend.machine.next server event) := by
    intro server event hevent hclaimed
    obtain ⟨now, hnow, rfl⟩ := List.mem_map.mp hevent
    exact hclaimed.evictExpired (hevictions now hnow)
  exact Machine.invariant hstep h fun _ hevent => hevent

/-- An upload has the id of an injected packet exactly when it has its hash: both
identify the injection that it comes from. -/
theorem Journey.packetId_eq_iff {start : Mesh} {events : List MeshEvent}
    (hjourney : Journey start events) (hbatch : FundedBatch backend server opens closes items)
    (hcarries : Carries (injections events) items) (hpacket : packet ∈ injections events)
    {up : Upload} (hup : up ∈ (arrivedMesh start events).collectBridgeUploads) :
    up.packet.packetId = packet.packetId ↔ backend.hashOf up.packet = backend.hashOf packet := by
  obtain ⟨other, hother, hid, hciphertext⟩ :=
    hjourney.origin (mem_collectBridgeUploads.mp hup).2
  have hhash : backend.hashOf up.packet = backend.hashOf other := by
    rw [Backend.hashOf, Backend.hashOf, hciphertext]
  rw [hid, hhash]
  constructor
  · intro hsame
    rw [List.inj_on_of_nodup_map hjourney.distinct hother hpacket hsame]
  · intro hsame
    rw [List.inj_on_of_nodup_map (hcarries.nodup_hashOf hbatch) hother hpacket hsame]

/-- The uploads of a journey are deliveries of the batch, and they deliver all of it. -/
theorem Journey.batchEvents {start : Mesh} {events : List MeshEvent}
    (hjourney : Journey start events) (hbridge : start.bridges ≠ [])
    (hcarries : Carries (injections events) items) {clocks : ℕ → Clock}
    (hclocks : ∀ i, ∀ now ∈ [(clocks i).claimed, (clocks i).checked, (clocks i).stamped],
      opens ≤ now ∧ now ≤ closes) :
    (∀ event ∈ (clockedUploads (arrivedMesh start events) clocks).map fun e => e.1.event e.2,
      BatchEvent items opens closes event) ∧
    ∀ item ∈ items,
      ∃ event ∈ (clockedUploads (arrivedMesh start events) clocks).map fun e => e.1.event e.2,
        event.delivers backend (item.hash backend) = true := by
  constructor
  · intro event hevent
    obtain ⟨entry, hentry, rfl⟩ := List.mem_map.mp hevent
    obtain ⟨hup, i, hclock⟩ := exists_of_mem_clockedUploads hentry
    obtain ⟨packet, hpacket, -, hciphertext⟩ :=
      hjourney.origin (mem_collectBridgeUploads.mp hup).2
    obtain ⟨item, hitem, hsame⟩ := hcarries.exists_item hpacket
    refine .deliver item hitem _ (hciphertext.trans hsame.symm) _ _ _ ?_
    rw [hclock]
    exact hclocks i
  · intro item hitem
    obtain ⟨packet, hpacket, hsame⟩ := hcarries.exists_packet hitem
    obtain ⟨bridgeNodeId, hmem⟩ := List.exists_mem_of_ne_nil _ hbridge
    obtain ⟨copy, hheld, hciphertext⟩ := hjourney.arrived hpacket (has_of_mem_bridges hmem)
    have hup : (⟨bridgeNodeId, copy⟩ : Upload) ∈
        (arrivedMesh start events).collectBridgeUploads := by
      rw [mem_collectBridgeUploads, bridges_arrivedMesh, packetId_of_held hheld]
      exact ⟨hmem, hheld⟩
    rw [← map_fst_clockedUploads _ clocks] at hup
    obtain ⟨entry, hentry, hfst⟩ := List.mem_map.mp hup
    refine ⟨_, List.mem_map_of_mem hentry, ?_⟩
    rw [Event.delivers_iff]
    change some (backend.hashOf entry.1.packet) = some (item.hash backend)
    rw [hfst, Backend.hashOf, hciphertext, hsame, BatchItem.hash]

end

/-- What a flush has achieved: every packet was uploaded once per bridge with its
ciphertext, one of its uploads was settled, and all payments of the batch are in
the balances. -/
structure Landed (server : Server) (bridges : List String) (packets : List MeshPacket)
    (items : List BatchItem) (uploads : List Upload) (flushed : FlushResponse × Server) : Prop where
  uploads_perm : (uploads.map
      fun up => (up.bridgeNodeId, up.packet.packetId, up.packet.ciphertext)).Perm
    (bridges.product (packets.map fun packet => (packet.packetId, packet.ciphertext)))
  attempted : flushed.1.uploadsAttempted = uploads.length
  answered : flushed.1.results.length = uploads.length
  settled_once : ∀ packet ∈ packets, (uploads.zip flushed.1.results).countP
    (fun e => decide (e.1.packet.packetId = packet.packetId ∧ e.2.outcome = .settled)) = 1
  balance : ∀ vpa, flushed.2.db.balance vpa =
    server.db.balance vpa - Transfers.sent (items.map BatchItem.payment) vpa +
      Transfers.received (items.map BatchItem.payment) vpa

/-- What a flush has left as it was: all uploads were dropped as duplicates. -/
structure Dropped (server : Server) (uploads : List Upload) (flushed : FlushResponse × Server) :
    Prop where
  answered : flushed.1.results.length = uploads.length
  duplicates : ∀ result ∈ flushed.1.results, result.outcome = .duplicateDropped
  unchanged : flushed.2 = server

/-- **From mesh to ledger without loss.** Packets with the payments of a funded batch
are injected anywhere in a mesh with a bridge, with any rounds in between and one
after them. A flush while the payments are fresh uploads every packet once per
bridge, settles one upload of each and moves exactly the payments; a second flush
before a claim can expire drops every upload and changes nothing. -/
theorem mesh_to_ledger (backend : Backend) (start : Mesh) (hbridge : start.bridges ≠ [])
    (events : List MeshEvent) (hjourney : Journey start events) (server : Server)
    (opens closes : ℤ) (items : List BatchItem)
    (hbatch : FundedBatch backend server opens closes items)
    (hcarries : Carries (injections events) items) (clocks : ℕ → Clock)
    (hclocks : ∀ i, ∀ now ∈ [(clocks i).claimed, (clocks i).checked, (clocks i).stamped],
      opens ≤ now ∧ now ≤ closes)
    (evictions : List ℤ)
    (hevictions : ∀ now ∈ evictions, ((now - opens : ℤ) : ℚ) ≤ backend.ttlSeconds * 1000)
    (laterClocks : ℕ → Clock) :
    Landed server start.bridges (injections events) items
        (arrivedMesh start events).collectBridgeUploads
        (flush backend server (arrivedMesh start events) clocks) ∧
      Dropped (backend.machine.final (flush backend server (arrivedMesh start events) clocks).2
          (evictions.map .evictExpired))
        (arrivedMesh start events).collectBridgeUploads
        (flush backend
          (backend.machine.final (flush backend server (arrivedMesh start events) clocks).2
            (evictions.map .evictExpired))
          (arrivedMesh start events) laterClocks) := by
  obtain ⟨hevents, hdelivered⟩ := @Journey.batchEvents backend opens closes items start events hjourney
    hbridge hcarries clocks hclocks
  obtain ⟨paid, hperm, hfinal, hsettled, -⟩ := hbatch.run hevents hdelivered
  have hserver : (flush backend server (arrivedMesh start events) clocks).2 = backend.machine.final
      server ((clockedUploads (arrivedMesh start events) clocks).map fun e => e.1.event e.2) :=
    server_ingestUploads backend server (clockedUploads (arrivedMesh start events) clocks)
  rw [← hserver] at hfinal
  constructor
  · refine ⟨hjourney.uploads_perm, rfl, ?_, fun packet hpacket => ?_, hfinal.balance_eq hperm⟩
    · refine (length_ingestUploads backend server (clockedUploads _ clocks)).trans ?_
      rw [← map_fst_clockedUploads _ clocks, List.length_map]
    · obtain ⟨item, hitem, hsame⟩ := hcarries.exists_item hpacket
      rw [← hsettled item hitem, ← map_fst_clockedUploads _ clocks]
      refine countP_ingestUploads fun entry hentry => ?_
      rw [hjourney.packetId_eq_iff hbatch hcarries hpacket (exists_of_mem_clockedUploads hentry).1,
        BatchItem.hash, hsame, Backend.hashOf, Backend.hashOf]
  · have hseen : ∀ entry ∈ clockedUploads (arrivedMesh start events) laterClocks,
        (backend.machine.final (flush backend server (arrivedMesh start events) clocks).2
          (evictions.map .evictExpired)).seen.has (backend.hashOf entry.1.packet) = true := by
      intro entry hentry
      obtain ⟨packet, hpacket, -, hciphertext⟩ :=
        hjourney.origin (mem_collectBridgeUploads.mp (exists_of_mem_clockedUploads hentry).1).2
      obtain ⟨item, hitem, hsame⟩ := hcarries.exists_item hpacket
      have hclaimed := hfinal.claimed item (hperm.mem_iff.mp hitem)
      obtain ⟨instant, hget, -⟩ := hclaimed.evictions hevictions
      rw [Backend.hashOf, hciphertext, ← hsame]
      exact KeyedMap.has_of_get hget
    obtain ⟨hduplicates, hunchanged⟩ := ingestUploads_of_seen hseen
    refine ⟨?_, hduplicates, hunchanged⟩
    refine (length_ingestUploads backend _ (clockedUploads _ laterClocks)).trans ?_
    rw [← map_fst_clockedUploads _ laterClocks, List.length_map]

/-- Alice's and Bob's payments, injected at two phones before and after a round. -/
def twoInjections : List MeshEvent :=
  [.inject "phone-alice" ⟨"packet-1", .fin (5 : ℤ), .fin 0, "c1"⟩, .gossip,
    .inject "phone-stranger1" ⟨"packet-2", .fin (1 : ℤ), .fin 0, "c2"⟩]

theorem journey_twoInjections : Journey defaultMesh twoInjections where
  empty := defaultMesh_empty
  allowed := by
    simp only [twoInjections, List.forall_mem_cons, List.not_mem_nil, false_implies, implies_true,
      and_true]
    exact ⟨Or.inr ⟨_, _, 5, rfl, by decide +kernel, rfl, by norm_num⟩, Or.inl trivial,
      Or.inr ⟨_, _, 1, rfl, by decide +kernel, rfl, by norm_num⟩⟩
  distinct := by decide +kernel

/-- The two packets on the way through the default devices, flushed twice with an
eviction in between. -/
theorem mesh_to_ledger_twoInjections :
    Landed seeded defaultMesh.bridges (injections twoInjections) twoPayments
        (arrivedMesh defaultMesh twoInjections).collectBridgeUploads
        (flush twoPaymentsBackend seeded (arrivedMesh defaultMesh twoInjections)
          fun _ => ⟨2500, 2500, 2500⟩) ∧
      Dropped (twoPaymentsBackend.machine.final
          (flush twoPaymentsBackend seeded (arrivedMesh defaultMesh twoInjections)
            fun _ => ⟨2500, 2500, 2500⟩).2 ([3000].map .evictExpired))
        (arrivedMesh defaultMesh twoInjections).collectBridgeUploads
        (flush twoPaymentsBackend (twoPaymentsBackend.machine.final
          (flush twoPaymentsBackend seeded (arrivedMesh defaultMesh twoInjections)
            fun _ => ⟨2500, 2500, 2500⟩).2 ([3000].map .evictExpired))
          (arrivedMesh defaultMesh twoInjections) fun _ => ⟨3500, 3500, 3500⟩) := by
  refine mesh_to_ledger twoPaymentsBackend defaultMesh (by decide +kernel) twoInjections
    journey_twoInjections seeded 2000 3000 twoPayments fundedBatch_twoPayments rfl
    (fun _ => ⟨2500, 2500, 2500⟩) (by simp) [3000] ?_ (fun _ => ⟨3500, 3500, 3500⟩)
  simp only [List.forall_mem_cons, List.not_mem_nil, false_implies, implies_true, and_true,
    twoPaymentsBackend, shippedBackend]
  norm_num

end UpiOfflineMesh
