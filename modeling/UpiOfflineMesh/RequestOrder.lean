import UpiOfflineMesh.ApiRoutes
import UpiOfflineMesh.Interleaving

/-!
# The order of requests

Sending and gossip work on the phones, the ingestion endpoint and the cleanup timer on the
server; a flush and a reset need both. The requests in between may arrive in any order
that keeps the order on either side.
-/

namespace UpiOfflineMesh

open Js Mesh

/-- The two halves of the state behind the routes. -/
inductive Resource where
  | mesh
  | server
  deriving DecidableEq

/-- What an event reads or writes. -/
def AppEvent.uses : AppEvent → Resource → Bool
  | .demoSend _ _, resource => resource = .mesh
  | .meshGossip, resource => resource = .mesh
  | .bridgeIngest _ _ _ _, resource => resource = .server
  | .evictExpired _, resource => resource = .server
  | .meshFlush _, _ => true
  | .meshReset, _ => true

section

variable {api : Api} {event : AppEvent}

/-- An event that leaves the server alone is a function of the mesh. -/
theorem Api.step_of_mesh (h : event.uses .server = false) :
    ∃ act : Mesh → AppResponse × Mesh, ∀ state, api.machine.step state event =
      ((act state.mesh).1, { state with mesh := (act state.mesh).2 }) := by
  cases event with
  | demoSend body draw =>
    exact ⟨fun mesh => (.send (api.demoSend mesh body draw).1, (api.demoSend mesh body draw).2),
      fun _ => rfl⟩
  | meshGossip => exact ⟨fun mesh => (.gossip mesh.gossipOnce.1, mesh.gossipOnce.2), fun _ => rfl⟩
  | bridgeIngest body bridgeHeader hopHeader clock => cases h
  | evictExpired now => cases h
  | meshFlush clocks => cases h
  | meshReset => cases h

/-- An event that leaves the mesh alone is a function of the server. -/
theorem Api.step_of_server (h : event.uses .mesh = false) :
    ∃ act : Server → AppResponse × Server, ∀ state, api.machine.step state event =
      ((act state.server).1, { state with server := (act state.server).2 }) := by
  cases event with
  | bridgeIngest body bridgeHeader hopHeader clock =>
    exact ⟨fun server => (.ingest (UpiOfflineMesh.bridgeIngest api.backend server body bridgeHeader
        hopHeader clock).1,
      (UpiOfflineMesh.bridgeIngest api.backend server body bridgeHeader hopHeader clock).2),
      fun _ => rfl⟩
  | evictExpired now =>
    exact ⟨fun server => (.empty, { server with
      seen := server.seen.evictExpired api.ttlSeconds now }), fun _ => rfl⟩
  | demoSend body draw => cases h
  | meshGossip => cases h
  | meshFlush clocks => cases h
  | meshReset => cases h

/-- Events that are apart work on different halves. -/
theorem AppEvent.uses_of_apart {event' : AppEvent} (h : Machine.Apart uses event event') :
    event.uses .server = false ∧ event'.uses .mesh = false ∨
      event.uses .mesh = false ∧ event'.uses .server = false := by
  have hmesh := h .mesh
  have hserver := h .server
  have hsome : event.uses .mesh = true ∨ event.uses .server = true := by
    cases event <;> simp [uses]
  have hsome' : event'.uses .mesh = true ∨ event'.uses .server = true := by
    cases event' <;> simp [uses]
  grind

end

/-- The two halves separate the events of the application. -/
theorem Api.separated (api : Api) : api.machine.Separated AppEvent.uses := by
  have hapart : ∀ event event', Machine.Apart AppEvent.uses event event' → ∀ state,
      (api.machine.step (api.machine.next state event) event').1 =
          (api.machine.step state event').1 ∧
        api.machine.next (api.machine.next state event) event' =
          api.machine.next (api.machine.next state event') event := by
    intro event event' h state
    rcases AppEvent.uses_of_apart h with ⟨hserver, hmesh⟩ | ⟨hmesh, hserver⟩
    · obtain ⟨act, hact⟩ := @Api.step_of_mesh api event hserver
      obtain ⟨act', hact'⟩ := @Api.step_of_server api event' hmesh
      simp [Machine.next, hact, hact']
    · obtain ⟨act, hact⟩ := @Api.step_of_server api event hmesh
      obtain ⟨act', hact'⟩ := @Api.step_of_mesh api event' hserver
      simp [Machine.next, hact, hact']
  refine ⟨fun event => ?_, fun state event event' h => (hapart event event' h state).1,
    fun state event event' h => (hapart event event' h state).2⟩
  cases event with
  | bridgeIngest body bridgeHeader hopHeader clock => exact ⟨.server, rfl⟩
  | evictExpired now => exact ⟨.server, rfl⟩
  | _ => exact ⟨.mesh, rfl⟩

/-- **The order of unrelated requests does not matter.** From every state, two runs with
the same requests on the side of the phones and the same requests on the side of the
server, each side in its own order, reach the same state; and either side gets the same
responses in the same order. -/
theorem request_order (api : Api) (state : AppState) (events events' : List AppEvent)
    (hsame : ∀ resource : Resource, events.filter (fun event => event.uses resource) =
      events'.filter fun event => event.uses resource) :
    api.machine.final state events = api.machine.final state events' ∧
      ∀ resource : Resource,
        (api.machine.answers state events).filter (fun answer => answer.1.uses resource) =
          (api.machine.answers state events').filter fun answer => answer.1.uses resource :=
  api.separated.agree hsame state

/-- A packet that a bridge posts by itself. -/
def postedPacket : Value :=
  .obj [("packetId", .str "packet-2"), ("ttl", .num (.fin 3)), ("createdAt", .num (.fin 1000)),
    ("ciphertext", .str "c1")]

/-- It may be posted and the cleanup timer may fire before Alice sends, or after the round. -/
theorem request_order_posted :
    plainApi.machine.final ⟨defaultMesh, seeded⟩
        [.bridgeIngest postedPacket none none ⟨1500, 1500, 1500⟩, .evictExpired 1600,
          .demoSend (aliceSends "phone-alice" 5) aliceDraw, .meshGossip,
          .meshFlush fun _ => ⟨2000, 2000, 2000⟩] =
      plainApi.machine.final ⟨defaultMesh, seeded⟩
        [.demoSend (aliceSends "phone-alice" 5) aliceDraw, .meshGossip,
          .bridgeIngest postedPacket none none ⟨1500, 1500, 1500⟩, .evictExpired 1600,
          .meshFlush fun _ => ⟨2000, 2000, 2000⟩] := by
  refine (request_order plainApi ⟨defaultMesh, seeded⟩ _ _ fun resource => ?_).1
  cases resource with
  | mesh => rfl
  | server => rfl

end UpiOfflineMesh
