import UpiOfflineMesh.HopCount
import UpiOfflineMesh.Recording

/-!
# Requests and ledger rows

Behind every row is a delivery, behind every delivery an upload of a flush or a posted
body, and behind every upload a request to send, with no reset of the mesh in between.
What the row says is what the request said.
-/

namespace UpiOfflineMesh

open Js InMemoryDb Mesh

/-! ### The delivery behind a row -/

section

variable {backend : Backend} {server : Server} {row : Transaction}

end

/-! ### The request behind an upload -/

theorem empty_resetMesh (mesh : Mesh) : ∀ device ∈ mesh.resetMesh.values,
    device.heldPackets = .empty := by
  intro device hdevice
  obtain ⟨old, -, rfl⟩ := List.mem_map.mp hdevice
  rfl

/-- A list with this entry, cut at the last one. -/
theorem exists_last_of_mem {α : Type*} {a : α} {l : List α} (h : a ∈ l) :
    ∃ before after, l = before ++ a :: after ∧ a ∉ after := by
  obtain ⟨after, before, hsplit, hnone⟩ := List.eq_append_cons_of_mem (List.mem_reverse.mpr h)
  refine ⟨before.reverse, after.reverse, ?_, by simpa using hnone⟩
  have hback := congrArg List.reverse hsplit
  simpa using hback

section

variable {api : Api} {server : Server} {events : List AppEvent} {deviceId packetId : String}
  {copy : MeshPacket}

/-- Since the last reset the mesh is in a run from empty devices. -/
theorem exists_empty_start (api : Api) (server : Server) (events : List AppEvent) :
    ∃ earlier since start, events = earlier ++ since ∧ .meshReset ∉ since ∧
      (∀ device ∈ start.values, device.heldPackets = .empty) ∧
      (api.machine.final ⟨defaultMesh, server⟩ events).mesh =
        meshMachine.final start (since.flatMap api.meshEvents) := by
  by_cases hreset : .meshReset ∈ events
  · obtain ⟨earlier, since, rfl, hnone⟩ := exists_last_of_mem hreset
    refine ⟨earlier ++ [.meshReset], since, _, by simp, hnone,
      empty_resetMesh (api.machine.final ⟨defaultMesh, server⟩ earlier).mesh, ?_⟩
    rw [Machine.final_append, Machine.final_cons, Api.mesh_final]
    rfl
  · exact ⟨[], events, defaultMesh, rfl, hreset, defaultMesh_empty, api.mesh_final events⟩

/-- **Every copy comes from a request,** and the mesh has not been reset since. -/
theorem exists_send_of_held
    (hheld : (api.machine.final ⟨defaultMesh, server⟩ events).mesh.held deviceId packetId =
      some copy) :
    ∃ before body draw between, ∃ trail : Trail,
      events = before ++ .demoSend body draw :: between ∧ .meshReset ∉ between ∧
      api.prepareSend body draw = .ok (.str trail.home, trail.sent) ∧ copy = trail.copy := by
  obtain ⟨earlier, since, start, rfl, hnone, hempty, hmesh⟩ :=
    exists_empty_start api server events
  rw [hmesh] at hheld
  obtain ⟨trail, -, hcopy, hground⟩ := exists_trail hempty hheld
  obtain ⟨event, hevent, hinjects⟩ := List.mem_flatMap.mp hground.injected
  obtain ⟨body, draw, rfl, hprepared⟩ := Api.mem_meshEvents_iff.mp hinjects
  obtain ⟨before, between, rfl⟩ := List.append_of_mem hevent
  refine ⟨earlier ++ before, body, draw, between, trail, by simp, ?_, hprepared, hcopy⟩
  intro hreset
  exact hnone (List.mem_append_right _ (List.mem_cons_of_mem _ hreset))

end

/-! ### The two ways to the pipeline -/

/-- `JSON.parse` reads back what the phones have written in this run. -/
def Api.ReadsBack (api : Api) (events : List AppEvent) : Prop :=
  ∀ body draw deviceName packet request amount pin, .demoSend body draw ∈ events →
    api.Makes body draw deviceName packet request amount pin →
      api.node.parseJson (api.node.stringify
          (instructionOf api.node draw request.senderVpa request.receiverVpa amount pin).record) =
        .ok (instructionOf api.node draw request.senderVpa request.receiverVpa amount pin).record

theorem Api.ReadsBack.of_append {api : Api} {earlier later : List AppEvent}
    (h : api.ReadsBack (earlier ++ later)) : api.ReadsBack earlier :=
  fun _ _ _ _ _ _ _ hsent => h _ _ _ _ _ _ _ (List.mem_append_left later hsent)

end UpiOfflineMesh
