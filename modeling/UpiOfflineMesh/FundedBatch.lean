import UpiOfflineMesh.Delivery
import UpiOfflineMesh.LedgerIndex

/-!
# Funded batches

A batch of payments whose senders cover all that they send, delivered in any order
and any number of times while its claims are retained. The first delivery of each
ciphertext pays and all others are dropped. A run splits the batch into the
payments made so far, whose effect on the balances is that of the abstract
payments, and the rest, which nothing has touched; the order of the deliveries
decides the order of the split and nothing else.
-/

namespace UpiOfflineMesh

open Js InMemoryDb

/-- One ciphertext of a batch and the payment inside it. -/
structure BatchItem where
  ciphertext : String
  instruction : PaymentInstruction
  sender : String
  receiver : String
  paise : ℕ

/-- The idempotency key of the ciphertext. -/
def BatchItem.hash (backend : Backend) (item : BatchItem) : String :=
  backend.crypto.hashCiphertext item.ciphertext

/-- The payment in rupees. -/
def BatchItem.payment (item : BatchItem) : Transfers.Payment String ℚ :=
  ⟨item.sender, item.receiver, (item.paise : ℚ) / 100⟩

/-- The ciphertexts of the batch have different hashes that the server has not
seen, and open to payments of whole paise between different registered accounts
that stay fresh from `opens` to `closes`. The start covers, for each sender, all
that it sends, and claims are retained as long as the batch takes. -/
structure FundedBatch (backend : Backend) (start : Server) (opens closes : ℤ)
    (items : List BatchItem) : Prop where
  sound : start.db.Sound
  retained : ((closes - opens : ℤ) : ℚ) ≤ backend.ttlSeconds * 1000
  distinct : (items.map (BatchItem.hash backend)).Nodup
  unclaimed : ∀ item ∈ items, start.seen.has (item.hash backend) = false
  unrecorded : ∀ item ∈ items, start.db.txPacketHashes.has (item.hash backend) = false
  decrypted : ∀ item ∈ items, backend.crypto.decrypt item.ciphertext = .ok item.instruction
  senderVpa_eq : ∀ item ∈ items, item.instruction.senderVpa = .str item.sender
  receiverVpa_eq : ∀ item ∈ items, item.instruction.receiverVpa = .str item.receiver
  sender_known : ∀ item ∈ items, start.db.accounts.has item.sender = true
  receiver_known : ∀ item ∈ items, start.db.accounts.has item.receiver = true
  different : ∀ item ∈ items, item.sender ≠ item.receiver
  amount_read : ∀ item ∈ items,
    item.instruction.amount.parseFloat backend.platform = .ok (.fin ((item.paise : ℚ) / 100))
  amount_positive : ∀ item ∈ items, 0 < item.paise
  signedAt_valid : ∀ item ∈ items,
    ∃ signedAt, newDate backend.platform item.instruction.signedAt = .ok (some signedAt)
  fresh : ∀ item ∈ items, ∀ now, opens ≤ now → now ≤ closes →
    backend.freshness now item.instruction = .ok none
  funded : ∀ item ∈ items,
    Transfers.sent (items.map BatchItem.payment) item.sender ≤ start.db.balance item.sender

/-- What may happen while a batch is delivered, between `opens` and `closes`: any
bridge delivers any of its ciphertexts, or the cleanup timer fires. -/
inductive BatchEvent (items : List BatchItem) (opens closes : ℤ) : Event → Prop
  | deliver (item : BatchItem) (hitem : item ∈ items) (packet : MeshPacket)
      (hsame : packet.ciphertext = item.ciphertext) (bridgeNodeId : String) (hopCount : Number)
      (clock : Clock)
      (hclock : ∀ now ∈ [clock.claimed, clock.checked, clock.stamped], opens ≤ now ∧ now ≤ closes) :
      BatchEvent items opens closes (.ingest packet bridgeNodeId hopCount clock)
  | evict (now : ℤ) (hnow : opens ≤ now ∧ now ≤ closes) :
      BatchEvent items opens closes (.evictExpired now)

/-- The transition delivered a packet with this hash and was answered as settled. -/
def settles (backend : Backend) (hash : String)
    (t : Transition Server Event (Option IngestResult)) : Bool :=
  t.event.delivers backend hash && decide (t.output.map (·.outcome) = some .settled)

/-- The hash was claimed at `opens` or later. -/
def ClaimedSince (opens : ℤ) (hash : String) (server : Server) : Prop :=
  ∃ instant, server.seen.get hash = some (hash, instant) ∧ opens ≤ instant

section

variable {backend : Backend} {start server : Server} {opens closes : ℤ} {items : List BatchItem}
  {event : Event} {hash : String}

/-- A claim taken since `opens` outlives an eviction within the retention window. -/
theorem ClaimedSince.evictExpired {now : ℤ} (h : ClaimedSince opens hash server)
    (hretained : ((now - opens : ℤ) : ℚ) ≤ backend.ttlSeconds * 1000) :
    ClaimedSince opens hash (backend.machine.next server (.evictExpired now)) := by
  obtain ⟨instant, hget, hopens⟩ := h
  refine ⟨instant, ?_, hopens⟩
  rw [next_evictExpired]
  apply SeenCache.get_evictExpired_of_recent hget
  have hopens' : (opens : ℚ) ≤ instant := by exact_mod_cast hopens
  push_cast at hretained
  rw [SeenCache.cutoff]
  linarith

/-- A claim taken since `opens` stays as long as the batch takes. -/
theorem ClaimedSince.next (hretained : ((closes - opens : ℤ) : ℚ) ≤ backend.ttlSeconds * 1000)
    (hevent : BatchEvent items opens closes event) (h : ClaimedSince opens hash server) :
    ClaimedSince opens hash (backend.machine.next server event) := by
  cases hevent with
  | deliver item hitem packet hsame bridgeNodeId hopCount clock hclock =>
    obtain ⟨instant, hget, hopens⟩ := h
    refine ⟨instant, ?_, hopens⟩
    rw [next_ingest, Backend.seen_ingest]
    exact SeenCache.get_claim_of_get hget _ _
  | evict now hnow =>
    apply h.evictExpired
    have hcloses : (now : ℚ) ≤ closes := by exact_mod_cast hnow.2
    push_cast at hretained ⊢
    linarith

/-- A delivery that is answered as settled has claimed its hash. -/
theorem claimedSince_of_settles (hevent : BatchEvent items opens closes event)
    (h : settles backend hash (backend.machine.transition server event) = true) :
    ClaimedSince opens hash (backend.machine.next server event) := by
  rw [settles, Bool.and_eq_true, decide_eq_true_iff, Event.delivers_iff] at h
  obtain ⟨hhash, houtcome⟩ := h
  cases hevent with
  | evict now hnow => cases hhash
  | deliver item hitem packet hsame bridgeNodeId hopCount clock hclock =>
    obtain rfl : backend.hashOf packet = hash := Option.some.inj hhash
    cases hseen : server.seen.has (backend.hashOf packet) with
    | true =>
      rw [Machine.output_transition, output_ingest, Backend.ingest_of_seen hseen] at houtcome
      cases houtcome
    | false =>
      refine ⟨clock.claimed, ?_, (hclock clock.claimed (by simp)).1⟩
      rw [next_ingest, Backend.seen_ingest]
      exact SeenCache.get_claim_of_new hseen _

/-- A hash claimed since `opens` is not answered as settled. -/
theorem not_settles_of_claimedSince (h : ClaimedSince opens hash server) (event : Event) :
    settles backend hash (backend.machine.transition server event) = false := by
  obtain ⟨instant, hget, _⟩ := h
  rw [settles, Bool.and_eq_false_iff]
  cases hdelivers : event.delivers backend hash with
  | false => exact Or.inl hdelivers
  | true =>
    right
    rw [Event.delivers_iff] at hdelivers
    cases event with
    | evictExpired now => cases hdelivers
    | clear => cases hdelivers
    | ingest packet bridgeNodeId hopCount clock =>
      obtain rfl : backend.hashOf packet = hash := Option.some.inj hdelivers
      rw [Machine.output_transition, output_ingest,
        Backend.ingest_of_seen (KeyedMap.has_of_get hget)]
      rfl

/-! ### The payments made and the rest -/

/-- Between two events of the run: the payments made are in the balances and in
the cache, and the rest is as untouched as at the start. -/
structure Progress (backend : Backend) (start : Server) (opens : ℤ) (server : Server)
    (made rest : List BatchItem) : Prop where
  sound : server.db.Sound
  holders : server.db.holders = start.db.holders
  balance : server.db.balance =
    Transfers.applyAll (made.map BatchItem.payment) start.db.balance
  claimed : ∀ item ∈ made, ClaimedSince opens (item.hash backend) server
  unclaimed : ∀ item ∈ rest, server.seen.has (item.hash backend) = false
  unrecorded : ∀ item ∈ rest, server.db.txPacketHashes.has (item.hash backend) = false

/-- The next payment of the rest is payable now: what the sender has left covers it. -/
theorem FundedBatch.payable (hbatch : FundedBatch backend start opens closes items)
    {made rest : List BatchItem} {item : BatchItem} (hsplit : items.Perm (made ++ item :: rest))
    {later : List BatchItem} (h : Progress backend start opens server made later)
    {packet : MeshPacket} (hsame : packet.ciphertext = item.ciphertext) {now : ℤ}
    (hopens : opens ≤ now) (hcloses : now ≤ closes) :
    Payable backend server packet now item.instruction item.sender item.receiver
      ((item.paise : ℚ) / 100) := by
  have hitem : item ∈ items := hsplit.mem_iff.mpr (by simp)
  refine ⟨⟨?_, hbatch.fresh item hitem now hopens hcloses⟩, hbatch.senderVpa_eq item hitem,
    hbatch.receiverVpa_eq item hitem, ?_, ?_, hbatch.different item hitem,
    hbatch.amount_read item hitem, ?_, Number.isHundredths_natCast_div item.paise, ?_,
    hbatch.signedAt_valid item hitem⟩
  · rw [hsame]
    exact hbatch.decrypted item hitem
  · rw [has_eq_of_holders_eq h.holders]
    exact hbatch.sender_known item hitem
  · rw [has_eq_of_holders_eq h.holders]
    exact hbatch.receiver_known item hitem
  · have hpos : (0 : ℚ) < item.paise := by exact_mod_cast hbatch.amount_positive item hitem
    positivity
  · rw [h.balance]
    have hpayments : (items.map BatchItem.payment).Perm
        (made.map BatchItem.payment ++ item.payment :: rest.map BatchItem.payment) := by
      simpa using hsplit.map BatchItem.payment
    have hnonneg : ∀ p ∈ items.map BatchItem.payment, 0 ≤ p.amount := by
      intro p hp
      obtain ⟨other, _, rfl⟩ := List.mem_map.mp hp
      exact div_nonneg other.paise.cast_nonneg (by norm_num)
    exact Transfers.amount_le_applyAll hpayments hnonneg (hbatch.funded item hitem)

/-- Payments made and payments that remain have different hashes. -/
theorem FundedBatch.hash_ne (hbatch : FundedBatch backend start opens closes items)
    {made rest : List BatchItem} (hsplit : items.Perm (made ++ rest)) {item other : BatchItem}
    (hitem : item ∈ made) (hother : other ∈ rest) : item.hash backend ≠ other.hash backend := by
  intro heq
  have hnodup := (hsplit.map (BatchItem.hash backend)).nodup_iff.mp hbatch.distinct
  rw [List.map_append] at hnodup
  exact (List.disjoint_of_nodup_append hnodup) (List.mem_map_of_mem hitem)
    (heq ▸ List.mem_map_of_mem hother)

/-- The order of the rest does not matter. -/
theorem Progress.perm {made rest rest' : List BatchItem}
    (h : Progress backend start opens server made rest) (hperm : rest.Perm rest') :
    Progress backend start opens server made rest' :=
  ⟨h.sound, h.holders, h.balance, h.claimed,
    fun item hitem => h.unclaimed item (hperm.mem_iff.mpr hitem),
    fun item hitem => h.unrecorded item (hperm.mem_iff.mpr hitem)⟩

/-- The first delivery of a payment of the rest makes it. -/
theorem Progress.paid (hbatch : FundedBatch backend start opens closes items)
    {made rest : List BatchItem} {item : BatchItem} (hsplit : items.Perm (made ++ item :: rest))
    (h : Progress backend start opens server made (item :: rest)) {packet : MeshPacket}
    (hsame : packet.ciphertext = item.ciphertext) {bridgeNodeId : String} {hopCount : Number}
    {clock : Clock}
    (hclock : ∀ now ∈ [clock.claimed, clock.checked, clock.stamped], opens ≤ now ∧ now ≤ closes) :
    Progress backend start opens
        (backend.machine.next server (.ingest packet bridgeNodeId hopCount clock))
        (made ++ [item]) rest ∧
      settles backend (item.hash backend) (backend.machine.transition server
        (.ingest packet bridgeNodeId hopCount clock)) = true := by
  have hitem : item ∈ items := hsplit.mem_iff.mpr (by simp)
  have hhash : backend.hashOf packet = item.hash backend := by
    rw [Backend.hashOf, BatchItem.hash, hsame]
  have hevent : BatchEvent items opens closes (.ingest packet bridgeNodeId hopCount clock) :=
    .deliver item hitem packet hsame bridgeNodeId hopCount clock hclock
  have hchecked := hclock clock.checked (by simp)
  have hpayable := hbatch.payable hsplit h hsame hchecked.1 hchecked.2
  have hpaid := @Payable.paid backend server packet bridgeNodeId hopCount clock _ _ _ _ hpayable
    h.sound (by rw [hhash]; exact h.unrecorded item (by simp))
    (by rw [hhash]; exact h.unclaimed item (by simp))
  have hsettles : settles backend (item.hash backend)
      (backend.machine.transition server (.ingest packet bridgeNodeId hopCount clock)) = true := by
    rw [settles, Bool.and_eq_true, decide_eq_true_iff, Event.delivers_iff,
      Machine.output_transition, output_ingest]
    exact ⟨congrArg some hhash, congrArg some hpaid.outcome⟩
  -- The others have other hashes, so neither their claims nor their rows are touched.
  have hsplit' : items.Perm ((made ++ [item]) ++ rest) := by simpa using hsplit
  have hother : ∀ other ∈ rest, item.hash backend ≠ other.hash backend :=
    fun other hmem => hbatch.hash_ne hsplit' (by simp) hmem
  obtain ⟨hsound, hholders⟩ := @sound_next backend server h.sound
    (.ingest packet bridgeNodeId hopCount clock)
  refine ⟨⟨hsound, hholders.trans h.holders, ?_, ?_, ?_, ?_⟩, hsettles⟩
  · rw [List.map_append, List.map_singleton, Transfers.applyAll_append_singleton, ← h.balance]
    exact hpaid.balances
  · intro other hmem
    rcases List.mem_append.mp hmem with hmade | hlast
    · exact (h.claimed other hmade).next hbatch.retained hevent
    · obtain rfl := List.mem_singleton.mp hlast
      exact claimedSince_of_settles hevent hsettles
  · intro other hmem
    rw [next_ingest, hpaid.claimed, KeyedMap.has_set, hhash,
      h.unclaimed other (List.mem_cons_of_mem _ hmem)]
    simp [hother other hmem]
  · intro other hmem
    rw [next_ingest, hpaid.indexed, KeyedMap.has_set, hhash,
      h.unrecorded other (List.mem_cons_of_mem _ hmem)]
    simp [hother other hmem]

/-- A delivery of a payment that was made is dropped. -/
theorem Progress.dropped {made rest : List BatchItem}
    (h : Progress backend start opens server made rest) {item : BatchItem} (hmade : item ∈ made)
    {packet : MeshPacket} (hhash : backend.hashOf packet = item.hash backend)
    (bridgeNodeId : String) (hopCount : Number) (clock : Clock) :
    backend.ingest server packet bridgeNodeId hopCount clock =
      (.duplicate (backend.hashOf packet), server) := by
  obtain ⟨instant, hget, _⟩ := h.claimed item hmade
  apply Backend.ingest_of_seen
  rw [hhash]
  exact KeyedMap.has_of_get hget

/-- An eviction within the window changes nothing but the cache's old entries. -/
theorem Progress.evicted (hbatch : FundedBatch backend start opens closes items)
    {made rest : List BatchItem} (h : Progress backend start opens server made rest) {now : ℤ}
    (hnow : opens ≤ now ∧ now ≤ closes) :
    Progress backend start opens (backend.machine.next server (.evictExpired now)) made rest := by
  refine ⟨h.sound, h.holders, h.balance, fun item hitem => ?_, fun item hitem => ?_, h.unrecorded⟩
  · exact @ClaimedSince.next _ _ _ _ items _ _ hbatch.retained (.evict now hnow)
      (h.claimed item hitem)
  · by_contra hhas
    have hbefore := SeenCache.has_of_has_evictExpired (Bool.eq_true_of_not_eq_false hhas)
    simp [h.unclaimed item hitem] at hbefore

/-- What an event of the run does: it changes nothing but the cache's old entries
and is at most a dropped duplicate, or it makes the next payment of the rest. -/
theorem Progress.next (hbatch : FundedBatch backend start opens closes items)
    {made rest : List BatchItem} (hsplit : items.Perm (made ++ rest))
    (h : Progress backend start opens server made rest)
    (hevent : BatchEvent items opens closes event) :
    (Progress backend start opens (backend.machine.next server event) made rest ∧
      (∀ result, (backend.machine.step server event).1 = some result →
        result.outcome = .duplicateDropped) ∧
      ∀ item ∈ rest, event.delivers backend (item.hash backend) = false) ∨
    ∃ item rest', rest.Perm (item :: rest') ∧
      Progress backend start opens (backend.machine.next server event) (made ++ [item]) rest' ∧
      settles backend (item.hash backend) (backend.machine.transition server event) = true ∧
      ∀ other ∈ rest', event.delivers backend (other.hash backend) = false := by
  cases hevent with
  | evict now hnow =>
    left
    exact ⟨h.evicted hbatch hnow, fun result hresult => (by cases hresult), fun item _ => rfl⟩
  | deliver item hitem packet hsame bridgeNodeId hopCount clock hclock =>
    have hhash : backend.hashOf packet = item.hash backend := by
      rw [Backend.hashOf, BatchItem.hash, hsame]
    have hdelivers : ∀ other : BatchItem, item.hash backend ≠ other.hash backend →
        (Event.ingest packet bridgeNodeId hopCount clock).delivers backend (other.hash backend) =
          false := by
      intro other hne
      simp only [Event.delivers, Event.hash, hhash, Option.some.injEq, decide_eq_false_iff_not]
      exact hne
    rcases List.mem_append.mp (hsplit.mem_iff.mp hitem) with hmade | hrest
    · left
      have hdropped := h.dropped hmade hhash bridgeNodeId hopCount clock
      rw [next_ingest, hdropped, output_ingest, hdropped]
      refine ⟨h, ?_, fun other hother => hdelivers other (hbatch.hash_ne hsplit hmade hother)⟩
      rintro result hresult
      cases hresult
      rfl
    · right
      obtain ⟨before, after, rfl⟩ := List.append_of_mem hrest
      have hperm : (before ++ item :: after).Perm (item :: (before ++ after)) := List.perm_middle
      have hsplit' : items.Perm (made ++ item :: (before ++ after)) :=
        hsplit.trans (hperm.append_left made)
      have hmade : items.Perm ((made ++ [item]) ++ (before ++ after)) := by simpa using hsplit'
      obtain ⟨hprogress, hsettles⟩ := (h.perm hperm).paid hbatch hsplit' hsame hclock
      exact ⟨item, before ++ after, hperm, hprogress, hsettles, fun other hmem =>
        hdelivers other (hbatch.hash_ne hmade (by simp) hmem)⟩

/-- A run of the batch makes some payments of the rest, each in a settled
transition, and does not deliver what then remains; every answer on the way is
settled or a dropped duplicate. -/
theorem Progress.final (hbatch : FundedBatch backend start opens closes items)
    {made rest : List BatchItem} (hsplit : items.Perm (made ++ rest))
    (h : Progress backend start opens server made rest) {events : List Event}
    (hevents : ∀ event ∈ events, BatchEvent items opens closes event) :
    ∃ paid rest', rest.Perm (paid ++ rest') ∧
      Progress backend start opens (backend.machine.final server events) (made ++ paid) rest' ∧
      (∀ item ∈ paid, ∃ t ∈ backend.machine.transitions server events,
        settles backend (item.hash backend) t = true) ∧
      (∀ item ∈ rest', ∀ event ∈ events, event.delivers backend (item.hash backend) = false) ∧
      ∀ t ∈ backend.machine.transitions server events, ∀ result, t.output = some result →
        result.outcome = .settled ∨ result.outcome = .duplicateDropped := by
  induction events generalizing server made rest with
  | nil => exact ⟨[], rest, .refl _, by simpa using h, by simp, by simp, by simp⟩
  | cons event events ih =>
    have hevent := hevents event (by simp)
    have hlater : ∀ e ∈ events, BatchEvent items opens closes e :=
      fun e he => hevents e (by simp [he])
    rcases h.next hbatch hsplit hevent with ⟨hnext, hanswer, hquiet⟩ |
      ⟨item, rest', hperm, hnext, hsettles, hquiet⟩
    · obtain ⟨paid, left, hpaid, hfinal, hmade, hnone, hanswers⟩ := ih hsplit hnext hlater
      refine ⟨paid, left, hpaid, hfinal, fun item hitem => ?_, fun item hitem e he => ?_,
        fun t ht result hresult => ?_⟩
      · obtain ⟨t, ht, hsettled⟩ := hmade item hitem
        exact ⟨t, List.mem_cons_of_mem _ ht, hsettled⟩
      · rcases List.mem_cons.mp he with rfl | he
        · exact hquiet item (hpaid.mem_iff.mpr (List.mem_append_right _ hitem))
        · exact hnone item hitem e he
      · rcases List.mem_cons.mp ht with rfl | ht
        · exact Or.inr (hanswer result hresult)
        · exact hanswers t ht result hresult
    · have hsplit' : items.Perm (made ++ [item] ++ rest') := by
        rw [List.append_assoc, List.singleton_append]
        exact hsplit.trans (hperm.append_left made)
      obtain ⟨paid, left, hpaid, hfinal, hmade, hnone, hanswers⟩ := ih hsplit' hnext hlater
      rw [List.append_assoc, List.singleton_append] at hfinal
      refine ⟨item :: paid, left, hperm.trans (hpaid.cons item), hfinal, fun other hother => ?_,
        fun other hother e he => ?_, fun t ht result hresult => ?_⟩
      · rcases List.mem_cons.mp hother with rfl | hother
        · exact ⟨_, List.mem_cons_self, hsettles⟩
        · obtain ⟨t, ht, hsettled⟩ := hmade other hother
          exact ⟨t, List.mem_cons_of_mem _ ht, hsettled⟩
      · rcases List.mem_cons.mp he with rfl | he
        · exact hquiet other (hpaid.mem_iff.mpr (List.mem_append_right _ hother))
        · exact hnone other hother e he
      · rcases List.mem_cons.mp ht with rfl | ht
        · left
          rw [settles, Bool.and_eq_true, decide_eq_true_iff, hresult] at hsettles
          exact Option.some.inj hsettles.2
        · exact hanswers t ht result hresult

/-- No ciphertext of a batch is answered as settled twice. -/
theorem countP_settles_le_one (hretained : ((closes - opens : ℤ) : ℚ) ≤ backend.ttlSeconds * 1000)
    (hash : String) (server : Server) {events : List Event}
    (hevents : ∀ event ∈ events, BatchEvent items opens closes event) :
    (backend.machine.transitions server events).countP (settles backend hash) ≤ 1 := by
  have hmark : ∀ (server : Server) (event : Event), BatchEvent items opens closes event →
      settles backend hash (backend.machine.transition server event) = true →
        ClaimedSince opens hash (backend.machine.next server event) :=
    fun server event hevent h => claimedSince_of_settles hevent h
  have hstay : ∀ (server : Server) (event : Event), BatchEvent items opens closes event →
      ClaimedSince opens hash server → ClaimedSince opens hash (backend.machine.next server event) :=
    fun server event hevent h => h.next hretained hevent
  have hquiet : ∀ (server : Server) (event : Event), BatchEvent items opens closes event →
      ClaimedSince opens hash server →
        settles backend hash (backend.machine.transition server event) = false :=
    fun server event _ h => not_settles_of_claimedSince h event
  exact Machine.countP_transitions_le_one hmark hstay hquiet server hevents

/-- A run that delivers every ciphertext makes all payments of the batch, each in
exactly one settled transition; all other answers are dropped duplicates. -/
theorem FundedBatch.run {events : List Event} (hbatch : FundedBatch backend start opens closes items)
    (hevents : ∀ event ∈ events, BatchEvent items opens closes event)
    (hdelivered : ∀ item ∈ items,
      ∃ event ∈ events, event.delivers backend (item.hash backend) = true) :
    ∃ paid, items.Perm paid ∧
      Progress backend start opens (backend.machine.final start events) paid [] ∧
      (∀ item ∈ items, (backend.machine.transitions start events).countP
        (settles backend (item.hash backend)) = 1) ∧
      ∀ t ∈ backend.machine.transitions start events, ∀ result, t.output = some result →
        result.outcome = .settled ∨ result.outcome = .duplicateDropped := by
  have hstart : Progress backend start opens start [] items :=
    ⟨hbatch.sound, rfl, rfl, by simp, hbatch.unclaimed, hbatch.unrecorded⟩
  obtain ⟨paid, rest, hperm, hfinal, hmade, hnone, hanswers⟩ :=
    hstart.final hbatch (by simp) hevents
  have hrest : rest = [] := by
    rw [List.eq_nil_iff_forall_not_mem]
    intro item hitem
    obtain ⟨event, hevent, hdelivers⟩ :=
      hdelivered item (hperm.mem_iff.mpr (List.mem_append_right _ hitem))
    simp [hnone item hitem event hevent] at hdelivers
  rw [hrest, List.append_nil] at hperm
  rw [hrest] at hfinal
  refine ⟨paid, hperm, hfinal, fun item hitem => ?_, hanswers⟩
  obtain ⟨t, ht, hsettled⟩ := hmade item (hperm.mem_iff.mp hitem)
  have hpos : 0 < (backend.machine.transitions start events).countP
      (settles backend (item.hash backend)) := List.countP_pos_iff.mpr ⟨t, ht, hsettled⟩
  have hle := countP_settles_le_one hbatch.retained (item.hash backend) start hevents
  omega

/-- The balances after all payments of the batch, in whatever order they were made. -/
theorem Progress.balance_eq {paid : List BatchItem} (hperm : items.Perm paid)
    (h : Progress backend start opens server paid []) (vpa : String) :
    server.db.balance vpa =
      start.db.balance vpa - Transfers.sent (items.map BatchItem.payment) vpa +
        Transfers.received (items.map BatchItem.payment) vpa := by
  rw [h.balance, ← Transfers.applyAll_perm (hperm.map _), Transfers.applyAll_eq]

end

/-- **Order and multiplicity do not matter.** Whenever a funded batch is delivered,
each ciphertext at least once, in any order, any number of times and by any
bridges: each ciphertext is answered as settled exactly once, every other answer
is a dropped duplicate, and every balance ends as the start less what the address
sends in the batch plus what it receives, as a two-decimal number. -/
theorem funded_batch_settles (backend : Backend) (start : Server) (opens closes : ℤ)
    (items : List BatchItem) (events : List Event)
    (hbatch : FundedBatch backend start opens closes items)
    (hevents : ∀ event ∈ events, BatchEvent items opens closes event)
    (hdelivered : ∀ item ∈ items,
      ∃ event ∈ events, event.delivers backend (item.hash backend) = true) :
    (∀ item ∈ items, (backend.machine.transitions start events).countP
      (settles backend (item.hash backend)) = 1) ∧
    (∀ t ∈ backend.machine.transitions start events, ∀ result, t.output = some result →
      result.outcome = .settled ∨ result.outcome = .duplicateDropped) ∧
    (backend.machine.final start events).db.Sound ∧
    ∀ vpa, (backend.machine.final start events).db.balance vpa =
      start.db.balance vpa - Transfers.sent (items.map BatchItem.payment) vpa +
        Transfers.received (items.map BatchItem.payment) vpa := by
  obtain ⟨paid, hperm, hfinal, hsettled, hanswers⟩ := hbatch.run hevents hdelivered
  exact ⟨hsettled, hanswers, hfinal.sound, hfinal.balance_eq hperm⟩

/-- Alice pays Bob 500 and Bob pays Carol 1000, all that he starts with. -/
def twoPayments : List BatchItem :=
  [⟨"c1", paymentOf "alice@demo" "bob@demo" (.num (.fin 500)) (.num (.fin 1000)), "alice@demo",
      "bob@demo", 50000⟩,
    ⟨"c2", paymentOf "bob@demo" "carol@demo" (.num (.fin 1000)) (.num (.fin 1500)), "bob@demo",
      "carol@demo", 100000⟩]

/-- The shipped backend that opens the two ciphertexts. -/
def twoPaymentsBackend : Backend :=
  shippedBackend (twoPayments.map fun item => (item.ciphertext, item.instruction))

theorem fundedBatch_twoPayments :
    FundedBatch twoPaymentsBackend seeded 2000 3000 twoPayments where
  sound := sound_seededDb
  retained := by norm_num [twoPaymentsBackend, shippedBackend]
  distinct := by decide +kernel
  unclaimed := by decide +kernel
  unrecorded := by decide +kernel
  decrypted := by
    simp only [twoPayments, List.forall_mem_cons, List.not_mem_nil, false_implies, implies_true,
      and_true]
    exact ⟨rfl, rfl⟩
  senderVpa_eq := by
    simp only [twoPayments, List.forall_mem_cons, List.not_mem_nil, false_implies, implies_true,
      and_true]
    exact ⟨rfl, rfl⟩
  receiverVpa_eq := by
    simp only [twoPayments, List.forall_mem_cons, List.not_mem_nil, false_implies, implies_true,
      and_true]
    exact ⟨rfl, rfl⟩
  sender_known := by decide +kernel
  receiver_known := by decide +kernel
  different := by decide +kernel
  amount_read := by decide +kernel
  amount_positive := by decide +kernel
  signedAt_valid := by
    simp only [twoPayments, List.forall_mem_cons, List.not_mem_nil, false_implies, implies_true,
      and_true]
    exact ⟨⟨1000, by decide +kernel⟩, ⟨1500, by decide +kernel⟩⟩
  fresh := by
    have hfresh : ∀ (t : ℚ) (instruction : PaymentInstruction),
        instruction.signedAt = .num (.fin t) → 0 ≤ t → t ≤ 2000 → ∀ now : ℤ, 2000 ≤ now →
          now ≤ 3000 → twoPaymentsBackend.freshness now instruction = .ok none := by
      intro t instruction hsigned hlower hupper now hopens hcloses
      have hopens' : (2000 : ℚ) ≤ now := by exact_mod_cast hopens
      have hcloses' : (now : ℚ) ≤ 3000 := by exact_mod_cast hcloses
      rw [Backend.freshness_fin_iff (t := t) (by rw [hsigned, Value.toNumber_num])]
      simp only [Backend.InWindow, twoPaymentsBackend, shippedBackend]
      constructor
      · linarith
      · linarith
    simp only [twoPayments, List.forall_mem_cons, List.not_mem_nil, false_implies, implies_true,
      and_true]
    exact ⟨hfresh 1000 _ rfl (by norm_num) (by norm_num),
      hfresh 1500 _ rfl (by norm_num) (by norm_num)⟩
  funded := by decide +kernel

/-- The second ciphertext first, both twice, with an eviction in between. -/
theorem funded_batch_settles_twoPayments :
    (∀ item ∈ twoPayments, (twoPaymentsBackend.machine.transitions seeded
      [deliver "c2" 2000, deliver "c1" 2500, .evictExpired 2600, deliver "c2" 2700,
        deliver "c1" 3000]).countP (settles twoPaymentsBackend (item.hash twoPaymentsBackend)) = 1) ∧
    (∀ t ∈ twoPaymentsBackend.machine.transitions seeded
      [deliver "c2" 2000, deliver "c1" 2500, .evictExpired 2600, deliver "c2" 2700,
        deliver "c1" 3000], ∀ result, t.output = some result →
      result.outcome = .settled ∨ result.outcome = .duplicateDropped) ∧
    (twoPaymentsBackend.machine.final seeded
      [deliver "c2" 2000, deliver "c1" 2500, .evictExpired 2600, deliver "c2" 2700,
        deliver "c1" 3000]).db.Sound ∧
    ∀ vpa, (twoPaymentsBackend.machine.final seeded
      [deliver "c2" 2000, deliver "c1" 2500, .evictExpired 2600, deliver "c2" 2700,
        deliver "c1" 3000]).db.balance vpa =
      seeded.db.balance vpa - Transfers.sent (twoPayments.map BatchItem.payment) vpa +
        Transfers.received (twoPayments.map BatchItem.payment) vpa := by
  have hdeliver : ∀ ciphertext ∈ twoPayments.map BatchItem.ciphertext, ∀ now : ℤ, 2000 ≤ now →
      now ≤ 3000 → BatchEvent twoPayments 2000 3000 (deliver ciphertext now) := by
    intro ciphertext hmem now hopens hcloses
    obtain ⟨item, hitem, rfl⟩ := List.mem_map.mp hmem
    refine .deliver item hitem (packetOf item.ciphertext) rfl _ _ _ fun reading hreading => ?_
    simp only [List.mem_cons, List.not_mem_nil, or_false, or_self] at hreading
    rw [hreading]
    exact ⟨hopens, hcloses⟩
  refine funded_batch_settles _ _ 2000 3000 _ _ fundedBatch_twoPayments ?_ ?_
  · simp only [List.forall_mem_cons, List.not_mem_nil, false_implies, implies_true, and_true]
    exact ⟨hdeliver "c2" (by decide) 2000 (by norm_num) (by norm_num),
      hdeliver "c1" (by decide) 2500 (by norm_num) (by norm_num), .evict 2600 (by norm_num),
      hdeliver "c2" (by decide) 2700 (by norm_num) (by norm_num),
      hdeliver "c1" (by decide) 3000 (by norm_num) (by norm_num)⟩
  · simp only [twoPayments, List.forall_mem_cons, List.not_mem_nil, false_implies, implies_true,
      and_true]
    exact ⟨⟨deliver "c1" 2500, by simp, by decide +kernel⟩,
      ⟨deliver "c2" 2000, by simp, by decide +kernel⟩⟩

end UpiOfflineMesh
