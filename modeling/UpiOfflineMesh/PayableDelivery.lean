import UpiOfflineMesh.Delivery
import UpiOfflineMesh.WholePaise

/-!
# Payable packets on the server that rounds

The delivery of a payable packet pays unless the idempotency cache holds its hash: the claim
is taken before all other checks and is not given back when one of them fails, so an earlier
failed delivery blocks a payable packet until the claim expires. What the server calculates
on the way is rounded; whole paise arrive as they were sent.
-/

namespace UpiOfflineMesh

open Js InMemoryDb

/-- The payment moved exactly what the text of its amount says, if that is whole paise. -/
def TransfersPaise (platform : Platform) (before after : InMemoryDb)
    (instruction : PaymentInstruction) (sender receiver : String) : Prop :=
  ∀ a, instruction.amount.parseFloat platform = .ok (.fin a) → Number.IsHundredths a →
    after.balance = Transfers.Payment.apply ⟨sender, receiver, a⟩ before.balance

section

variable {platform : Platform} {db : InMemoryDb} {instruction : PaymentInstruction}
  {sender receiver : Account} {amount : Number} {row : Transaction} {k : ℕ} {a : ℚ}

/-- An amount that a small balance covers is small. -/
theorem smallHundredths_of_covered {n : ℕ} (hn : sender.Holds n) (hsmall : (n : ℚ) / 100 ≤ 2 ^ 35)
    (hwhole : Number.IsHundredths a) (hpositive : 0 < a)
    (hfunds : sender.getBalanceAsNumber.toDouble.lt (Number.fin a).toDouble = false) :
    (Number.fin a).SmallHundredths := by
  rintro _ ⟨rfl⟩
  refine ⟨hwhole, ?_⟩
  rw [abs_of_pos hpositive]
  by_contra hlarge
  have hnonneg : (0 : ℚ) ≤ (n : ℚ) / 100 := by positivity
  have hlt := @lt_toDouble_of_large ((n : ℚ) / 100) a (by rwa [abs_of_nonneg hnonneg])
    (not_le.mp hlarge)
  rw [hn.getBalanceAsNumber, hlt] at hfunds
  exact Bool.noConfusion hfunds

/-- Of a database of few paise, a covered payment of whole paise is made exactly. -/
theorem transfersPaise_transferWith (htotals : db.Totals k) (hk : (k : ℚ) / 100 ≤ 2 ^ 35)
    (hsender : db.accounts.get sender.vpa = some sender)
    (hreceiver : db.accounts.get receiver.vpa = some receiver) (hne : sender.vpa ≠ receiver.vpa)
    (hread : instruction.amount.parseFloatWith platform.arithmetic platform = .ok amount)
    (hnumber : amount.isNaN = false) (hpositive : amount.le (.fin 0) = false)
    (hfunds : (sender.getBalanceAsNumberWith platform.arithmetic).lt amount = false) :
    TransfersPaise platform db ((db.transferWith platform.arithmetic sender receiver
      amount).insertRow row) instruction sender.vpa receiver.vpa := by
  intro a hexact hwhole
  have hsmall := htotals.small (hk.trans (by norm_num))
  have hpayer := hsmall sender (KeyedMap.mem_of_get hsender)
  have hpayee := hsmall receiver (KeyedMap.mem_of_get hreceiver)
  obtain rfl : (Number.fin a).toDouble = amount := by
    rw [parseFloatWith_arithmetic, hexact] at hread
    exact Except.ok.inj hread
  have hpos := pos_of_toDouble hpositive
  obtain ⟨n, hn, hnk⟩ := htotals.exists_holds (KeyedMap.mem_of_get hsender)
  have hcast : (n : ℚ) ≤ k := by exact_mod_cast hnk
  have hamount : (Number.fin a).SmallHundredths :=
    smallHundredths_of_covered hn (by linarith) hwhole hpos hfunds
  have hguard : ((Number.fin a).isNaN || (Number.fin a).le (.fin 0)) = false := by
    rw [Number.le_fin, decide_eq_false hpos.not_ge]
    rfl
  have hcovered : sender.getBalanceAsNumber.lt (.fin a) = false :=
    (lt_toDouble hpayer.balance_small hamount).symm.trans hfunds
  obtain ⟨a', ha', hpayment⟩ :=
    htotals.sound.exists_coveredPayment hsender hreceiver hne rfl (by simpa using hpos) hcovered
  obtain rfl := Number.fin.inj ha'
  rw [transferWith_arithmetic hpayer hpayee hamount hguard hcovered]
  exact (hpayment.roundedPayment htotals.sound).eq_apply htotals.sound hne hwhole hpos.le
    hpayment.covered

end

/-- **A payable packet is paid unless its hash is claimed.** In every state that the server
with its rounding reaches, whatever was delivered before, take a payable packet whose hash
has no row. If its hash is not in the idempotency cache, it is settled, and whole paise are
transferred as they were sent, in the first `2 ^ 40` events at least; if it is, the packet is
dropped as a duplicate and nothing changes. -/
theorem payable_delivery (backend : Backend) (events : List Event) (packet : MeshPacket)
    (bridgeNodeId : String) (hopCount : Number) (clock : Clock) (instruction : PaymentInstruction)
    (sender receiver : Account) (amount : Number) (signedAt : ℤ) (server : Server)
    (hserver : server = (backend.machineWith backend.platform.arithmetic).final seeded events)
    (h : PayableWith backend.platform.arithmetic backend server packet clock.checked instruction
      sender receiver amount signedAt)
    (hunrecorded : ∀ row ∈ server.db.rows, row.packetHash ≠ backend.hashOf packet) :
    (server.seen.has (backend.hashOf packet) = false →
      SettledDelivery backend server packet clock
        (backend.ingestWith backend.platform.arithmetic server packet bridgeNodeId hopCount clock).1
        (backend.ingestWith backend.platform.arithmetic server packet bridgeNodeId hopCount
          clock).2 ∧
      (events.length ≤ 2 ^ 40 → TransfersPaise backend.platform server.db
        (backend.ingestWith backend.platform.arithmetic server packet bridgeNodeId hopCount
          clock).2.db instruction sender.vpa receiver.vpa)) ∧
    (server.seen.has (backend.hashOf packet) = true →
      backend.ingestWith backend.platform.arithmetic server packet bridgeNodeId hopCount clock =
        (.duplicate (backend.hashOf packet), server)) := by
  have hindexed : server.db.Indexed := by
    rw [hserver]
    exact indexed_finalWith backend.platform.arithmetic backend events
  constructor
  · intro hnew
    have hunindexed := hindexed.has_eq_false hunrecorded
    refine ⟨h.settledDelivery hunindexed hnew, fun hlength => ?_⟩
    rw [h.ingestWith_eq hunindexed hnew rfl]
    obtain ⟨k, hle, htotals⟩ := totals_finalWith backend hlength
    rw [← hserver] at htotals
    refine transfersPaise_transferWith htotals ?_ (get_of_accountOf h.sender_known)
      (get_of_accountOf h.receiver_known) h.different h.amount_read h.amount_isNumber
      h.amount_positive h.covered
    have hcast : (k : ℚ) ≤ (900000 + 2 ^ 40 : ℕ) := by
      exact_mod_cast hle.trans (Nat.add_le_add_left hlength 900000)
    refine (div_le_div_of_nonneg_right hcast (by norm_num)).trans ?_
    norm_num
  · intro hseen
    exact Backend.ingestWith_of_seen hseen

/-- A payable packet that is dropped: delivered 400 seconds before the instant at
which it was signed, it was refused as future-dated; at that instant it is
payable and its hash is still claimed. -/
theorem payable_delivery_burnt :
    PayableWith utcPlatform.arithmetic (backendPaying (.num (.fin 500)) (.num (.fin 400000)))
        (((backendPaying (.num (.fin 500)) (.num (.fin 400000))).machineWith
          utcPlatform.arithmetic).final seeded [deliver "c1" 0]) (packetOf "c1") 400000
        (alicePaysBob (.num (.fin 500)) (.num (.fin 400000))) ⟨"alice@demo", "Alice", "5000.00", 0⟩
        ⟨"bob@demo", "Bob", "1000.00", 0⟩ (.fin 500) 400000 ∧
      (((backendPaying (.num (.fin 500)) (.num (.fin 400000))).machineWith
        utcPlatform.arithmetic).final seeded [deliver "c1" 0]).db.rows.length = 0 ∧
      (Backend.ingestWith utcPlatform.arithmetic
        (backendPaying (.num (.fin 500)) (.num (.fin 400000)))
        (((backendPaying (.num (.fin 500)) (.num (.fin 400000))).machineWith
          utcPlatform.arithmetic).final seeded [deliver "c1" 0]) (packetOf "c1") "bridge-1"
        (.fin 2) ⟨400000, 400000, 400000⟩).1.outcome = .duplicateDropped := by
  refine ⟨⟨⟨decrypt_backendPaying _ _, by decide +kernel⟩, by decide +kernel, by decide +kernel,
    by decide, by decide +kernel, rfl, by decide +kernel, by decide +kernel, by decide +kernel⟩,
    by decide +kernel, by decide +kernel⟩

/-- The first delivery of a payment of `0.1`, which is no double, that was signed in time. -/
theorem payable_delivery_tenth_rupee :
    SettledDelivery (backendPaying (.str "0.1") (.num (.fin 1000))) seeded (packetOf "c1")
        ⟨2000, 2000, 2000⟩
        (Backend.ingestWith utcPlatform.arithmetic (backendPaying (.str "0.1") (.num (.fin 1000)))
          seeded (packetOf "c1") "bridge-1" (.fin 2) ⟨2000, 2000, 2000⟩).1
        (Backend.ingestWith utcPlatform.arithmetic (backendPaying (.str "0.1") (.num (.fin 1000)))
          seeded (packetOf "c1") "bridge-1" (.fin 2) ⟨2000, 2000, 2000⟩).2 ∧
      (Backend.ingestWith utcPlatform.arithmetic (backendPaying (.str "0.1") (.num (.fin 1000)))
        seeded (packetOf "c1") "bridge-1" (.fin 2) ⟨2000, 2000, 2000⟩).2.db.balance "bob@demo" =
          10001 / 10 := by
  have hpayable : PayableWith utcPlatform.arithmetic
      (backendPaying (.str "0.1") (.num (.fin 1000))) seeded (packetOf "c1") 2000
      (alicePaysBob (.str "0.1") (.num (.fin 1000))) ⟨"alice@demo", "Alice", "5000.00", 0⟩
      ⟨"bob@demo", "Bob", "1000.00", 0⟩ (Number.fin (1 / 10)).toDouble 1000 :=
    ⟨⟨decrypt_backendPaying _ _, by decide +kernel⟩, by decide +kernel, by decide +kernel,
      by decide, by decide +kernel, by decide +kernel, by decide +kernel, by decide +kernel,
      by decide +kernel⟩
  have hdelivery := (payable_delivery (backendPaying (.str "0.1") (.num (.fin 1000))) []
    (packetOf "c1") "bridge-1" (.fin 2) ⟨2000, 2000, 2000⟩ _ _ _ _ _ seeded rfl hpayable (by
      intro row hrow
      rw [seeded, rows_seededDb] at hrow
      simp at hrow)).1 rfl
  refine ⟨hdelivery.1, ?_⟩
  have hread : (alicePaysBob (.str "0.1") (.num (.fin 1000))).amount.parseFloat utcPlatform =
      .ok (.fin (1 / 10)) := by decide +kernel
  have hbefore : seeded.db.balance "bob@demo" = 1000 := by decide +kernel
  refine (congrFun (hdelivery.2 (by decide) _ hread ⟨10, by norm_num⟩) "bob@demo").trans ?_
  rw [Transfers.Payment.apply, hbefore, if_neg (by decide), if_pos rfl]
  norm_num

end UpiOfflineMesh
