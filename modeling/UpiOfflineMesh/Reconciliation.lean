import UpiOfflineMesh.Accounting

/-!
# The ledger reconciles with the accounts

As long as senders write whole hundredths, a settlement is an exact payment and
its row carries the amount. So balances and versions can be recomputed from the
seeded accounts and the settled rows alone.
-/

namespace UpiOfflineMesh

open Js InMemoryDb

/-- The amount of a row in rupees. -/
def Transaction.rupees (row : Transaction) : ℚ := (parseFloat row.amount).toRat

namespace InMemoryDb

/-- What the settled rows say the address has sent. -/
def sent (db : InMemoryDb) (vpa : String) : ℚ :=
  ((db.rows.filter fun row => row.status = .settled && row.sentBy vpa).map Transaction.rupees).sum

/-- What the settled rows say the address has received. -/
def received (db : InMemoryDb) (vpa : String) : ℚ :=
  ((db.rows.filter fun row => row.status = .settled && row.receivedBy vpa).map
    Transaction.rupees).sum

/-- The number of settled rows that name the address. -/
def settlements (db : InMemoryDb) (vpa : String) : ℕ :=
  db.rows.countP fun row => row.status = .settled && (row.sentBy vpa || row.receivedBy vpa)

/-- Balances and versions are what the seeded accounts and the settled rows give. -/
structure Reconciled (db : InMemoryDb) : Prop where
  sound : db.Sound
  balance : ∀ vpa, db.balance vpa = seededDb.balance vpa - db.sent vpa + db.received vpa
  version : ∀ account ∈ db.accounts.values, account.version = db.settlements account.vpa

section

variable {db : InMemoryDb} {row : Transaction} {vpa : String}

theorem sent_insertRow_of_rejected (h : row.status = .rejected) :
    (db.insertRow row).sent vpa = db.sent vpa := by
  simp [sent, h]

theorem received_insertRow_of_rejected (h : row.status = .rejected) :
    (db.insertRow row).received vpa = db.received vpa := by
  simp [received, h]

theorem settlements_insertRow_of_rejected (h : row.status = .rejected) :
    (db.insertRow row).settlements vpa = db.settlements vpa := by
  simp [settlements, h]

theorem sent_insertRow_of_settled (h : row.status = .settled) :
    (db.insertRow row).sent vpa = db.sent vpa + if row.sentBy vpa then row.rupees else 0 := by
  cases hsent : row.sentBy vpa with
  | true => simp [sent, h, hsent]
  | false => simp [sent, h, hsent]

theorem received_insertRow_of_settled (h : row.status = .settled) :
    (db.insertRow row).received vpa =
      db.received vpa + if row.receivedBy vpa then row.rupees else 0 := by
  cases hreceived : row.receivedBy vpa with
  | true => simp [received, h, hreceived]
  | false => simp [received, h, hreceived]

theorem settlements_insertRow_of_settled (h : row.status = .settled) :
    (db.insertRow row).settlements vpa =
      db.settlements vpa + if row.sentBy vpa || row.receivedBy vpa then 1 else 0 := by
  simp [settlements, h, List.countP_append, List.countP_singleton]

/-- A rejection moves nothing. -/
theorem Reconciled.insertRow_of_rejected (h : db.Reconciled) (hstatus : row.status = .rejected) :
    (db.insertRow row).Reconciled := by
  refine ⟨h.sound, fun vpa => ?_, fun account haccount => ?_⟩
  · rw [sent_insertRow_of_rejected hstatus, received_insertRow_of_rejected hstatus]
    exact h.balance vpa
  · rw [settlements_insertRow_of_rejected hstatus]
    exact h.version account haccount

end

section

variable {db : InMemoryDb} {sender receiver : Account} {a : ℚ} {row : Transaction}

/-- The versions of the two accounts go up by one, all others stay. -/
theorem version_transfer (hpayment : CoveredPayment db sender receiver a) {f : String → ℕ}
    (h : ∀ account ∈ db.accounts.values, account.version = f account.vpa) :
    ∀ account ∈ (db.transfer sender receiver (.fin a)).accounts.values, account.version =
      f account.vpa + if sender.vpa = account.vpa ∨ receiver.vpa = account.vpa then 1 else 0 := by
  intro account haccount
  rw [accounts_transfer, KeyedMap.mem_values_set, KeyedMap.mem_values_set] at haccount
  rcases haccount with rfl | ⟨rfl | ⟨hold, hne⟩, hne'⟩
  · simp [h receiver (KeyedMap.mem_of_get hpayment.receiver_get)]
  · simp [h sender (KeyedMap.mem_of_get hpayment.sender_get)]
  · rw [h account hold, if_neg, add_zero]
    rintro (heq | heq)
    · exact hne heq.symm
    · exact hne' heq.symm

/-- A settlement of whole hundredths and its row keep the books reconciled. -/
theorem Reconciled.transfer (h : db.Reconciled) (hpayment : CoveredPayment db sender receiver a)
    (hwhole : Number.IsHundredths a) (hstatus : row.status = .settled)
    (hsent : row.senderVpa = .str sender.vpa) (hreceived : row.receiverVpa = .str receiver.vpa)
    (hamount : row.amount = (Number.fin a).toFixed2) :
    ((db.transfer sender receiver (.fin a)).insertRow row).Reconciled := by
  have hpos := hpayment.positive
  have hrupees : row.rupees = a := by
    rw [Transaction.rupees, hamount, parseFloat_toFixed2 hpos.le, Number.toRat_fin,
      hwhole.roundHundredths_div hpos.le]
  have hsentBy : ∀ vpa, row.sentBy vpa = true ↔ sender.vpa = vpa := by
    intro vpa
    simp [Transaction.sentBy, hsent]
  have hreceivedBy : ∀ vpa, row.receivedBy vpa = true ↔ receiver.vpa = vpa := by
    intro vpa
    simp [Transaction.receivedBy, hreceived]
  refine ⟨hpayment.sound_transfer h.sound, fun vpa => ?_, fun account haccount => ?_⟩
  · have hmoved := congrFun ((hpayment.roundedPayment h.sound).eq_apply h.sound hpayment.different
      hwhole hpos.le hpayment.covered) vpa
    rw [Transfers.Payment.apply, h.balance vpa] at hmoved
    rw [sent_insertRow_of_settled hstatus, received_insertRow_of_settled hstatus,
      balance_insertRow, hmoved, hrupees]
    simp only [hsentBy, hreceivedBy]
    change _ = seededDb.balance vpa - (db.sent vpa + _) + (db.received vpa + _)
    ring
  · have hversion := version_transfer hpayment h.version account haccount
    rw [settlements_insertRow_of_settled hstatus, hversion]
    simp only [Bool.or_eq_true, hsentBy, hreceivedBy]
    rfl

end

end InMemoryDb

/-! ### Every run on whole hundredths -/

/-- Every finite amount that the event delivers is a whole number of hundredths. -/
def Event.InHundredths (backend : Backend) (event : Event) : Prop :=
  ∀ q, event.ReadsAmount backend (.fin q) → Number.IsHundredths q

theorem reconciled_next {backend : Backend} {server : Server} {event : Event}
    (hevent : event.InHundredths backend) (h : server.db.Reconciled) :
    (backend.machine.next server event).db.Reconciled := by
  have heffect := @db_effect backend server event
  generalize (backend.machine.next server event).db = db at heffect
  cases heffect with
  | unchanged => exact h
  | rejected row hhash hfresh hstatus => exact h.insertRow_of_rejected hstatus
  | settled row hhash hfresh hstatus hid sender receiver amount hsender hreceiver hne hsent
      hreceived hamount hisNumber hpositive hfunds hread =>
    obtain ⟨a, rfl, hpayment⟩ :=
      h.sound.exists_coveredPayment hsender hreceiver hne hisNumber hpositive hfunds
    exact h.transfer hpayment (hevent a hread) hstatus hsent hreceived hamount

theorem reconciled_seededDb : seededDb.Reconciled := by
  refine ⟨sound_seededDb, fun vpa => ?_, fun account haccount => ?_⟩
  · simp [sent, received, rows_seededDb]
  · have hversion : ∀ account ∈ seededDb.accounts.values, account.version = 0 := by
      rw [seededDb_eq.2]
      decide
    rw [hversion account haccount, settlements, rows_seededDb]
    rfl

/-- **The ledger reconciles with the accounts.** After any run whose delivered
amounts are whole hundredths, every balance is the seeded one less the settled
rows sent and plus the settled rows received, and every version counts the
settled rows that name the account. -/
theorem ledger_reconciles (backend : Backend) (events : List Event)
    (hwhole : ∀ event ∈ events, event.InHundredths backend) :
    ∀ account ∈ (backend.machine.final seeded events).db.accounts.values,
      account.getBalanceAsNumber = .fin (seededDb.balance account.vpa -
          (backend.machine.final seeded events).db.sent account.vpa +
            (backend.machine.final seeded events).db.received account.vpa) ∧
        account.version = (backend.machine.final seeded events).db.settlements account.vpa := by
  have hstep : ∀ (server : Server) (event : Event), event.InHundredths backend →
      server.db.Reconciled → (backend.machine.next server event).db.Reconciled :=
    fun server event => reconciled_next
  have hfinal : (backend.machine.final seeded events).db.Reconciled :=
    @Machine.invariant _ _ _ backend.machine (Event.InHundredths backend)
      (fun server => server.db.Reconciled) hstep seeded reconciled_seededDb events hwhole
  intro account haccount
  refine ⟨?_, hfinal.version account haccount⟩
  obtain ⟨n, hn⟩ := hfinal.sound account haccount
  rw [← hfinal.balance, balance_of_get (KeyedMap.get_key_of_mem _ haccount) hn,
    hn.getBalanceAsNumber]

/-- Alice's payment of 500 is one of whole hundredths. -/
theorem inHundredths_deliver (now : ℤ) :
    (deliver "c1" now).InHundredths (backendPaying (.num (.fin 500)) (.num (.fin 1000))) := by
  rintro q ⟨instruction, hdecrypt, hamount⟩
  obtain rfl := Except.ok.inj (hdecrypt.symm.trans (decrypt_backendPaying _ _))
  have hread : (alicePaysBob (.num (.fin 500)) (.num (.fin 1000))).amount.parseFloat
      utcPlatform = .ok (.fin 500) := by decide +kernel
  obtain rfl := Number.fin.inj (Except.ok.inj (hamount.symm.trans hread))
  exact ⟨50000, by norm_num⟩

/-- Alice's account after her payment of 500 was delivered twice. -/
theorem ledger_reconciles_twice_delivered :
    (⟨"alice@demo", "Alice", "4500.00", 1⟩ : Account).getBalanceAsNumber =
        .fin (seededDb.balance "alice@demo" -
          ((backendPaying (.num (.fin 500)) (.num (.fin 1000))).machine.final seeded
            [deliver "c1" 2000, deliver "c1" 3000]).db.sent "alice@demo" +
          ((backendPaying (.num (.fin 500)) (.num (.fin 1000))).machine.final seeded
            [deliver "c1" 2000, deliver "c1" 3000]).db.received "alice@demo") ∧
      1 = ((backendPaying (.num (.fin 500)) (.num (.fin 1000))).machine.final seeded
        [deliver "c1" 2000, deliver "c1" 3000]).db.settlements "alice@demo" := by
  refine ledger_reconciles (backendPaying (.num (.fin 500)) (.num (.fin 1000)))
    [deliver "c1" 2000, deliver "c1" 3000] ?_ ⟨"alice@demo", "Alice", "4500.00", 1⟩
    (by decide +kernel)
  intro event hevent
  simp only [List.mem_cons, List.not_mem_nil, or_false] at hevent
  rcases hevent with rfl | rfl
  · exact inHundredths_deliver 2000
  · exact inHundredths_deliver 3000

end UpiOfflineMesh
