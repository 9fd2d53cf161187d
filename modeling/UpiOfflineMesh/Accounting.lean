import UpiOfflineMesh.Server
import UpiOfflineMesh.Transfers

/-!
# Balances in hundredths

Every balance the server ever stores is the text of a whole, nonnegative number
of paise, whatever amounts the senders write. A settlement moves a positive
finite amount that the sender's balance covers; what is stored afterwards is
that exact difference and sum, each rounded to hundredths on its own. On whole
hundredths nothing is rounded, and the database does what `Transfers` says.
-/

namespace UpiOfflineMesh

open Js InMemoryDb

/-- The stored balance is the two-decimal text of `n` paise. -/
def Account.Holds (account : Account) (n : ℕ) : Prop := account.balance = Number.fixedText n

instance (account : Account) (n : ℕ) : Decidable (account.Holds n) :=
  inferInstanceAs (Decidable (account.balance = Number.fixedText n))

/-- Every stored balance is a finite number with two decimals, not below zero. -/
def InMemoryDb.Sound (db : InMemoryDb) : Prop :=
  ∀ account ∈ db.accounts.values, ∃ n, account.Holds n

/-- The balance of an address in rupees; zero when it is not registered. -/
def InMemoryDb.balance (db : InMemoryDb) (vpa : String) : ℚ :=
  ((db.accounts.get vpa).map fun account => account.getBalanceAsNumber.toRat).getD 0

/-- Address and holder of every account, in the order of registration. -/
def InMemoryDb.holders (db : InMemoryDb) : List (String × String) :=
  db.accounts.values.map fun account => (account.vpa, account.holderName)

theorem Account.Holds.getBalanceAsNumber {account : Account} {n : ℕ} (h : account.Holds n) :
    account.getBalanceAsNumber = .fin ((n : ℚ) / 100) := by
  rw [Account.getBalanceAsNumber, Account.getBalanceAsNumberWith, h]
  exact parseFloat_fixedText n

theorem InMemoryDb.balance_of_get {db : InMemoryDb} {account : Account} {n : ℕ}
    (hget : db.accounts.get account.vpa = some account) (h : account.Holds n) :
    db.balance account.vpa = (n : ℚ) / 100 := by
  rw [InMemoryDb.balance, hget, Option.map_some, Option.getD_some, h.getBalanceAsNumber,
    Number.toRat_fin]

/-- Every balance of a sound register is a whole number of paise. -/
theorem InMemoryDb.Sound.exists_balance {db : InMemoryDb} (h : db.Sound) (vpa : String) :
    ∃ n : ℕ, db.balance vpa = (n : ℚ) / 100 := by
  cases hget : db.accounts.get vpa with
  | none => exact ⟨0, by simp [InMemoryDb.balance, hget]⟩
  | some account =>
    obtain rfl : account.vpa = vpa := KeyedMap.key_of_get hget
    obtain ⟨n, hn⟩ := h account (KeyedMap.mem_of_get hget)
    exact ⟨n, balance_of_get hget hn⟩

/-- Registers with the same holders know the same addresses. -/
theorem has_eq_of_holders_eq {db db' : InMemoryDb} (h : db.holders = db'.holders) (vpa : String) :
    db.accounts.has vpa = db'.accounts.has vpa := by
  have hany := congrArg (fun holders => holders.any (fun holder => holder.1 = vpa)) h
  simpa [InMemoryDb.holders, KeyedMap.has, List.any_map, Function.comp_def] using hany

@[simp] theorem balance_insertRow (db : InMemoryDb) (row : Transaction) (vpa : String) :
    (db.insertRow row).balance vpa = db.balance vpa := rfl

/-! ### One settlement -/

section

variable {account : Account} {n : ℕ} {a : ℚ}

/-- A sender keeps the difference, rounded. -/
theorem Account.Holds.debited (h : account.Holds n) (ha : a ≤ (n : ℚ) / 100) :
    (account.debited (.fin a)).Holds (Number.roundHundredths ((n : ℚ) / 100 - a)) := by
  rw [Account.Holds, Account.debited_balance, h.getBalanceAsNumber, Number.sub_fin]
  exact Number.toFixed2_of_nonneg (by linarith)

/-- A receiver gets the sum, rounded. -/
theorem Account.Holds.credited (h : account.Holds n) (ha : 0 ≤ a) :
    (account.credited (.fin a)).Holds (Number.roundHundredths ((n : ℚ) / 100 + a)) := by
  rw [Account.Holds, Account.credited_balance, h.getBalanceAsNumber, Number.add_fin]
  exact Number.toFixed2_of_nonneg (by positivity)

end

/-- What the guards of `settle` let through: a positive amount that the sender's
balance covers, between two different registered accounts. -/
structure CoveredPayment (db : InMemoryDb) (sender receiver : Account) (a : ℚ) : Prop where
  sender_get : db.accounts.get sender.vpa = some sender
  receiver_get : db.accounts.get receiver.vpa = some receiver
  different : sender.vpa ≠ receiver.vpa
  positive : 0 < a
  covered : a ≤ db.balance sender.vpa

/-- What a payment does to balances that are kept with two decimals: each side is
rounded on its own, and no other balance changes. -/
structure RoundedPayment (before after : String → ℚ) (sender receiver : String) (a : ℚ) : Prop where
  sender_eq : after sender = (Number.roundHundredths (before sender - a) : ℚ) / 100
  receiver_eq : after receiver = (Number.roundHundredths (before receiver + a) : ℚ) / 100
  other_eq : ∀ vpa, vpa ≠ sender → vpa ≠ receiver → after vpa = before vpa

section

variable {db : InMemoryDb} {sender receiver : Account} {a : ℚ}

/-- On sound balances the amount that passes the guards is finite and covered. -/
theorem InMemoryDb.Sound.exists_coveredPayment {amount : Number} (hsound : db.Sound)
    (hsender : db.accounts.get sender.vpa = some sender)
    (hreceiver : db.accounts.get receiver.vpa = some receiver) (hne : sender.vpa ≠ receiver.vpa)
    (hisNumber : amount.isNaN = false) (hpositive : amount.le (.fin 0) = false)
    (hfunds : sender.getBalanceAsNumber.lt amount = false) :
    ∃ a : ℚ, amount = .fin a ∧ CoveredPayment db sender receiver a := by
  obtain ⟨n, hn⟩ := hsound sender (KeyedMap.mem_of_get hsender)
  rw [hn.getBalanceAsNumber] at hfunds
  obtain ⟨a, rfl, hpos, hcovered⟩ := Number.exists_fin_of_guards hisNumber hpositive hfunds
  exact ⟨a, rfl, hsender, hreceiver, hne, hpos, by rwa [balance_of_get hsender hn]⟩

/-- Looking up any address after both balances were written. -/
theorem get_transfer (vpa : String) (amount : Number) :
    (db.transfer sender receiver amount).accounts.get vpa =
      if receiver.vpa = vpa then some (receiver.credited amount)
      else if sender.vpa = vpa then some (sender.debited amount)
      else db.accounts.get vpa :=
  db.get_transferWith .exact sender receiver amount vpa

namespace CoveredPayment

/-- What the two accounts of a covered payment hold. -/
theorem exists_holds (h : CoveredPayment db sender receiver a) (hsound : db.Sound) :
    ∃ n m, sender.Holds n ∧ receiver.Holds m ∧ a ≤ (n : ℚ) / 100 := by
  obtain ⟨n, hn⟩ := hsound sender (KeyedMap.mem_of_get h.sender_get)
  obtain ⟨m, hm⟩ := hsound receiver (KeyedMap.mem_of_get h.receiver_get)
  refine ⟨n, m, hn, hm, ?_⟩
  rw [← balance_of_get h.sender_get hn]
  exact h.covered

/-- A settlement keeps all balances sound. -/
theorem sound_transfer (h : CoveredPayment db sender receiver a) (hsound : db.Sound) :
    (db.transfer sender receiver (.fin a)).Sound := by
  obtain ⟨n, m, hn, hm, hcovered⟩ := h.exists_holds hsound
  intro account haccount
  rw [accounts_transfer, KeyedMap.mem_values_set, KeyedMap.mem_values_set] at haccount
  rcases haccount with rfl | ⟨rfl | ⟨hold, _⟩, _⟩
  · exact ⟨_, hm.credited h.positive.le⟩
  · exact ⟨_, hn.debited hcovered⟩
  · exact hsound account hold

/-- The receiver's copy is still current after the sender was saved. -/
theorem get_receiver_debited (h : CoveredPayment db sender receiver a) :
    (db.accounts.set (sender.debited (.fin a))).get (receiver.credited (.fin a)).vpa =
      some receiver := by
  rw [KeyedMap.get_set_of_ne (v := sender.debited (.fin a)) _ h.different]
  exact h.receiver_get

/-- A settlement changes neither addresses nor holders. -/
theorem holders_transfer (h : CoveredPayment db sender receiver a) :
    (db.transfer sender receiver (.fin a)).holders = db.holders := by
  rw [holders, holders, accounts_transfer, KeyedMap.map_values_set_of_get
    (fun account => (account.vpa, account.holderName)) h.get_receiver_debited rfl]
  exact KeyedMap.map_values_set_of_get (v := sender.debited (.fin a))
    (fun account => (account.vpa, account.holderName)) h.sender_get rfl

/-- **The code pays with rounding:** writing both accounts of a covered payment
moves the balances as a rounded payment. -/
theorem roundedPayment (h : CoveredPayment db sender receiver a) (hsound : db.Sound) :
    RoundedPayment db.balance (db.transfer sender receiver (.fin a)).balance sender.vpa receiver.vpa
      a := by
  obtain ⟨n, m, hn, hm, hcovered⟩ := h.exists_holds hsound
  constructor
  · have hget : (db.transfer sender receiver (.fin a)).accounts.get sender.vpa =
        some (sender.debited (.fin a)) := by
      rw [get_transfer, if_neg h.different.symm, if_pos rfl]
    rw [balance_of_get h.sender_get hn]
    exact @balance_of_get _ (sender.debited (.fin a)) _ hget (hn.debited hcovered)
  · have hget : (db.transfer sender receiver (.fin a)).accounts.get receiver.vpa =
        some (receiver.credited (.fin a)) := by
      rw [get_transfer, if_pos rfl]
    rw [balance_of_get h.receiver_get hm]
    exact @balance_of_get _ (receiver.credited (.fin a)) _ hget (hm.credited h.positive.le)
  · intro vpa hsender hreceiver
    rw [InMemoryDb.balance, get_transfer, if_neg hreceiver.symm, if_neg hsender.symm]
    rfl

end CoveredPayment

end

/-- **Refinement:** on whole hundredths a rounded payment is the abstract one. -/
theorem RoundedPayment.eq_apply {db : InMemoryDb} {after : String → ℚ} {sender receiver : String}
    {a : ℚ} (h : RoundedPayment db.balance after sender receiver a) (hsound : db.Sound)
    (hne : sender ≠ receiver) (hwhole : Number.IsHundredths a) (hnonneg : 0 ≤ a)
    (hcovered : a ≤ db.balance sender) :
    after = Transfers.Payment.apply ⟨sender, receiver, a⟩ db.balance := by
  obtain ⟨n, hn⟩ := hsound.exists_balance sender
  obtain ⟨m, hm⟩ := hsound.exists_balance receiver
  have hn' := Number.isHundredths_natCast_div n
  have hm' := Number.isHundredths_natCast_div m
  funext vpa
  rw [Transfers.Payment.apply]
  by_cases hvpa : sender = vpa
  · subst hvpa
    rw [h.sender_eq, if_pos rfl, if_neg hne.symm, add_zero, hn,
      (hn'.sub hwhole).roundHundredths_div (by linarith)]
  by_cases hvpa' : receiver = vpa
  · subst hvpa'
    rw [h.receiver_eq, if_neg hvpa, if_pos rfl, sub_zero, hm,
      (hm'.add hwhole).roundHundredths_div (by positivity)]
  · rw [h.other_eq vpa (Ne.symm hvpa) (Ne.symm hvpa'), if_neg hvpa, if_neg hvpa', sub_zero,
      add_zero]

/-! ### Every reachable state -/

/-- One event keeps sound balances sound and the register of accounts unchanged. -/
theorem sound_next {backend : Backend} {server : Server} (h : server.db.Sound) (event : Event) :
    (backend.machine.next server event).db.Sound ∧
      (backend.machine.next server event).db.holders = server.db.holders := by
  have heffect := @db_effect backend server event
  generalize (backend.machine.next server event).db = db at heffect
  cases heffect with
  | unchanged => exact ⟨h, rfl⟩
  | rejected => exact ⟨h, rfl⟩
  | settled row hhash hfresh hstatus hid sender receiver amount hsender hreceiver hne hsent
      hreceived hamount hisNumber hpositive hfunds hread =>
    obtain ⟨a, rfl, hpayment⟩ :=
      h.exists_coveredPayment hsender hreceiver hne hisNumber hpositive hfunds
    exact ⟨hpayment.sound_transfer h, hpayment.holders_transfer⟩

theorem sound_seededDb : seededDb.Sound := by
  intro account haccount
  rw [seededDb_eq.2] at haccount
  simp only [List.mem_cons, List.not_mem_nil, or_false] at haccount
  rcases haccount with rfl | rfl | rfl | rfl
  · exact ⟨500000, by decide +kernel⟩
  · exact ⟨100000, by decide +kernel⟩
  · exact ⟨250000, by decide +kernel⟩
  · exact ⟨50000, by decide +kernel⟩

/-- Sound balances and the seeded register, in every state of every run. -/
theorem sound_final (backend : Backend) (events : List Event) :
    (backend.machine.final seeded events).db.Sound ∧
      (backend.machine.final seeded events).db.holders = seededDb.holders := by
  have hstep : ∀ (server : Server) (event : Event),
      (server.db.Sound ∧ server.db.holders = seededDb.holders) →
        (backend.machine.next server event).db.Sound ∧
          (backend.machine.next server event).db.holders = seededDb.holders := by
    rintro server event ⟨hsound, hholders⟩
    obtain ⟨hsound', hholders'⟩ := @sound_next backend server hsound event
    exact ⟨hsound', hholders'.trans hholders⟩
  exact Machine.invariant_all hstep ⟨sound_seededDb, rfl⟩ events

/-- **No overdraft.** After any run of the server, with any instructions
delivered, every stored balance is a finite two-decimal number at or above zero,
and the registered addresses and holders are those of the start. -/
theorem no_overdraft (backend : Backend) (events : List Event) :
    (∀ account ∈ (backend.machine.final seeded events).db.accounts.values, ∃ n : ℕ,
      account.balance = Number.fixedText n ∧
        account.getBalanceAsNumber = .fin ((n : ℚ) / 100) ∧ (0 : ℚ) ≤ (n : ℚ) / 100) ∧
    (backend.machine.final seeded events).db.holders = seededDb.holders := by
  obtain ⟨hsound, hholders⟩ := sound_final backend events
  refine ⟨fun account haccount => ?_, hholders⟩
  obtain ⟨n, hn⟩ := hsound account haccount
  exact ⟨n, hn, hn.getBalanceAsNumber, by positivity⟩

end UpiOfflineMesh
