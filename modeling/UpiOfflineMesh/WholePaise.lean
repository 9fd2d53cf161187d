import UpiOfflineMesh.RoundedServer
import UpiOfflineMesh.SettledOutcome

/-!
# Whole paise in binary64

Balances and rows are stored as texts of two decimals, so what the server calculates in
between may be off by a little. On amounts of whole paise and instants of whole
milliseconds it is never off by enough: comparisons come out as without rounding, and every
text that is written is the exact one. What is proved without rounding about such runs is
therefore true of the server that rounds.
-/

namespace UpiOfflineMesh

open Js InMemoryDb

/-! ### What is read -/

section

variable {platform : Platform} {v : Value}

/-- Reading a number and rounding it is all that `parseFloat` does. -/
theorem parseFloatWith_arithmetic :
    v.parseFloatWith platform.arithmetic platform =
      (v.parseFloat platform).map Number.toDouble := by
  rw [Value.parseFloat, Value.parseFloatWith, Value.parseFloatWith]
  cases v.toText platform with
  | error err => rfl
  | ok text => rfl

theorem toNumberWith_arithmetic
    (h : ∀ x, v.toNumber platform = .ok x → x.SmallInstant) :
    v.toNumberWith platform.arithmetic platform = v.toNumber platform := by
  have hcomposite : ∀ {text : Except Error String},
      (∀ x, (do return numberOfText (← text) : Except Error Number) = .ok x → x.SmallInstant) →
      (do return (numberOfText (← text)).toDouble : Except Error Number) =
        do return numberOfText (← text) := by
    intro text hsmall
    cases text with
    | error err => rfl
    | ok text => exact congrArg Except.ok (hsmall _ rfl).toDouble_eq
  cases v with
  | str s => exact congrArg Except.ok (h _ rfl).toDouble_eq
  | arr items => exact hcomposite h
  | obj fields => exact hcomposite h
  | _ => rfl

end

/-! ### The freshness check -/

/-- Windows of whole seconds. -/
structure Backend.WholeSeconds (backend : Backend) : Prop where
  maxAge : ∃ m : ℤ, backend.maxAgeSeconds = m
  tolerance : ∃ m : ℤ, backend.clockSkewTolerance = m

/-- The age of a payment is compared with the windows as without rounding. -/
theorem freshnessWith_arithmetic {backend : Backend} (hseconds : backend.WholeSeconds) {now : ℤ}
    (hnow : |now| ≤ 2 ^ 51) {instruction : PaymentInstruction}
    (h : ∀ x, instruction.signedAt.toNumber backend.platform = .ok x → x.SmallInstant) :
    backend.freshnessWith backend.platform.arithmetic now instruction =
      backend.freshness now instruction := by
  obtain ⟨maxAge, hmaxAge⟩ := hseconds.maxAge
  obtain ⟨tolerance, htolerance⟩ := hseconds.tolerance
  rw [Backend.freshness_eq, Backend.freshnessWith, toNumberWith_arithmetic h]
  cases hread : instruction.signedAt.toNumber backend.platform with
  | error err => rfl
  | ok signedAt =>
  cases signedAt with
  | fin t =>
    obtain ⟨k, rfl, hk⟩ := h _ hread t rfl
    have hdifference : |now - k| ≤ 2 ^ 52 := by
      rw [abs_le] at hnow hk ⊢
      omega
    have hage : (((Number.fin (now : ℚ)).sub (.fin (k : ℚ))).toDouble.divNat 1000).toDouble =
        .fin (roundDouble (((now - k : ℤ) : ℚ) / 1000)) := by
      have hcast : |((now - k : ℤ) : ℚ)| ≤ 2 ^ 52 := by exact_mod_cast hdifference
      have hthousand : |((now - k : ℤ) : ℚ) / 1000| ≤ 2 ^ 53 := by
        rw [abs_div, abs_of_pos (by norm_num : (0 : ℚ) < 1000)]
        linarith [abs_nonneg (((now - k : ℤ) : ℚ))]
      rw [Number.sub_fin, ← Int.cast_sub,
        toDouble_intCast (lt_of_le_of_lt hdifference (by norm_num)), Number.divNat_fin]
      exact toDouble_fin hthousand
    have hexact : ((Number.fin (now : ℚ)).sub (.fin (k : ℚ))).divNat 1000 =
        .fin (((now - k : ℤ) : ℚ) / 1000) := by
      rw [Number.sub_fin, ← Int.cast_sub]
      rfl
    have hold := (roundDouble_div_thousand hdifference maxAge).1
    have hahead := (roundDouble_div_thousand hdifference (-tolerance)).2
    simp only [Platform.arithmetic, Arithmetic.binary64_sub, Arithmetic.binary64_divNat, hage,
      hexact, bind, Except.bind, hmaxAge, htolerance, Number.lt_fin, decide_eq_true_eq,
      ← Int.cast_neg, hold, hahead]
  | _ => rfl

/-! ### The balances -/

/-- A two-decimal balance up to `2 ^ 36`. -/
def Account.Small (account : Account) : Prop := ∃ n, account.Holds n ∧ (n : ℚ) / 100 ≤ 2 ^ 36

/-- Every account holds a two-decimal balance up to `2 ^ 36`. -/
def InMemoryDb.Small (db : InMemoryDb) : Prop := ∀ account ∈ db.accounts.values, account.Small

section

variable {platform : Platform} {db : InMemoryDb} {account : Account} {amount : Number} {k : ℕ}

theorem InMemoryDb.Small.of_accountOf (h : db.Small) {vpa : Value}
    (hfound : db.accountOf vpa = some account) : account.Small :=
  h account (KeyedMap.mem_of_get (get_of_accountOf hfound))

/-- A small total has small parts. -/
theorem InMemoryDb.Totals.small (h : db.Totals k) (hk : (k : ℚ) / 100 ≤ 2 ^ 36) : db.Small := by
  intro account haccount
  obtain ⟨n, hn, hnk⟩ := h.exists_holds haccount
  have hcast : (n : ℚ) ≤ k := by exact_mod_cast hnk
  exact ⟨n, hn, by linarith⟩

theorem Account.Small.balance_small (h : account.Small) :
    account.getBalanceAsNumber.SmallHundredths := by
  obtain ⟨n, hn, hsmall⟩ := h
  rw [hn.getBalanceAsNumber]
  rintro _ ⟨rfl⟩
  exact ⟨Number.isHundredths_natCast_div n, by rwa [abs_of_nonneg (by positivity)]⟩

/-- What is left to the sender is written as the exact difference. -/
theorem Account.Small.toFixed2_sub (h : account.Small) (hamount : amount.SmallHundredths)
    (hguard : (amount.isNaN || amount.le (.fin 0)) = false)
    (hfunds : account.getBalanceAsNumber.lt amount = false) :
    platform.arithmetic.toFixed2
        (platform.arithmetic.sub account.getBalanceAsNumber.toDouble amount.toDouble) =
      (account.getBalanceAsNumber.sub amount).toFixed2 := by
  obtain ⟨hnumber, hpositive⟩ := Bool.or_eq_false_iff.mp hguard
  have hbalance := h.balance_small
  obtain ⟨n, hn, -⟩ := h
  rw [hn.getBalanceAsNumber] at hfunds hbalance ⊢
  obtain ⟨a, rfl, hpos, hcovered⟩ := Number.exists_fin_of_guards hnumber hpositive hfunds
  obtain ⟨hwhole, hsmall⟩ := hbalance _ rfl
  obtain ⟨hwhole', hsmall'⟩ := hamount a rfl
  obtain ⟨x, hx, hnear, hzero⟩ := @exists_sub_toDouble _ _ platform.numberText hsmall hsmall'
  rw [Platform.arithmetic, hx, Number.sub_fin]
  exact toFixed2Of_of_near (hwhole.sub hwhole') (sub_nonneg.mpr hcovered)
    (by linarith [abs_le.mp hsmall]) hnear fun hequal => hzero (sub_eq_zero.mp hequal)

/-- What the receiver gets is written as the exact sum. -/
theorem Account.Small.toFixed2_add (h : account.Small) (hamount : amount.SmallHundredths)
    (hpositive : amount.le (.fin 0) = false) :
    platform.arithmetic.toFixed2
        (platform.arithmetic.add account.getBalanceAsNumber.toDouble amount.toDouble) =
      (account.getBalanceAsNumber.add amount).toFixed2 := by
  have hbalance := h.balance_small
  obtain ⟨n, hn, -⟩ := h
  have hnonneg : (0 : ℚ) ≤ (n : ℚ) / 100 := by positivity
  rw [hn.getBalanceAsNumber] at hbalance ⊢
  cases amount with
  | fin a =>
    rw [Number.le_fin, decide_eq_false_iff_not, not_le] at hpositive
    obtain ⟨hwhole, hsmall⟩ := hbalance _ rfl
    obtain ⟨hwhole', hsmall'⟩ := hamount a rfl
    obtain ⟨x, hx, hnear⟩ := @exists_add_toDouble _ _ platform.numberText hsmall hsmall'
    rw [Platform.arithmetic, hx, Number.add_fin]
    exact toFixed2Of_of_near (hwhole.add hwhole') (by linarith)
      (by linarith [abs_le.mp hsmall, abs_le.mp hsmall']) hnear fun hequal => by linarith
  | _ =>
    rw [toDouble_of_small hbalance]
    rfl

/-- Writing both balances of a covered payment of whole paise writes the exact texts. -/
theorem transferWith_arithmetic {receiver : Account} (h : account.Small)
    (hreceiver : receiver.Small) (hamount : amount.SmallHundredths)
    (hguard : (amount.isNaN || amount.le (.fin 0)) = false)
    (hfunds : account.getBalanceAsNumber.lt amount = false) :
    db.transferWith platform.arithmetic account receiver amount.toDouble =
      db.transfer account receiver amount := by
  have hdebited : account.debitedWith platform.arithmetic amount.toDouble =
      account.debited amount :=
    congrArg (fun text => { account with balance := text, version := account.version + 1 })
      (h.toFixed2_sub hamount hguard hfunds)
  have hcredited : receiver.creditedWith platform.arithmetic amount.toDouble =
      receiver.credited amount :=
    congrArg (fun text => { receiver with balance := text, version := receiver.version + 1 })
      (hreceiver.toFixed2_add hamount (Bool.or_eq_false_iff.mp hguard).2)
  rw [InMemoryDb.transferWith, hdebited, hcredited]
  rfl

/-- A covered payment of whole paise lowers and raises what is stored. -/
theorem Account.Small.survivesRounding {receiver : Account} (h : account.Small)
    (hreceiver : receiver.Small) (hamount : amount.SmallHundredths)
    (hguard : (amount.isNaN || amount.le (.fin 0)) = false)
    (hfunds : account.getBalanceAsNumber.lt amount = false) :
    SurvivesRounding platform.arithmetic account receiver amount.toDouble := by
  obtain ⟨hnumber, hpositive⟩ := Bool.or_eq_false_iff.mp hguard
  have hleft := @toFixed2_sub platform _ _ h hamount hguard hfunds
  have hgot := @toFixed2_add platform _ _ hreceiver hamount hpositive
  obtain ⟨n, hn, -⟩ := h
  obtain ⟨m, hm, -⟩ := hreceiver
  rw [hn.getBalanceAsNumber] at hleft hfunds
  rw [hm.getBalanceAsNumber] at hgot
  obtain ⟨a, rfl, hpos, hcovered⟩ := Number.exists_fin_of_guards hnumber hpositive hfunds
  have hwhole := (hamount a rfl).1
  have hrest : (0 : ℚ) ≤ (n : ℚ) / 100 - a := sub_nonneg.mpr hcovered
  have hsum : (0 : ℚ) ≤ (m : ℚ) / 100 + a := by positivity
  constructor
  · rw [getBalanceAsNumberWith_arithmetic, hn.getBalanceAsNumber, hleft, hn, parseFloat_fixedText,
      Number.sub_fin, parseFloat_toFixed2 hrest,
      ((Number.isHundredths_natCast_div n).sub hwhole).roundHundredths_div hrest, Number.lt_fin,
      decide_eq_true_iff]
    linarith
  · rw [getBalanceAsNumberWith_arithmetic, hm.getBalanceAsNumber, hgot, hm, parseFloat_fixedText,
      Number.add_fin, parseFloat_toFixed2 hsum,
      ((Number.isHundredths_natCast_div m).add hwhole).roundHundredths_div hsum, Number.lt_fin,
      decide_eq_true_iff]
    linarith

end

/-! ### One delivery -/

/-- An instruction in whole paise and whole milliseconds, of at most 64 billion rupees. -/
structure PaymentInstruction.Plain (platform : Platform) (instruction : PaymentInstruction) :
    Prop where
  amount : ∀ x, instruction.amount.parseFloat platform = .ok x → x.SmallHundredths
  signedAt : ∀ x, instruction.signedAt.toNumber platform = .ok x → x.SmallInstant

section

variable {platform : Platform} {db : InMemoryDb} {instruction : PaymentInstruction}
  {packetHash bridgeNodeId : String} {hopCount amount : Number} {now : ℤ}

/-- The row takes the text of the exact amount. -/
theorem writeRowWith_arithmetic {status : TransactionStatus} (hamount : amount.SmallHundredths)
    (hpositive : amount.le (.fin 0) = false) :
    writeRowWith platform.arithmetic platform instruction packetHash bridgeNodeId hopCount
        amount.toDouble now status =
      writeRowWith .exact platform instruction packetHash bridgeNodeId hopCount amount now
        status := by
  have hnew : ∀ signedAt id, Transaction.newWith platform.arithmetic (ledgerData instruction
      packetHash bridgeNodeId hopCount amount.toDouble signedAt now status) id =
        .newWith .exact (ledgerData instruction packetHash bridgeNodeId hopCount amount signedAt now
          status) id := by
    intro signedAt id
    have htext : platform.arithmetic.toFixed2 amount.toDouble = Arithmetic.exact.toFixed2 amount :=
      toFixed2Of_toDouble hamount hpositive
    simp only [Transaction.newWith, ledgerData, Money.textWith, htext]
  have hsave : ∀ signedAt, saveTransactionWith platform.arithmetic (ledgerData instruction
      packetHash bridgeNodeId hopCount amount.toDouble signedAt now status) =
        saveTransactionWith .exact (ledgerData instruction packetHash bridgeNodeId hopCount amount
          signedAt now status) := by
    intro signedAt
    simp only [saveTransactionWith, hnew]
    rfl
  simp only [writeRowWith, hsave]

/-- The callback does the same with rounding and without. -/
theorem settleCallbackWith_arithmetic (hsmall : db.Small) (hplain : instruction.Plain platform) :
    (settleCallbackWith platform.arithmetic platform instruction packetHash bridgeNodeId hopCount
        now).run db =
      (settleCallbackWith .exact platform instruction packetHash bridgeNodeId hopCount now).run
        db := by
  cases hsender : db.accountOf instruction.senderVpa with
  | none => simp only [settleCallbackWith, run_bind, run_findAccountByVpa, hsender]
  | some sender =>
  cases hreceiver : db.accountOf instruction.receiverVpa with
  | none => simp only [settleCallbackWith, run_bind, run_findAccountByVpa, hsender, hreceiver]
  | some receiver =>
  cases hread : instruction.amount.parseFloat platform with
  | error err =>
    have hexact : instruction.amount.parseFloatWith .exact platform = .error err := hread
    simp only [settleCallbackWith, run_bind, run_findAccountByVpa, run_ofExcept, hsender,
      hreceiver, parseFloatWith_arithmetic, hread, hexact, Except.map]
  | ok amount =>
  have hexact : instruction.amount.parseFloatWith .exact platform = .ok amount := hread
  have hamount := hplain.amount amount hread
  have hpayer := hsmall.of_accountOf hsender
  have hpayee := hsmall.of_accountOf hreceiver
  simp only [settleCallbackWith, recordRejectedWith, run_bind, run_findAccountByVpa, run_ofExcept,
    hsender, hreceiver, parseFloatWith_arithmetic, hread, hexact, Except.map,
    getBalanceAsNumberWith_arithmetic, isNaN_or_le_zero_toDouble hamount,
    lt_toDouble hpayer.balance_small hamount]
  by_cases hguard : (amount.isNaN || amount.le (.fin 0)) = true
  · simp only [if_pos hguard]
  simp only [if_neg hguard]
  rw [Bool.not_eq_true] at hguard
  have hpositive := (Bool.or_eq_false_iff.mp hguard).2
  by_cases hfunds : sender.getBalanceAsNumber.lt amount = true
  · have hfunds' : (sender.getBalanceAsNumberWith .exact).lt amount = true := hfunds
    simp only [if_pos hfunds, if_pos hfunds', run_bind, run_ofExcept,
      writeRowWith_arithmetic hamount hpositive]
  · have hfunds' : ¬(sender.getBalanceAsNumberWith .exact).lt amount = true := hfunds
    simp only [if_neg hfunds, if_neg hfunds']
    rw [Bool.not_eq_true] at hfunds
    simp only [Account.setBalanceFromNumberWith, hpayer.toFixed2_sub hamount hguard hfunds,
      hpayee.toFixed2_add hamount hpositive, writeRowWith_arithmetic hamount hpositive]
    rfl

/-- **`settle` on whole paise:** rounding changes neither its result nor the database. -/
theorem settleWith_arithmetic (hsmall : db.Small) (hplain : instruction.Plain platform) :
    (settleWith platform.arithmetic platform instruction packetHash bridgeNodeId hopCount now).run
        db =
      (settle platform instruction packetHash bridgeNodeId hopCount now).run db :=
  run_runTransaction_congr (settleCallbackWith_arithmetic hsmall hplain)

variable {backend : Backend} {server : Server} {packet : MeshPacket} {clock : Clock}

/-- **A delivery of whole paise:** rounding changes neither the answer nor the server. -/
theorem ingestWith_arithmetic (hseconds : backend.WholeSeconds) (hsmall : server.db.Small)
    (hchecked : |clock.checked| ≤ 2 ^ 51)
    (hplain : ∀ instruction, backend.crypto.decrypt packet.ciphertext = .ok instruction →
      instruction.Plain backend.platform) :
    Backend.ingestWith backend.platform.arithmetic backend server packet bridgeNodeId hopCount
        clock =
      backend.ingest server packet bridgeNodeId hopCount clock := by
  cases hseen : server.seen.has (backend.hashOf packet) with
  | true => rw [Backend.ingestWith_of_seen hseen, Backend.ingest_of_seen hseen]
  | false =>
  cases hdecrypt : backend.crypto.decrypt packet.ciphertext with
  | error err =>
    rw [Backend.ingestWith_of_not_decrypted hseen hdecrypt,
      Backend.ingest_of_not_decrypted hseen hdecrypt]
  | ok instruction =>
  have hfreshness := freshnessWith_arithmetic hseconds hchecked (hplain instruction hdecrypt).signedAt
  cases hverdict : backend.freshness clock.checked instruction with
  | error err =>
    rw [Backend.ingestWith_of_freshness_throws hseen hdecrypt (hfreshness.trans hverdict),
      Backend.ingest, Backend.ingestWith_of_freshness_throws hseen hdecrypt hverdict]
  | ok verdict =>
  cases verdict with
  | some reason =>
    rw [Backend.ingestWith_of_not_fresh hseen hdecrypt (hfreshness.trans hverdict),
      Backend.ingest_of_not_fresh hseen hdecrypt hverdict]
  | none =>
    rw [Backend.ingestWith_of_accepts hseen ⟨hdecrypt, hfreshness.trans hverdict⟩,
      Backend.ingest_of_accepts hseen ⟨hdecrypt, hverdict⟩,
      settleWith_arithmetic hsmall (hplain instruction hdecrypt)]

end

/-! ### Every run -/

/-- What the event delivers, if anything, is in whole paise and whole milliseconds. -/
def Event.Plain (backend : Backend) : Event → Prop
  | .ingest packet _ _ clock => |clock.checked| ≤ 2 ^ 51 ∧
      ∀ instruction, backend.crypto.decrypt packet.ciphertext = .ok instruction →
        instruction.Plain backend.platform
  | _ => True

section

variable {backend : Backend} {server : Server} {k : ℕ}

theorem Event.Plain.inHundredths {event : Event} (h : event.Plain backend) :
    event.InHundredths backend := by
  intro a hread
  cases event with
  | ingest packet bridgeNodeId hopCount clock =>
    obtain ⟨instruction, hdecrypt, hamount⟩ := hread
    exact ((h.2 instruction hdecrypt).amount _ hamount a rfl).1
  | evictExpired now => exact hread.elim
  | clear => exact hread.elim

/-- A run of the server that rounds, from any state of few paise. -/
theorem binary64_run (hseconds : backend.WholeSeconds) (htotals : server.db.Totals k)
    (hindexed : server.db.Indexed) (hk : (k : ℚ) / 100 ≤ 2 ^ 36) {events : List Event}
    (hplain : ∀ event ∈ events, event.Plain backend) :
    (backend.machineWith backend.platform.arithmetic).transitions server events =
        backend.machine.transitions server events ∧
      (backend.machineWith backend.platform.arithmetic).final server events =
        backend.machine.final server events := by
  have hkeep : ∀ (current : Server) (event : Event), event.Plain backend →
      (current.db.Totals k ∧ current.db.Indexed) →
        (backend.machine.next current event).db.Totals k ∧
          (backend.machine.next current event).db.Indexed := by
    rintro current event hevent ⟨hcurrent, hindexed⟩
    have htotal := @totalBalance_final backend current hcurrent.sound hindexed [event]
      (by simpa using hevent.inHundredths)
    exact ⟨⟨(sound_next hcurrent.sound event).1, htotal.trans hcurrent.total_eq⟩,
      indexed_next hindexed event⟩
  refine Machine.agreement hkeep ?_ ⟨htotals, hindexed⟩ hplain
  rintro current event hevent ⟨hcurrent, -⟩
  cases event with
  | ingest packet bridgeNodeId hopCount clock =>
    have hdelivery := @ingestWith_arithmetic bridgeNodeId hopCount backend current packet clock
      hseconds (hcurrent.small hk) hevent.1 hevent.2
    exact congrArg (fun answer : IngestResult × Server => (some answer.1, answer.2)) hdelivery
  | evictExpired now => rfl
  | clear => rfl

end

/-- **The server that rounds agrees with the one that does not,** in every run whose
instructions are in whole paise and whole milliseconds: the same states, the same answers. -/
theorem binary64_agrees (backend : Backend) (hseconds : backend.WholeSeconds)
    (events : List Event) (hplain : ∀ event ∈ events, event.Plain backend) :
    (backend.machineWith backend.platform.arithmetic).transitions seeded events =
        backend.machine.transitions seeded events ∧
      (backend.machineWith backend.platform.arithmetic).final seeded events =
        backend.machine.final seeded events :=
  binary64_run hseconds totals_seededDb indexed_seededDb (by norm_num) hplain

/-- The balances after Alice's payment of `0.1`, which is no double, was delivered twice. -/
theorem binary64_agrees_tenth_rupee :
    (((backendPaying (.str "0.1") (.num (.fin 1000))).machineWith utcPlatform.arithmetic).final
        seeded [deliver "c1" 2000, deliver "c1" 3000]).db.accounts.values.map Account.balance =
      ["4999.90", "1000.10", "2500.00", "500.00"] := by
  have hread : (alicePaysBob (.str "0.1") (.num (.fin 1000))).amount.parseFloat utcPlatform =
      .ok (.fin (1 / 10)) := by decide +kernel
  have hplain : (alicePaysBob (.str "0.1") (.num (.fin 1000))).Plain utcPlatform := by
    refine ⟨fun x hx => ?_, fun x hx => ?_⟩
    · obtain rfl := Except.ok.inj (hread.symm.trans hx)
      rintro _ ⟨rfl⟩
      exact ⟨⟨10, by norm_num⟩, by norm_num [abs_of_pos]⟩
    · cases hx
      rintro _ ⟨rfl⟩
      exact ⟨1000, by norm_num, by norm_num⟩
  have hdelivery : ∀ now : ℤ, |now| ≤ 2 ^ 51 →
      (deliver "c1" now).Plain (backendPaying (.str "0.1") (.num (.fin 1000))) := by
    refine fun now hnow => ⟨hnow, fun instruction hdecrypt => ?_⟩
    obtain rfl := Except.ok.inj (hdecrypt.symm.trans (decrypt_backendPaying _ _))
    exact hplain
  have hfinal := (binary64_agrees (backendPaying (.str "0.1") (.num (.fin 1000)))
    ⟨⟨86400, rfl⟩, ⟨300, rfl⟩⟩ [deliver "c1" 2000, deliver "c1" 3000] (by
      intro event hevent
      simp only [List.mem_cons, List.not_mem_nil, or_false] at hevent
      rcases hevent with rfl | rfl
      · exact hdelivery 2000 (by norm_num)
      · exact hdelivery 3000 (by norm_num))).2
  refine (congrArg (fun server => server.db.accounts.values.map Account.balance) hfinal).trans ?_
  decide +kernel

end UpiOfflineMesh
