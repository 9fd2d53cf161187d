import UpiOfflineMesh.Accounting

/-!
# The total of all balances

Debit and credit of one payment are rounded separately, the debit with ties going
down and the credit with ties going up. The total is conserved except for amounts
half-way between two hundredths, each of which adds one hundredth. A number in the
sender's JSON is written with two decimals and is never half-way; a text may be.
-/

namespace UpiOfflineMesh

open Js InMemoryDb

/-- The sum of the balances, as the account list of the API would be added up. -/
def sumBalances (accounts : List Account) : Number :=
  accounts.foldr (fun account total => account.getBalanceAsNumber.add total) (.fin 0)

/-- The sum of all balances of the database. -/
def InMemoryDb.totalBalance (db : InMemoryDb) : Number := sumBalances db.accounts.values

/-- Two-decimal balances add up to a finite number. -/
theorem sumBalances_of_holds {accounts : List Account}
    (h : ∀ account ∈ accounts, ∃ n, account.Holds n) :
    sumBalances accounts = .fin (accounts.map (·.getBalanceAsNumber.toRat)).sum := by
  induction accounts with
  | nil => rfl
  | cons account accounts ih =>
    obtain ⟨n, hn⟩ := h account (by simp)
    have htail := ih (fun other hother => h other (by simp [hother]))
    change account.getBalanceAsNumber.add (sumBalances accounts) = _
    rw [htail, List.map_cons, List.sum_cons, hn.getBalanceAsNumber, Number.add_fin,
      Number.toRat_fin]

@[simp] theorem totalBalance_insertRow (db : InMemoryDb) (row : Transaction) :
    (db.insertRow row).totalBalance = db.totalBalance := rfl

section

variable {db : InMemoryDb} {sender receiver : Account} {a : ℚ}

/-- What a covered payment does to the total: half-way amounts add a hundredth. -/
theorem CoveredPayment.totalBalance_transfer (h : CoveredPayment db sender receiver a)
    (hsound : db.Sound) :
    (db.transfer sender receiver (.fin a)).totalBalance =
      db.totalBalance.add (.fin (if Number.IsHalfHundredth a then 1 / 100 else 0)) := by
  obtain ⟨n, m, hn, hm, hcovered⟩ := h.exists_holds hsound
  have hpos := h.positive
  have hdebit := KeyedMap.sum_values_set (v := sender.debited (.fin a))
    (fun account => account.getBalanceAsNumber.toRat) h.sender_get
  have hcredit := KeyedMap.sum_values_set (v := receiver.credited (.fin a))
    (fun account => account.getBalanceAsNumber.toRat) h.get_receiver_debited
  simp only [(hn.debited hcovered).getBalanceAsNumber, hn.getBalanceAsNumber,
    Number.toRat_fin] at hdebit
  simp only [(hm.credited hpos.le).getBalanceAsNumber, hm.getBalanceAsNumber, Number.toRat_fin,
    Number.roundHundredths_add hpos.le] at hcredit
  -- The debit takes off the amount rounded down on ties, the credit adds it rounded up.
  have hdown : (Number.roundHundredths ((n : ℚ) / 100 - a) : ℚ) =
      (n : ℚ) - (⌈a * 100 - 1 / 2⌉ : ℚ) := by
    exact_mod_cast congrArg (Int.cast : ℤ → ℚ) (Number.roundHundredths_sub hcovered)
  have hup : (Number.roundHundredths a : ℚ) =
      (⌈a * 100 - 1 / 2⌉ : ℚ) + if Number.IsHalfHundredth a then 1 else 0 := by
    have hnonneg : 0 ≤ ⌊a * 100 + 1 / 2⌋ := Int.floor_nonneg.mpr (by linarith)
    have hround : (Number.roundHundredths a : ℤ) = ⌊a * 100 + 1 / 2⌋ := by
      rw [Number.roundHundredths, Int.toNat_of_nonneg hnonneg]
    have hcast := congrArg (Int.cast : ℤ → ℚ) (hround.trans (Number.floor_add_half a))
    push_cast at hcast
    exact hcast
  have hsum : (((db.accounts.set (sender.debited (.fin a))).set
      (receiver.credited (.fin a))).values.map (·.getBalanceAsNumber.toRat)).sum =
      (db.accounts.values.map (·.getBalanceAsNumber.toRat)).sum +
        if Number.IsHalfHundredth a then 1 / 100 else 0 := by
    rw [hdown] at hdebit
    push_cast at hcredit
    rw [hup] at hcredit
    split
    case isTrue hhalf =>
      rw [if_pos hhalf] at hcredit
      linarith
    case isFalse hhalf =>
      rw [if_neg hhalf] at hcredit
      linarith
  rw [totalBalance, totalBalance, sumBalances_of_holds hsound,
    sumBalances_of_holds (h.sound_transfer hsound), Number.add_fin, Number.fin.injEq]
  exact hsum

/-- On sound balances `settle` keeps the total unless it moves a half-way amount. -/
theorem settle_conserves_iff {platform : Platform} {instruction : PaymentInstruction}
    {packetHash bridgeNodeId : String} {hopCount : Number} {now : ℤ} (hsound : db.Sound) :
    ((settle platform instruction packetHash bridgeNodeId hopCount now).run db).2.totalBalance =
        db.totalBalance ↔
      ¬∃ sender receiver a signedAt,
        Admissible platform db instruction packetHash sender receiver (.fin a) signedAt ∧
          sender.getBalanceAsNumber.lt (.fin a) = false ∧ sender.vpa ≠ receiver.vpa ∧
            Number.IsHalfHundredth a := by
  have heffect := @settle_effect platform db instruction packetHash bridgeNodeId hopCount now
  generalize ((settle platform instruction packetHash bridgeNodeId hopCount now).run db).1 = result
    at heffect
  generalize ((settle platform instruction packetHash bridgeNodeId hopCount now).run db).2 = after
    at heffect ⊢
  cases heffect with
  | thrown err hwhy =>
    simp only [true_iff]
    rintro ⟨sender, receiver, a, signedAt, hadmissible, hfunds, hne, _⟩
    exact hne (hwhy _ _ _ _ hadmissible).2
  | @rejected sender receiver amount signedAt hadmissible hfunds =>
    simp only [totalBalance_insertRow, true_iff]
    rintro ⟨sender', receiver', a, signedAt', hadmissible', hfunds', _⟩
    obtain ⟨rfl, rfl, rfl, rfl⟩ := hadmissible.unique hadmissible'
    simp [hfunds'] at hfunds
  | @settled sender receiver amount signedAt hadmissible hfunds hne =>
    obtain ⟨a, rfl, hpayment⟩ := hsound.exists_coveredPayment
      (get_of_accountOf hadmissible.sender_known) (get_of_accountOf hadmissible.receiver_known) hne
      hadmissible.amount_isNumber hadmissible.amount_positive hfunds
    have htotal : db.totalBalance = .fin (db.accounts.values.map
        (·.getBalanceAsNumber.toRat)).sum := sumBalances_of_holds hsound
    rw [totalBalance_insertRow, hpayment.totalBalance_transfer hsound, htotal, Number.add_fin,
      Number.fin.injEq, add_eq_left]
    constructor
    · rintro hzero ⟨sender', receiver', a', signedAt', hadmissible', _, _, hhalf⟩
      obtain ⟨rfl, rfl, ha, rfl⟩ := hadmissible.unique hadmissible'
      obtain rfl := Number.fin.inj ha
      rw [if_pos hhalf] at hzero
      norm_num at hzero
    · intro hnone
      exact if_neg fun hhalf =>
        hnone ⟨sender, receiver, a, signedAt, hadmissible, hfunds, hne, hhalf⟩

end

/-- **Conservation of money:** in every reachable state a call of `settle` keeps
the total of all balances if and only if it does not move, between two accounts,
a covered amount half-way between two hundredths. -/
theorem total_balance_conserved_iff (backend : Backend) (events : List Event)
    (instruction : PaymentInstruction) (packetHash bridgeNodeId : String) (hopCount : Number)
    (now : ℤ) :
    ((settle backend.platform instruction packetHash bridgeNodeId hopCount now).run
        (backend.machine.final seeded events).db).2.totalBalance =
          (backend.machine.final seeded events).db.totalBalance ↔
      ¬∃ sender receiver a signedAt,
        Admissible backend.platform (backend.machine.final seeded events).db instruction packetHash
            sender receiver (.fin a) signedAt ∧
          sender.getBalanceAsNumber.lt (.fin a) = false ∧ sender.vpa ≠ receiver.vpa ∧
            Number.IsHalfHundredth a :=
  settle_conserves_iff (sound_final backend events).1

theorem totalBalance_seededDb : seededDb.totalBalance = .fin 9000 := by decide +kernel

/-- A total that grows: Alice sends Bob the text `0.125` from the seeded state. -/
theorem total_balance_eighth_rupee :
    seededDb.totalBalance = .fin 9000 ∧
      ((settle utcPlatform (alicePaysBob (.str "0.125") (.num (.fin 1000))) "c1" "bridge-1" (.fin 2)
        1000).run seededDb).2.totalBalance = .fin (900001 / 100) := by
  decide +kernel

/-- An amount that the constructor has written from a number is never half-way. -/
theorem not_isHalfHundredth_of_written {q a : ℚ} (hq : 0 ≤ q)
    (h : parseFloat (Number.fin q).toFixed2 = .fin a) : ¬Number.IsHalfHundredth a := by
  rw [parseFloat_toFixed2 hq, Number.fin.injEq] at h
  rintro ⟨k, hk⟩
  have hdouble : (2 * Number.roundHundredths q : ℤ) = 2 * k + 1 := by
    have hrat : (2 * Number.roundHundredths q : ℚ) = 2 * k + 1 := by
      rw [← h] at hk
      linarith
    exact_mod_cast hrat
  omega

end UpiOfflineMesh
