import UpiOfflineMesh.BankRefinement
import UpiOfflineMesh.Js.SmallNumbers
import UpiOfflineMesh.Recording

/-!
# The server that rounds

The server with the arithmetic as a parameter. What does not depend on numbers holds in
every arithmetic: rows, index and claims. In binary64 a stored balance is still the text of
a whole number of paise and never negative, and a delivery moves the total by at most one
paisa, whatever amount it says. So the balances stay small for longer than any server runs.
-/

namespace UpiOfflineMesh

open Js InMemoryDb

/-- The server whose deliveries calculate with this arithmetic. -/
def Backend.machineWith (arith : Arithmetic) (backend : Backend) :
    Machine Server Event (Option IngestResult) where
  step server
    | .ingest packet bridgeNodeId hopCount clock =>
      let (result, server) := ingestWith arith backend server packet bridgeNodeId hopCount clock
      (some result, server)
    | other => backend.machine.step server other

/-- The server of the previous modules does not round. -/
theorem machineWith_exact (backend : Backend) : backend.machineWith .exact = backend.machine := by
  refine congrArg Machine.mk ?_
  funext server event
  cases event with
  | ingest packet bridgeNodeId hopCount clock => rfl
  | evictExpired now => rfl
  | clear => rfl

/-! ### Every arithmetic -/

section

variable {arith : Arithmetic} {backend : Backend} {server : Server}

/-- What an event does to the database: nothing, or it appends the row of a recorded
delivery, which moves the money if there is enough of it. -/
theorem db_nextWith (event : Event) :
    ((backend.machineWith arith).next server event).db = server.db ∨
      ∃ packet clock instruction sender receiver amount signedAt row,
        backend.RecordsWith arith server packet clock instruction sender receiver amount signedAt ∧
          row.packetHash = backend.hashOf packet ∧
            ((backend.machineWith arith).next server event).db =
              (if (sender.getBalanceAsNumberWith arith).lt amount then server.db
                else server.db.transferWith arith sender receiver amount).insertRow row := by
  cases event with
  | evictExpired now => exact .inl rfl
  | clear => exact .inl rfl
  | ingest packet bridgeNodeId hopCount clock =>
    by_cases hrecords : ∃ instruction sender receiver amount signedAt,
        backend.RecordsWith arith server packet clock instruction sender receiver amount signedAt
    · obtain ⟨instruction, sender, receiver, amount, signedAt, h⟩ := hrecords
      have hingest := @Backend.ingestWith_of_records arith backend server packet bridgeNodeId
        hopCount clock instruction sender receiver amount signedAt h _ rfl
      exact .inr ⟨packet, clock, instruction, sender, receiver, amount, signedAt, _, h, rfl,
        congrArg (fun answer => answer.2.db) hingest⟩
    · push Not at hrecords
      exact .inl (@Backend.ingestWith_of_not_records arith backend server packet bridgeNodeId
        hopCount clock hrecords).2

theorem indexed_nextWith (h : server.db.Indexed) (event : Event) :
    ((backend.machineWith arith).next server event).db.Indexed := by
  obtain hsame | ⟨packet, clock, instruction, sender, receiver, amount, signedAt, row, hrecords,
    hhash, hdb⟩ := @db_nextWith arith backend server event
  · rw [hsame]
    exact h
  · have hfresh := hrecords.admissible.hash_fresh
    rw [← hhash] at hfresh
    rw [hdb]
    split
    case isTrue => exact h.insertRow hfresh
    case isFalse => exact InMemoryDb.Indexed.insertRow ⟨h.nodup, h.has_iff⟩ hfresh

/-- The index is that of the ledger after every run. -/
theorem indexed_finalWith (arith : Arithmetic) (backend : Backend) (events : List Event) :
    ((backend.machineWith arith).final seeded events).db.Indexed := by
  have hstep : ∀ (server : Server) (event : Event), server.db.Indexed →
      ((backend.machineWith arith).next server event).db.Indexed :=
    fun server event h => indexed_nextWith h event
  exact Machine.invariant_all hstep indexed_seededDb events

end

/-! ### Binary64 -/

/-- Two-decimal balances, not below zero, of this many paise in all. -/
structure InMemoryDb.Totals (db : InMemoryDb) (k : ℕ) : Prop where
  sound : db.Sound
  total_eq : db.totalBalance = .fin ((k : ℚ) / 100)

/-- The least total that is not known to be small, in paise. -/
def paiseBound : ℕ := 100 * 2 ^ 36

section

variable {platform : Platform} {backend : Backend} {server : Server} {db : InMemoryDb}
  {sender receiver : Account} {amount : Number} {k : ℕ}

theorem getBalanceAsNumberWith_arithmetic (account : Account) :
    account.getBalanceAsNumberWith platform.arithmetic = account.getBalanceAsNumber.toDouble := rfl

/-- Sound balances have a total in paise. -/
theorem InMemoryDb.Sound.exists_totals (h : db.Sound) : ∃ k, db.Totals k :=
  ⟨_, h, by rw [InMemoryDb.totalBalance, sumBalances_of_holds h, sum_paise h]⟩

theorem InMemoryDb.Totals.sum_eq (h : db.Totals k) :
    (db.accounts.values.map (·.getBalanceAsNumber.toRat)).sum = (k : ℚ) / 100 := by
  have htotal := h.total_eq
  rwa [InMemoryDb.totalBalance, sumBalances_of_holds h.sound, Number.fin.injEq] at htotal

/-- The total of a database is one number of paise. -/
theorem InMemoryDb.Totals.unique {k' : ℕ} (h : db.Totals k) (h' : db.Totals k') : k = k' := by
  have htotal := h.sum_eq.symm.trans h'.sum_eq
  rwa [div_left_inj' (by norm_num), Nat.cast_inj] at htotal

/-- No balance is above the total. -/
theorem InMemoryDb.Totals.exists_holds (h : db.Totals k) {account : Account}
    (haccount : account ∈ db.accounts.values) : ∃ n, account.Holds n ∧ n ≤ k := by
  obtain ⟨n, hn⟩ := h.sound account haccount
  have hnonneg : ∀ balance ∈ db.accounts.values.map (·.getBalanceAsNumber.toRat), 0 ≤ balance := by
    rintro _ hbalance
    obtain ⟨other, hother, rfl⟩ := List.mem_map.mp hbalance
    obtain ⟨m, hm⟩ := h.sound other hother
    rw [hm.getBalanceAsNumber, Number.toRat_fin]
    positivity
  have hle := List.single_le_sum hnonneg _ (List.mem_map_of_mem haccount)
  rw [h.sum_eq, hn.getBalanceAsNumber, Number.toRat_fin,
    div_le_div_iff_of_pos_right (by norm_num), Nat.cast_le] at hle
  exact ⟨n, hn, hle⟩

/-- Both texts of a covered payment: whole paise, and together one more or less than before
at most. -/
theorem exists_holds_transferWith {n m : ℕ} (hn : sender.Holds n) (hm : receiver.Holds m)
    (hn' : (n : ℚ) / 100 ≤ 2 ^ 36) (hm' : (m : ℚ) / 100 ≤ 2 ^ 36) (hnumber : amount.isNaN = false)
    (hpositive : amount.le (.fin 0) = false)
    (hfunds : (sender.getBalanceAsNumberWith platform.arithmetic).lt amount = false) :
    ∃ n' m', (sender.debitedWith platform.arithmetic amount).Holds n' ∧
      (receiver.creditedWith platform.arithmetic amount).Holds m' ∧
        n' + m' ≤ n + m + 1 ∧ n + m ≤ n' + m' + 1 := by
  have hnonneg : (0 : ℚ) ≤ (n : ℚ) / 100 := by positivity
  have hnonneg' : (0 : ℚ) ≤ (m : ℚ) / 100 := by positivity
  have hsmall : |(n : ℚ) / 100| ≤ 2 ^ 38 := by
    rw [abs_of_nonneg hnonneg]
    linarith
  have herror := abs_le.mp (abs_roundDouble_sub_le_small hsmall)
  rw [getBalanceAsNumberWith_arithmetic, hn.getBalanceAsNumber, toDouble_fin (by linarith)] at hfunds
  obtain ⟨x, rfl, hpos, hcovered⟩ := Number.exists_fin_of_guards hnumber hpositive hfunds
  obtain ⟨n', hdebit, hleft⟩ :=
    @exists_toFixed2_sub _ _ platform.numberText hnonneg hn' hpos.le hcovered
  obtain ⟨m', hcredit, hgot⟩ :=
    @exists_toFixed2_add _ _ platform.numberText hnonneg' hm' hpos.le (by linarith)
  rw [← hn.getBalanceAsNumber] at hdebit
  rw [← hm.getBalanceAsNumber] at hcredit
  rw [abs_le] at hleft hgot
  -- The two errors together stay below two paise, and a total is a whole number of them.
  have hup : ((n' + m' : ℕ) : ℚ) < (n + m + 2 : ℕ) := by
    push_cast
    linarith
  have hdown : ((n + m : ℕ) : ℚ) < (n' + m' + 2 : ℕ) := by
    push_cast
    linarith
  rw [Nat.cast_lt] at hup hdown
  exact ⟨n', m', hdebit, hcredit, by omega, by omega⟩

/-- A payment moves the total by at most one paisa. -/
theorem InMemoryDb.Totals.transferWith (h : db.Totals k) (hk : (k : ℚ) / 100 ≤ 2 ^ 36)
    (hsender : db.accounts.get sender.vpa = some sender)
    (hreceiver : db.accounts.get receiver.vpa = some receiver) (hne : sender.vpa ≠ receiver.vpa)
    (hnumber : amount.isNaN = false) (hpositive : amount.le (.fin 0) = false)
    (hfunds : (sender.getBalanceAsNumberWith platform.arithmetic).lt amount = false) :
    ∃ k', (db.transferWith platform.arithmetic sender receiver amount).Totals k' ∧
      k' ≤ k + 1 ∧ k ≤ k' + 1 := by
  obtain ⟨n, hn, hnk⟩ := h.exists_holds (KeyedMap.mem_of_get hsender)
  obtain ⟨m, hm, hmk⟩ := h.exists_holds (KeyedMap.mem_of_get hreceiver)
  have hsmall : ∀ j : ℕ, j ≤ k → (j : ℚ) / 100 ≤ 2 ^ 36 := by
    intro j hj
    have hcast : (j : ℚ) ≤ k := by exact_mod_cast hj
    linarith
  obtain ⟨n', m', hdebited, hcredited, hup, hdown⟩ :=
    @exists_holds_transferWith platform _ _ _ n m hn hm (hsmall n hnk) (hsmall m hmk) hnumber
      hpositive hfunds
  have hsound : (db.transferWith platform.arithmetic sender receiver amount).Sound := by
    intro account haccount
    rw [InMemoryDb.transferWith, KeyedMap.mem_values_set, KeyedMap.mem_values_set] at haccount
    rcases haccount with rfl | ⟨rfl | ⟨hold, _⟩, _⟩
    · exact ⟨m', hcredited⟩
    · exact ⟨n', hdebited⟩
    · exact h.sound account hold
  obtain ⟨k', hk'⟩ := hsound.exists_totals
  have hcurrent : (db.accounts.set (sender.debitedWith platform.arithmetic amount)).get
      (receiver.creditedWith platform.arithmetic amount).vpa = some receiver := by
    rw [KeyedMap.get_set_of_ne (v := sender.debitedWith platform.arithmetic amount) _ hne]
    exact hreceiver
  have hdebit := KeyedMap.sum_values_set (v := sender.debitedWith platform.arithmetic amount)
    (fun account => account.getBalanceAsNumber.toRat) hsender
  have hcredit := KeyedMap.sum_values_set (v := receiver.creditedWith platform.arithmetic amount)
    (fun account => account.getBalanceAsNumber.toRat) hcurrent
  have hafter := hk'.sum_eq
  rw [InMemoryDb.transferWith] at hafter
  simp only [hdebited.getBalanceAsNumber, hn.getBalanceAsNumber, Number.toRat_fin, h.sum_eq]
    at hdebit
  simp only [hcredited.getBalanceAsNumber, hm.getBalanceAsNumber, Number.toRat_fin, hafter]
    at hcredit
  have hbalance : ((k' + n + m : ℕ) : ℚ) = (k + n' + m' : ℕ) := by
    push_cast
    linarith
  rw [Nat.cast_inj] at hbalance
  exact ⟨k', hk', by omega, by omega⟩

/-- **One event** moves the total by at most one paisa, up or down, whatever it says. -/
theorem totals_nextWith (h : server.db.Totals k) (hk : k < paiseBound) (event : Event) :
    ∃ k', ((backend.machineWith backend.platform.arithmetic).next server event).db.Totals k' ∧
      k' ≤ k + 1 ∧ k ≤ k' + 1 := by
  have hcast : (k : ℚ) / 100 ≤ 2 ^ 36 := by
    have hle : (k : ℚ) ≤ 100 * 2 ^ 36 := by exact_mod_cast hk.le
    linarith
  obtain hsame | ⟨packet, clock, instruction, sender, receiver, amount, signedAt, row, hrecords,
    hhash, hdb⟩ := @db_nextWith backend.platform.arithmetic backend server event
  · rw [hsame]
    exact ⟨k, h, by omega, by omega⟩
  · rw [hdb]
    split
    case isTrue => exact ⟨k, ⟨h.sound, h.total_eq⟩, by omega, by omega⟩
    case isFalse hfunds =>
      rw [Bool.not_eq_true] at hfunds
      obtain ⟨k', hpaid, hup, hdown⟩ := h.transferWith hcast
        (get_of_accountOf hrecords.admissible.sender_known)
        (get_of_accountOf hrecords.admissible.receiver_known) (hrecords.ne_of_covered hfunds)
        hrecords.admissible.amount_isNumber hrecords.admissible.amount_positive hfunds
      exact ⟨k', ⟨hpaid.sound, hpaid.total_eq⟩, hup, hdown⟩

theorem totals_seededDb : seededDb.Totals 900000 :=
  ⟨sound_seededDb, totalBalance_seededDb.trans (congrArg Number.fin (by norm_num))⟩

end

/-- After every run of at most `2 ^ 40` events, each balance is the text of a whole number of
paise, and the total is at most that of the start plus one paisa for each event. -/
theorem totals_finalWith (backend : Backend) {events : List Event}
    (hlength : events.length ≤ 2 ^ 40) :
    ∃ k ≤ 900000 + events.length,
      ((backend.machineWith backend.platform.arithmetic).final seeded events).db.Totals k := by
  have hstep : ∀ (j : ℕ) (server : Server) (event : Event), j < paiseBound →
      (∃ k ≤ j, server.db.Totals k) → ∃ k ≤ j + 1,
        ((backend.machineWith backend.platform.arithmetic).next server event).db.Totals k := by
    rintro j server event hj ⟨k, hkj, hk⟩
    obtain ⟨k', hk', hup, -⟩ := totals_nextWith hk (hkj.trans_lt hj) event
    exact ⟨k', hup.trans (Nat.add_le_add_right hkj 1), hk'⟩
  refine Machine.invariant_counted (I := fun j (server : Server) => ∃ k ≤ j, server.db.Totals k)
    hstep ⟨900000, le_rfl, totals_seededDb⟩ ?_
  have hbound : 900000 + 2 ^ 40 ≤ paiseBound := by decide
  omega

/-- **The rounding of the server costs at most one paisa a delivery.** After every run of
fewer than `2 ^ 40` events, with whatever amounts, each balance is the text of a whole number
of paise, and the next event moves the total by at most one of them, up or down. -/
theorem total_moves_by_a_paisa (backend : Backend) (events : List Event) (event : Event)
    (hlength : events.length < 2 ^ 40) :
    ∃ k k', ((backend.machineWith backend.platform.arithmetic).final seeded events).db.Totals k ∧
      ((backend.machineWith backend.platform.arithmetic).final seeded
        (events ++ [event])).db.Totals k' ∧ k' ≤ k + 1 ∧ k ≤ k' + 1 := by
  obtain ⟨k, hle, hk⟩ := totals_finalWith backend hlength.le
  have hbound : 900000 + 2 ^ 40 ≤ paiseBound := by decide
  obtain ⟨k', hk', hmoved⟩ := @totals_nextWith backend _ k hk (by omega) event
  rw [Machine.final_append]
  exact ⟨k, k', hk, hk', hmoved⟩

/-- Alice's payment of `0.045` takes a paisa out of the world: five leave her and four arrive. -/
theorem total_moves_by_a_paisa_down :
    ∃ k k', seeded.db.Totals k ∧
      (((backendPaying (.str "0.045") (.num (.fin 1000))).machineWith utcPlatform.arithmetic).final
        seeded [deliver "c1" 2000]).db.Totals k' ∧ k' + 1 = k := by
  obtain ⟨k, k', hk, hk', -⟩ := total_moves_by_a_paisa
    (backendPaying (.str "0.045") (.num (.fin 1000))) [] (deliver "c1" 2000) (by decide)
  have htotal : (((backendPaying (.str "0.045") (.num (.fin 1000))).machineWith
      utcPlatform.arithmetic).final seeded [deliver "c1" 2000]).db.totalBalance =
        .fin ((899999 : ℕ) / 100) := by
    decide +kernel
  have hbefore : k = 900000 := hk.unique totals_seededDb
  have hafter : k' = 899999 := hk'.unique ⟨hk'.sound, htotal⟩
  exact ⟨k, k', hk, hk', by omega⟩

end UpiOfflineMesh
