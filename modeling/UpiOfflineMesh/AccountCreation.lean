import UpiOfflineMesh.Accounting

/-!
# Creating accounts

Creation and update share `saveAccount`, which tells them apart by the version alone.
A new account comes with version zero, and zero is also the version of a stored account
that nothing has rewritten since it was registered: that one is overwritten. From the
first rewrite on its version is positive, and creations of its address throw.
-/

namespace UpiOfflineMesh

open Js InMemoryDb

/-- What moves the bank: an event of the server, or the creation of an account. -/
inductive BankEvent where
  | server (event : Event)
  | create (vpa holderName : String) (balance : Money)

/-- The answer to a delivery or to a creation. -/
inductive BankAnswer where
  | served (result : Option IngestResult)
  | created (result : Except Error Account)

/-- The server with account creations. -/
def bank (backend : Backend) : Machine Server BankEvent BankAnswer where
  step server
    | .server event =>
      let (result, server) := backend.machine.step server event
      (.served result, server)
    | .create vpa holderName balance =>
      let (result, db) := (saveAccount (.new vpa holderName balance)).run server.db
      (.created result, { server with db })

/-- The step replaced the account stored under this address. -/
def rewrites (vpa : String) (t : Transition Server BankEvent BankAnswer) : Bool :=
  t.before.db.accounts.has vpa &&
    decide (t.after.db.accounts.get vpa ≠ t.before.db.accounts.get vpa)

/-- Saving the account throws and leaves the account stored under its address as it is. -/
def RefusesToSave (db : InMemoryDb) (account : Account) : Prop :=
  (∃ err, ((saveAccount account).run db).1 = .error err) ∧
    ((saveAccount account).run db).2.accounts.get account.vpa = db.accounts.get account.vpa

/-- A registered address refuses a save exactly when its version is another one. -/
theorem refusesToSave_iff {db : InMemoryDb} {account stored : Account}
    (hstored : db.accounts.get account.vpa = some stored) :
    RefusesToSave db account ↔ stored.version ≠ account.version := by
  unfold RefusesToSave
  by_cases hversion : stored.version = account.version
  · rw [run_saveAccount_of_current hstored hversion]
    simp [hversion]
  · rw [run_saveAccount_of_stale hstored hversion]
    simp [hversion]

/-- Saving an account leaves all other addresses as they are. -/
theorem get_saveAccount_of_ne {db : InMemoryDb} {account : Account} {vpa : String}
    (hne : account.vpa ≠ vpa) :
    ((saveAccount account).run db).2.accounts.get vpa = db.accounts.get vpa := by
  cases hget : db.accounts.get account.vpa with
  | none =>
    rw [run_saveAccount_of_new hget]
    exact KeyedMap.get_set_of_ne _ hne
  | some existing =>
    by_cases hversion : existing.version = account.version
    · rw [run_saveAccount_of_current hget hversion]
      exact KeyedMap.get_set_of_ne _ hne
    · rw [run_saveAccount_of_stale hget hversion]

section

variable {backend : Backend} {server : Server} {vpa : String} {stored : Account}

@[simp] theorem bank_next_server (event : Event) :
    (bank backend).next server (.server event) = backend.machine.next server event := rfl

@[simp] theorem db_bank_next_create (other holderName : String) (balance : Money) :
    ((bank backend).next server (.create other holderName balance)).db =
      ((saveAccount (.new other holderName balance)).run server.db).2 := rfl

/-- What a step makes of a registered account: the same, or one with a higher version. -/
theorem stored_bank_next (event : BankEvent) (hstored : server.db.accounts.get vpa = some stored) :
    ((bank backend).next server event).db.accounts.get vpa = some stored ∨
      ∃ stored', ((bank backend).next server event).db.accounts.get vpa = some stored' ∧
        stored'.version = stored.version + 1 := by
  cases event with
  | server event =>
    have heffect := @db_effect backend server event
    rw [bank_next_server]
    generalize (backend.machine.next server event).db = after at heffect ⊢
    cases heffect with
    | unchanged => exact Or.inl hstored
    | rejected row => exact Or.inl hstored
    | settled row hhash hfresh hstatus hid sender receiver amount hsender hreceiver =>
      rw [accounts_insertRow, get_transfer]
      by_cases hcredited : receiver.vpa = vpa
      · right
        rw [hcredited, hstored, Option.some.injEq] at hreceiver
        exact ⟨_, if_pos hcredited, by rw [hreceiver]; rfl⟩
      · rw [if_neg hcredited]
        by_cases hdebited : sender.vpa = vpa
        · right
          rw [hdebited, hstored, Option.some.injEq] at hsender
          exact ⟨_, if_pos hdebited, by rw [hsender]; rfl⟩
        · left
          rw [if_neg hdebited, hstored]
  | create other holderName balance =>
    rw [db_bank_next_create]
    by_cases hsame : other = vpa
    · subst hsame
      by_cases hversion : stored.version = 0
      · right
        rw [@run_saveAccount_of_current _ (.new other holderName balance) _ hstored hversion]
        exact ⟨_, KeyedMap.get_set_self _ _, by rw [hversion]; rfl⟩
      · left
        rw [@run_saveAccount_of_stale _ (.new other holderName balance) _ hstored hversion]
        exact hstored
    · left
      rw [@get_saveAccount_of_ne _ (.new other holderName balance) vpa hsame, hstored]

/-- What a step makes of an address that is not registered: at most a new account. -/
theorem unregistered_bank_next (event : BankEvent)
    (hnone : server.db.accounts.get vpa = none)
    (hstored : ((bank backend).next server event).db.accounts.get vpa = some stored) :
    stored.version = 0 := by
  cases event with
  | server event =>
    exfalso
    have heffect := @db_effect backend server event
    rw [bank_next_server] at hstored
    generalize (backend.machine.next server event).db = after at heffect hstored
    cases heffect with
    | unchanged => simp [hnone] at hstored
    | rejected row => simp [hnone] at hstored
    | settled row hhash hfresh hstatus hid sender receiver amount hsender hreceiver =>
      rw [accounts_insertRow, get_transfer, if_neg, if_neg, hnone] at hstored
      · cases hstored
      · rintro rfl
        simp [hnone] at hsender
      · rintro rfl
        simp [hnone] at hreceiver
  | create other holderName balance =>
    rw [db_bank_next_create] at hstored
    by_cases hsame : other = vpa
    · subst hsame
      rw [@run_saveAccount_of_new _ (.new other holderName balance) hnone] at hstored
      have hself := KeyedMap.get_set_self server.db.accounts
        { Account.new other holderName balance with version := 0 }
      obtain rfl := Option.some.inj (hself.symm.trans hstored)
      rfl
    · rw [@get_saveAccount_of_ne _ (.new other holderName balance) vpa hsame, hnone] at hstored
      cases hstored

/-- The step rewrites a registered account exactly when it raises its version. -/
theorem rewrites_transition_iff (event : BankEvent)
    (hstored : server.db.accounts.get vpa = some stored) {stored' : Account}
    (hafter : ((bank backend).next server event).db.accounts.get vpa = some stored') :
    (rewrites vpa ((bank backend).transition server event) = true ∧
        stored'.version = stored.version + 1) ∨
      (rewrites vpa ((bank backend).transition server event) = false ∧ stored' = stored) := by
  unfold rewrites
  simp only [Machine.before_transition, Machine.after_transition, KeyedMap.has_of_get hstored,
    Bool.true_and, hstored, hafter, ne_eq, Option.some.injEq, decide_eq_true_eq,
    decide_eq_false_iff_not, not_not]
  rcases @stored_bank_next backend _ _ _ event hstored with hsame | ⟨raised, hraised, hversion⟩
  · right
    rw [hsame, Option.some.injEq] at hafter
    exact ⟨hafter.symm, hafter.symm⟩
  · left
    obtain rfl : raised = stored' := Option.some.inj (hraised.symm.trans hafter)
    refine ⟨?_, hversion⟩
    rintro rfl
    omega

end

/-- No seeded account has been rewritten. -/
theorem version_seeded {vpa : String} {stored : Account}
    (hstored : seeded.db.accounts.get vpa = some stored) : stored.version = 0 := by
  have hmem : stored ∈ seededDb.accounts.values := KeyedMap.mem_of_get hstored
  rw [seededDb_eq.2] at hmem
  simp only [List.mem_cons, List.not_mem_nil, or_false] at hmem
  rcases hmem with rfl | rfl | rfl | rfl
  all_goals rfl

/-- **Versions tell rewritten accounts:** in every run from the seeded accounts a step
has rewritten an account exactly when its version is positive. -/
theorem rewritten_iff (backend : Backend) (events : List BankEvent) (vpa : String) :
    (∃ t ∈ (bank backend).transitions seeded events, rewrites vpa t = true) ↔
      ∃ stored, ((bank backend).final seeded events).db.accounts.get vpa = some stored ∧
        stored.version ≠ 0 := by
  induction events using List.reverseRecOn with
  | nil =>
    simp only [Machine.transitions_nil, List.not_mem_nil, false_and, exists_false, false_iff,
      not_exists, not_and, not_not, Machine.final_nil]
    exact fun stored => version_seeded
  | append_singleton events event ih =>
    rw [Machine.transitions_append, Machine.final_append, Machine.final_cons, Machine.final_nil]
    simp only [List.mem_append, Machine.transitions_cons, Machine.transitions_nil,
      List.mem_singleton, or_and_right, exists_or, exists_eq_left, ih]
    generalize (bank backend).final seeded events = server
    cases hstored : server.db.accounts.get vpa with
    | none =>
      have hquiet : rewrites vpa ((bank backend).transition server event) = false := by
        have hunknown := server.db.accounts.has_eq_false_iff.mpr hstored
        simp [rewrites, hunknown]
      simp only [reduceCtorEq, false_and, exists_false, hquiet, Bool.false_eq_true, or_self,
        false_iff, not_exists, not_and, not_not]
      exact fun stored => unregistered_bank_next event hstored
    | some stored =>
      obtain ⟨stored', hafter⟩ : ∃ stored',
          ((bank backend).next server event).db.accounts.get vpa = some stored' := by
        rcases @stored_bank_next backend _ _ _ event hstored with hsame | ⟨_, hraised, _⟩
        · exact ⟨stored, hsame⟩
        · exact ⟨_, hraised⟩
      simp only [hafter, Option.some.injEq, exists_eq_left']
      rcases rewrites_transition_iff event hstored hafter with ⟨hrewrites, hversion⟩ | ⟨hquiet, rfl⟩
      · simp [hrewrites, hversion]
      · simp [hquiet]

/-- **When creating an account overwrites one.** In every state that server events and
account creations reach from the seeded accounts, creating an account of a registered
address throws and leaves the stored account exactly when its version is positive: when
some step of the run has rewritten it since it was registered. -/
theorem creation_refused_iff (backend : Backend) (events : List BankEvent) (vpa holderName : String)
    (balance : Money) (stored : Account)
    (hstored : ((bank backend).final seeded events).db.accounts.get vpa = some stored) :
    (RefusesToSave ((bank backend).final seeded events).db (.new vpa holderName balance) ↔
        stored.version ≠ 0) ∧
      (stored.version ≠ 0 ↔
        ∃ t ∈ (bank backend).transitions seeded events, rewrites vpa t = true) := by
  constructor
  · exact @refusesToSave_iff _ (.new vpa holderName balance) _ hstored
  · rw [rewritten_iff, hstored]
    simp

/-- A new account under Alice's address replaces her balance at start-up. -/
theorem creation_overwrites_alice :
    seeded.db.accounts.get "alice@demo" = some ⟨"alice@demo", "Alice", "5000.00", 0⟩ ∧
      ((saveAccount (.new "alice@demo" "Mallory" (.inl (.fin 1)))).run seeded.db).1 =
        .ok ⟨"alice@demo", "Mallory", "1.00", 1⟩ ∧
      ((saveAccount (.new "alice@demo" "Mallory" (.inl (.fin 1)))).run seeded.db).2.accounts.get
        "alice@demo" = some ⟨"alice@demo", "Mallory", "1.00", 1⟩ := by
  decide +kernel

/-- After Alice has paid, the same creation is refused. -/
theorem creation_refused_alice :
    RefusesToSave ((bank (backendPaying (.num (.fin 500)) (.num (.fin 0)))).final seeded
      [.server (deliver "c1" 0)]).db (.new "alice@demo" "Mallory" (.inl (.fin 1))) := by
  have hstored : ((bank (backendPaying (.num (.fin 500)) (.num (.fin 0)))).final seeded
      [.server (deliver "c1" 0)]).db.accounts.get "alice@demo" =
        some ⟨"alice@demo", "Alice", "4500.00", 1⟩ := by
    decide +kernel
  obtain ⟨hrefused, -⟩ := creation_refused_iff (backendPaying (.num (.fin 500)) (.num (.fin 0)))
    [.server (deliver "c1" 0)] "alice@demo" "Mallory" (.inl (.fin 1)) _ hstored
  exact hrefused.mpr (by decide)

end UpiOfflineMesh
