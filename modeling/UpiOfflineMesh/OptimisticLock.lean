import UpiOfflineMesh.Accounting

/-!
# Optimistic locking

Clients hold copies of accounts that they have read, change them and save them, in
any interleaving with each other and with settlements. The version of an account
counts its successful writes, and a save compares versions, so it goes through
exactly when nothing was written since its copy was last in step with the database.
A settlement that rolls back restores the account with its version, and no copy has
seen the version in between, so no version stands for two records.
-/

namespace UpiOfflineMesh

open Js InMemoryDb

/-- The database and the account objects that clients hold. A client refers to its
copy by the position at which it was read. -/
structure Session where
  db : InMemoryDb
  copies : List Account

/-- What clients and the settlement service do. -/
inductive ClientEvent where
  | findAccountByVpa (vpa : Value)
  | findAllAccounts
  /-- A client assigns holder name and balance of a copy; a number is written down
  with two decimals. -/
  | change (copy : ℕ) (holderName : String) (balance : Money)
  | saveAccount (copy : ℕ)
  | settle (instruction : PaymentInstruction) (packetHash bridgeNodeId : String)
      (hopCount : Number) (now : ℤ)

/-- What a caller learns of its call. -/
inductive ClientAnswer where
  | done
  | saved (account : Account)
  | recorded (row : Transaction)
  | threw (err : Error)

/-- The database with its clients. A save raises the version of the saved copy as
well; a save that throws has touched neither. -/
def sessions (platform : Platform) : Machine Session ClientEvent ClientAnswer where
  step session
    | .findAccountByVpa vpa =>
      match (InMemoryDb.findAccountByVpa vpa).run session.db with
      | (.ok (some account), db) => (.done, ⟨db, session.copies ++ [account]⟩)
      | (.ok none, db) => (.done, ⟨db, session.copies⟩)
      | (.error err, db) => (.threw err, ⟨db, session.copies⟩)
    | .findAllAccounts =>
      match InMemoryDb.findAllAccounts.run session.db with
      | (.ok accounts, db) => (.done, ⟨db, session.copies ++ accounts⟩)
      | (.error err, db) => (.threw err, ⟨db, session.copies⟩)
    | .change copy holderName balance =>
      (.done, { session with
        copies := session.copies.modify copy fun account =>
          { account with holderName, balance := balance.text } })
    | .saveAccount copy =>
      match session.copies[copy]? with
      | none => (.done, session)
      | some account =>
        match (InMemoryDb.saveAccount account).run session.db with
        | (.ok saved, db) => (.saved saved, ⟨db, session.copies.set copy saved⟩)
        | (.error err, db) => (.threw err, ⟨db, session.copies⟩)
    | .settle instruction packetHash bridgeNodeId hopCount now =>
      match (UpiOfflineMesh.settle platform instruction packetHash bridgeNodeId hopCount now).run
          session.db with
      | (.ok row, db) => (.recorded row, ⟨db, session.copies⟩)
      | (.error err, db) => (.threw err, ⟨db, session.copies⟩)

/-- One step of the clients with the sessions around it. -/
abbrev ClientStep := Transition Session ClientEvent ClientAnswer

/-- The step brought the copy in step with the database: it was read or saved. -/
def refreshes (copy : ℕ) (t : ClientStep) : Bool :=
  decide (t.before.copies.length ≤ copy ∧ copy < t.after.copies.length) ||
    match t.event, t.output with
    | .saveAccount other, .saved _ => other = copy
    | _, _ => false

/-- The step wrote the account of this address: a save that went through, or a
settlement that moved its money. -/
def writes (vpa : String) (t : ClientStep) : Bool :=
  match t.event, t.output with
  | .saveAccount _, .saved account => account.vpa = vpa
  | .settle .., .recorded row => row.status = .settled && (row.sentBy vpa || row.receivedBy vpa)
  | _, _ => false

/-! ### One step -/

section

variable {platform : Platform} {session : Session} {event : ClientEvent} {vpa : String}
  {stored : Account} {copy : ℕ}

/-- What a save of a copy does: nothing without a copy, a write when the stored
version is that of the copy or the address is new, and a throw otherwise. -/
theorem step_saveAccount {account : Account} (hcopy : session.copies[copy]? = some account) :
    (∃ existing, session.db.accounts.get account.vpa = some existing ∧
      existing.version = account.version ∧
      (sessions platform).step session (.saveAccount copy) =
        (.saved { account with version := account.version + 1 },
          ⟨{ session.db with accounts :=
              session.db.accounts.set { account with version := account.version + 1 } },
            session.copies.set copy { account with version := account.version + 1 }⟩)) ∨
    (∃ existing, session.db.accounts.get account.vpa = some existing ∧
      existing.version ≠ account.version ∧
      (sessions platform).step session (.saveAccount copy) =
        (.threw (optimisticLockException account.vpa), session)) ∨
    (session.db.accounts.get account.vpa = none ∧
      (sessions platform).step session (.saveAccount copy) =
        (.saved { account with version := 0 },
          ⟨{ session.db with accounts := session.db.accounts.set { account with version := 0 } },
            session.copies.set copy { account with version := 0 }⟩)) := by
  cases hget : session.db.accounts.get account.vpa with
  | none =>
    right; right
    refine ⟨rfl, ?_⟩
    simp only [sessions, hcopy, run_saveAccount_of_new hget]
  | some existing =>
    by_cases hversion : existing.version = account.version
    · left
      refine ⟨existing, rfl, hversion, ?_⟩
      simp only [sessions, hcopy, run_saveAccount_of_current hget hversion]
    · right; left
      refine ⟨existing, rfl, hversion, ?_⟩
      simp only [sessions, hcopy, run_saveAccount_of_stale hget hversion]

/-- What a step of the clients can do: it adds copies of stored accounts, assigns
fields of a copy, saves a copy, throws without a trace, records a rejection, or
moves money. -/
inductive StepEffect (session : Session) : ClientEvent → ClientAnswer → Session → Prop
  | done (event : ClientEvent) (added : List Account)
      (hstored : ∀ account ∈ added, session.db.accounts.get account.vpa = some account) :
      StepEffect session event .done ⟨session.db, session.copies ++ added⟩
  | changed (copy : ℕ) (holderName : String) (balance : Money) :
      StepEffect session (.change copy holderName balance) .done
        { session with
          copies := session.copies.modify copy fun account =>
            { account with holderName, balance := balance.text } }
  | threw (event : ClientEvent) (err : Error) : StepEffect session event (.threw err) session
  | saved (copy : ℕ) (account saved : Account) (hcopy : session.copies[copy]? = some account)
      (hvpa : saved.vpa = account.vpa)
      (hversion : ∀ existing, session.db.accounts.get account.vpa = some existing →
        saved.version = existing.version + 1) :
      StepEffect session (.saveAccount copy) (.saved saved)
        ⟨{ session.db with accounts := session.db.accounts.set saved }, session.copies.set copy saved⟩
  | rejected (instruction : PaymentInstruction) (packetHash bridgeNodeId : String)
      (hopCount : Number) (now : ℤ) (row : Transaction) (hstatus : row.status = .rejected) :
      StepEffect session (.settle instruction packetHash bridgeNodeId hopCount now) (.recorded row)
        ⟨session.db.insertRow row, session.copies⟩
  | settled (instruction : PaymentInstruction) (packetHash bridgeNodeId : String)
      (hopCount : Number) (now : ℤ) (row : Transaction) (hstatus : row.status = .settled)
      (sender receiver : Account) (amount : Number)
      (hsender : session.db.accounts.get sender.vpa = some sender)
      (hreceiver : session.db.accounts.get receiver.vpa = some receiver)
      (hsent : row.senderVpa = .str sender.vpa) (hreceived : row.receiverVpa = .str receiver.vpa) :
      StepEffect session (.settle instruction packetHash bridgeNodeId hopCount now) (.recorded row)
        ⟨(session.db.transfer sender receiver amount).insertRow row, session.copies⟩

/-- **Effect of a step,** for every session and every event. -/
theorem step_effect (platform : Platform) (session : Session) (event : ClientEvent) :
    StepEffect session event ((sessions platform).step session event).1
      ((sessions platform).next session event) := by
  unfold Machine.next
  have hnothing : ∀ event : ClientEvent, StepEffect session event .done session := by
    intro event
    have hdone : StepEffect session event .done ⟨session.db, session.copies ++ []⟩ :=
      .done event [] (by simp)
    rwa [List.append_nil] at hdone
  cases event with
  | findAccountByVpa address =>
    simp only [sessions, run_findAccountByVpa]
    cases hfound : session.db.accountOf address with
    | none => exact hnothing _
    | some found => exact .done _ [found] (by simpa using get_of_accountOf hfound)
  | findAllAccounts =>
    exact .done _ session.db.accounts.values fun account h => KeyedMap.get_key_of_mem _ h
  | change copy holderName balance => exact .changed copy holderName balance
  | saveAccount copy =>
    cases hcopy : session.copies[copy]? with
    | none =>
      simp only [sessions, hcopy]
      exact hnothing _
    | some account =>
      rcases @step_saveAccount platform session copy account hcopy with
        ⟨existing, hexisting, hversion, hstep⟩ | ⟨existing, _, _, hstep⟩ | ⟨hnew, hstep⟩
      · rw [hstep]
        refine .saved copy account _ hcopy rfl fun other hother => ?_
        obtain rfl : existing = other := Option.some.inj (hexisting.symm.trans hother)
        rw [hversion]
      · rw [hstep]
        exact .threw _ _
      · rw [hstep]
        refine .saved copy account _ hcopy rfl fun other hother => ?_
        simp [hnew] at hother
  | settle instruction packetHash bridgeNodeId hopCount now =>
    have heffect := @settle_effect platform session.db instruction packetHash bridgeNodeId hopCount
      now
    simp only [sessions]
    generalize (settle platform instruction packetHash bridgeNodeId hopCount now).run session.db =
      outcome at heffect ⊢
    obtain ⟨result, after⟩ := outcome
    cases heffect with
    | thrown err => exact .threw _ err
    | rejected hadmissible hfunds => exact .rejected _ _ _ _ _ _ rfl
    | @settled sender receiver amount signedAt hadmissible hfunds hne =>
      exact .settled _ _ _ _ _ _ rfl sender receiver amount
        (get_of_accountOf hadmissible.sender_known) (get_of_accountOf hadmissible.receiver_known)
        (eq_str_of_accountOf hadmissible.sender_known)
        (eq_str_of_accountOf hadmissible.receiver_known)

/-- A step either writes the account and raises its version by one, or leaves the
stored record as it is. -/
theorem stored_next (hget : session.db.accounts.get vpa = some stored) :
    (writes vpa ((sessions platform).transition session event) = true ∧
      ∃ stored', ((sessions platform).next session event).db.accounts.get vpa = some stored' ∧
        stored'.version = stored.version + 1) ∨
    (writes vpa ((sessions platform).transition session event) = false ∧
      ((sessions platform).next session event).db.accounts.get vpa = some stored) := by
  have heffect := step_effect platform session event
  simp only [writes, Machine.event_transition, Machine.output_transition]
  generalize ((sessions platform).step session event).1 = answer at heffect ⊢
  generalize (sessions platform).next session event = after at heffect ⊢
  cases heffect with
  | done => exact Or.inr ⟨by cases event <;> rfl, hget⟩
  | changed => exact Or.inr ⟨rfl, hget⟩
  | threw => exact Or.inr ⟨by cases event <;> rfl, hget⟩
  | saved copy account saved hcopy hvpa hversion =>
    simp only [decide_eq_true_eq, decide_eq_false_iff_not, KeyedMap.get_set]
    by_cases hsame : saved.vpa = vpa
    · left
      rw [if_pos hsame]
      rw [← hsame, hvpa] at hget
      exact ⟨hsame, saved, rfl, hversion stored hget⟩
    · right
      rw [if_neg hsame]
      exact ⟨hsame, hget⟩
  | rejected instruction packetHash bridgeNodeId hopCount now row hstatus =>
    exact Or.inr ⟨by simp [hstatus], hget⟩
  | settled instruction packetHash bridgeNodeId hopCount now row hstatus sender receiver amount
      hsender hreceiver hsent hreceived =>
    simp only [hstatus, Transaction.sentBy, Transaction.receivedBy, hsent, hreceived,
      Value.asText_str, Option.some.injEq, accounts_insertRow, get_transfer, decide_true,
      Bool.true_and, Bool.or_eq_true, decide_eq_true_eq, Bool.or_eq_false_iff,
      decide_eq_false_iff_not]
    by_cases hcredited : receiver.vpa = vpa
    · left
      subst hcredited
      obtain rfl : receiver = stored := Option.some.inj (hreceiver.symm.trans hget)
      exact ⟨Or.inr rfl, _, if_pos rfl, rfl⟩
    by_cases hdebited : sender.vpa = vpa
    · left
      subst hdebited
      obtain rfl : sender = stored := Option.some.inj (hsender.symm.trans hget)
      exact ⟨Or.inl rfl, _, by rw [if_neg hcredited, if_pos rfl], rfl⟩
    · right
      exact ⟨⟨hdebited, hcredited⟩, by rw [if_neg hcredited, if_neg hdebited, hget]⟩

/-- A step that does not refresh a copy leaves its address and version alone, and
refreshed copies are those that are new or were just saved. -/
theorem copy_next (h : refreshes copy ((sessions platform).transition session event) = false)
    {account : Account}
    (hcopy : ((sessions platform).next session event).copies[copy]? = some account) :
    ∃ before, session.copies[copy]? = some before ∧ account.vpa = before.vpa ∧
      account.version = before.version := by
  have heffect := step_effect platform session event
  rw [refreshes, Bool.or_eq_false_iff, decide_eq_false_iff_not] at h
  simp only [Machine.event_transition, Machine.output_transition, Machine.before_transition,
    Machine.after_transition] at h
  generalize ((sessions platform).step session event).1 = answer at heffect h
  generalize (sessions platform).next session event = after at heffect h hcopy
  obtain ⟨hread, hsaved⟩ := h
  cases heffect with
  | done =>
    -- Copies that a read adds are refreshed by it.
    have hlt := (List.getElem?_eq_some_iff.mp hcopy).1
    have hbefore : copy < session.copies.length := by
      by_contra hge
      exact hread ⟨not_lt.mp hge, hlt⟩
    rw [List.getElem?_append_left hbefore] at hcopy
    exact ⟨account, hcopy, rfl, rfl⟩
  | changed other holderName balance =>
    rw [List.getElem?_modify] at hcopy
    obtain ⟨before, hbefore, heq⟩ := Option.map_eq_some_iff.mp hcopy
    refine ⟨before, hbefore, ?_, ?_⟩
    · rw [← heq]
      split <;> rfl
    · rw [← heq]
      split <;> rfl
  | threw => exact ⟨account, hcopy, rfl, rfl⟩
  | saved other =>
    -- A save refreshes its own copy and keeps the others.
    rw [List.getElem?_set_ne (by simpa using hsaved)] at hcopy
    exact ⟨account, hcopy, rfl, rfl⟩
  | rejected => exact ⟨account, hcopy, rfl, rfl⟩
  | settled => exact ⟨account, hcopy, rfl, rfl⟩

/-- A copy that was just refreshed is the record that is stored. -/
theorem stored_of_refreshes
    (h : refreshes copy ((sessions platform).transition session event) = true) :
    ∃ had, ((sessions platform).next session event).copies[copy]? = some had ∧
      ((sessions platform).next session event).db.accounts.get had.vpa = some had := by
  have heffect := step_effect platform session event
  rw [refreshes, Bool.or_eq_true, decide_eq_true_iff] at h
  simp only [Machine.event_transition, Machine.output_transition, Machine.before_transition,
    Machine.after_transition] at h
  generalize ((sessions platform).step session event).1 = answer at heffect h
  generalize (sessions platform).next session event = after at heffect h ⊢
  -- A step that adds no copies has refreshed none by reading.
  have hnone : after.copies.length = session.copies.length →
      ¬(session.copies.length ≤ copy ∧ copy < after.copies.length) := by
    rintro hlength ⟨hle, hlt⟩
    omega
  cases heffect with
  | done _ added hstored =>
    rcases h with hread | hsaved
    · rw [List.length_append] at hread
      rw [List.getElem?_append_right hread.1,
        List.getElem?_eq_getElem (by omega : copy - session.copies.length < added.length)]
      exact ⟨_, rfl, hstored _ (List.getElem_mem _)⟩
    · cases event <;> cases hsaved
  | changed =>
    rcases h with hread | hsaved
    · exact absurd hread (hnone (List.length_modify _ _ _))
    · cases hsaved
  | threw =>
    rcases h with hread | hsaved
    · exact absurd hread (hnone rfl)
    · cases event <;> cases hsaved
  | saved other account saved hcopy =>
    rcases h with hread | hsaved
    · exact absurd hread (hnone List.length_set)
    · obtain rfl : other = copy := of_decide_eq_true hsaved
      have hlt := (List.getElem?_eq_some_iff.mp hcopy).1
      exact ⟨saved, List.getElem?_set_self hlt, KeyedMap.get_set_self _ _⟩
  | rejected =>
    rcases h with hread | hsaved
    · exact absurd hread (hnone rfl)
    · cases hsaved
  | settled =>
    rcases h with hread | hsaved
    · exact absurd hread (hnone rfl)
    · cases hsaved

end

/-! ### Runs -/

section

variable {platform : Platform} {session : Session} {events : List ClientEvent}

/-- Over a run the stored version counts the writes, and without any the stored
record stays as it was. -/
theorem stored_final {vpa : String} {stored : Account}
    (hget : session.db.accounts.get vpa = some stored) :
    ∃ stored', ((sessions platform).final session events).db.accounts.get vpa = some stored' ∧
      stored'.version = stored.version +
        ((sessions platform).transitions session events).countP (writes vpa) ∧
      (((sessions platform).transitions session events).countP (writes vpa) = 0 →
        stored' = stored) := by
  induction events generalizing session stored with
  | nil => exact ⟨stored, hget, rfl, fun _ => rfl⟩
  | cons event events ih =>
    rw [Machine.final_cons, Machine.transitions_cons, List.countP_cons]
    rcases @stored_next platform session event vpa stored hget with
      ⟨hwrites, next, hnext, hversion⟩ | ⟨hquiet, hnext⟩
    · obtain ⟨stored', hget', hcount, _⟩ := ih hnext
      refine ⟨stored', hget', ?_, ?_⟩
      · rw [hcount, hversion, if_pos hwrites]
        omega
      · rw [if_pos hwrites]
        omega
    · obtain ⟨stored', hget', hcount, hsame⟩ := ih hnext
      simp only [hquiet, Bool.false_eq_true, if_false, Nat.add_zero]
      exact ⟨stored', hget', hcount, hsame⟩

/-- Over a run that does not refresh it, a copy keeps address and version. -/
theorem copy_final {copy : ℕ} {account had : Account}
    (hhad : session.copies[copy]? = some had)
    (hquiet : ∀ t ∈ (sessions platform).transitions session events, refreshes copy t = false)
    (hcopy : ((sessions platform).final session events).copies[copy]? = some account) :
    account.vpa = had.vpa ∧ account.version = had.version := by
  induction events using List.reverseRecOn generalizing account with
  | nil =>
    obtain rfl : had = account := Option.some.inj (hhad.symm.trans hcopy)
    exact ⟨rfl, rfl⟩
  | append_singleton events event ih =>
    rw [Machine.transitions_append] at hquiet
    rw [Machine.final_append] at hcopy
    obtain ⟨before, hbefore, hvpa, hversion⟩ :=
      copy_next (hquiet _ (List.mem_append_right _ List.mem_cons_self)) hcopy
    obtain ⟨hvpa', hversion'⟩ := ih (fun t ht => hquiet t (List.mem_append_left _ ht)) hbefore
    exact ⟨hvpa.trans hvpa', hversion.trans hversion'⟩

end

/-- A save went through: the record it replaced is the one that the client had, it now
holds what the client wrote with the version raised by one, and nothing else changed. -/
structure SaveSucceeded (platform : Platform) (session : Session) (copy : ℕ)
    (had account : Account) : Prop where
  answer_eq : ((sessions platform).step session (.saveAccount copy)).1 =
    .saved { account with version := had.version + 1 }
  replaced : session.db.accounts.get account.vpa = some had
  db_eq : ((sessions platform).next session (.saveAccount copy)).db =
    { session.db with
      accounts := session.db.accounts.set { account with version := had.version + 1 } }

/-- The last step of a run that read or saved a copy: the session right after it, the
events that followed, and the record that the client had then. -/
structure LastRefresh (platform : Platform) (start : Session) (events : List ClientEvent)
    (copy : ℕ) (since : Session) (later : List ClientEvent) (had : Account) : Prop where
  refreshed : ∃ earlier event, events = earlier ++ event :: later ∧
    since = (sessions platform).next ((sessions platform).final start earlier) event ∧
    refreshes copy
      ((sessions platform).transition ((sessions platform).final start earlier) event) = true
  quiet : ∀ t ∈ (sessions platform).transitions since later, refreshes copy t = false
  had_eq : since.copies[copy]? = some had

/-- Every copy that a client holds goes back to a last refresh, at which it was the
stored record. -/
theorem exists_lastRefresh {platform : Platform} {db : InMemoryDb} {events : List ClientEvent}
    {copy : ℕ} {account : Account}
    (hcopy : ((sessions platform).final ⟨db, []⟩ events).copies[copy]? = some account) :
    ∃ since later had, LastRefresh platform ⟨db, []⟩ events copy since later had ∧
      since.db.accounts.get had.vpa = some had ∧
      (sessions platform).final ⟨db, []⟩ events = (sessions platform).final since later := by
  have hcause : ∀ (session : Session) (event : ClientEvent),
      (∃ account, ((sessions platform).next session event).copies[copy]? = some account) →
        ¬(∃ account, session.copies[copy]? = some account) →
          refreshes copy ((sessions platform).transition session event) = true := by
    rintro session event ⟨account, hafter⟩ hbefore
    by_contra hquiet
    obtain ⟨before, hold, _⟩ := copy_next (Bool.eq_false_of_not_eq_true hquiet) hafter
    exact hbefore ⟨before, hold⟩
  obtain ⟨earlier, event, later, rfl, hrefreshes, hquiet⟩ :=
    Machine.exists_last_firing
      (P := fun session : Session => ∃ account, session.copies[copy]? = some account) hcause
      (by simp) ⟨account, hcopy⟩
  obtain ⟨had, hhad, hstored⟩ := stored_of_refreshes hrefreshes
  refine ⟨_, later, had, ⟨⟨earlier, event, rfl, rfl, hrefreshes⟩, hquiet, hhad⟩, hstored, ?_⟩
  rw [Machine.final_append, Machine.final_cons]

/-- **No lost update.** Take any run of clients and settlements on any database, and
any copy that a client then holds. It goes back to a last step that read the copy or
saved it; the client had the stored record then, and has the version of it still. If
no step since then has written the account, saving the copy goes through and replaces
exactly that record, raising its version by one; if one has, the save throws and
changes nothing. -/
theorem no_lost_update (platform : Platform) (db : InMemoryDb) (events : List ClientEvent)
    (copy : ℕ) (account : Account)
    (hcopy : ((sessions platform).final ⟨db, []⟩ events).copies[copy]? = some account) :
    ∃ since later had, LastRefresh platform ⟨db, []⟩ events copy since later had ∧
      account.vpa = had.vpa ∧ account.version = had.version ∧
      ((∀ t ∈ (sessions platform).transitions since later, writes account.vpa t = false) →
        SaveSucceeded platform ((sessions platform).final ⟨db, []⟩ events) copy had account) ∧
      ((∃ t ∈ (sessions platform).transitions since later, writes account.vpa t = true) →
        ∃ err, (sessions platform).step ((sessions platform).final ⟨db, []⟩ events)
          (.saveAccount copy) = (.threw err, (sessions platform).final ⟨db, []⟩ events)) := by
  obtain ⟨since, later, had, hlast, hstored, hend⟩ := exists_lastRefresh hcopy
  rw [hend] at hcopy ⊢
  obtain ⟨hvpa, hversion⟩ := copy_final hlast.had_eq hlast.quiet hcopy
  obtain ⟨stored, hget, hcount, hsame⟩ := @stored_final platform since later had.vpa had hstored
  rw [← hvpa] at hget hcount hsame
  refine ⟨since, later, had, hlast, hvpa, hversion, fun hunwritten => ?_, fun hwritten => ?_⟩
  · obtain rfl : stored = had := by
      refine hsame (List.countP_eq_zero.mpr fun t ht => ?_)
      simp [hunwritten t ht]
    rcases @step_saveAccount platform _ copy account hcopy with
      ⟨existing, hexisting, _, hstep⟩ | ⟨existing, hexisting, hne, _⟩ | ⟨hnew, _⟩
    · rw [hversion] at hstep
      exact ⟨by rw [hstep], hget, by rw [Machine.next, hstep]⟩
    · obtain rfl : existing = stored := Option.some.inj (hexisting.symm.trans hget)
      exact absurd hversion.symm hne
    · simp [hnew] at hget
  · have hpositive := List.countP_pos_iff.mpr hwritten
    rcases @step_saveAccount platform _ copy account hcopy with
      ⟨existing, hexisting, heq, _⟩ | ⟨existing, _, _, hstep⟩ | ⟨hnew, _⟩
    · obtain rfl : existing = stored := Option.some.inj (hexisting.symm.trans hget)
      omega
    · exact ⟨_, hstep⟩
    · simp [hnew] at hget

/-- Two clients read Alice's account, and the first one changes and saves it. -/
def twoClients : List ClientEvent :=
  [.findAccountByVpa (.str "alice@demo"), .findAccountByVpa (.str "alice@demo"),
    .change 0 "Alice" (.inl (.fin 4000)), .saveAccount 0]

/-- The second client's copy goes back to its own read, and a write since then makes
its save throw. -/
theorem no_lost_update_twoClients :
    ∃ since later had, LastRefresh utcPlatform ⟨seededDb, []⟩ twoClients 1 since later had ∧
      ((∃ t ∈ (sessions utcPlatform).transitions since later, writes "alice@demo" t = true) →
        ∃ err, (sessions utcPlatform).step ((sessions utcPlatform).final ⟨seededDb, []⟩ twoClients)
          (.saveAccount 1) =
            (.threw err, (sessions utcPlatform).final ⟨seededDb, []⟩ twoClients)) := by
  obtain ⟨since, later, had, hlast, _, _, _, hthrows⟩ := no_lost_update utcPlatform seededDb
    twoClients 1 ⟨"alice@demo", "Alice", "5000.00", 0⟩ (by decide +kernel)
  exact ⟨since, later, had, hlast, hthrows⟩

end UpiOfflineMesh
