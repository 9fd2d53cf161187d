import UpiOfflineMesh.Relational
import UpiOfflineMesh.SettlementService

/-!
# Settlement on two databases

`settle` looks at the addresses, the amount and the signing time of an instruction, and
hands everything else on to the ledger row. Two calls that agree on what is looked at
therefore run alike on databases with equal accounts, provided that their writes of the
row do. How the two ledgers are related is left open.
-/

namespace UpiOfflineMesh

open Js InMemoryDb

/-- Instructions that differ at most in PIN hash and nonce. -/
structure PaymentInstruction.SamePayment (instruction instruction' : PaymentInstruction) :
    Prop where
  senderVpa : instruction.senderVpa = instruction'.senderVpa
  receiverVpa : instruction.receiverVpa = instruction'.receiverVpa
  amount : instruction.amount = instruction'.amount
  signedAt : instruction.signedAt = instruction'.signedAt

theorem PaymentInstruction.SamePayment.refl (instruction : PaymentInstruction) :
    instruction.SamePayment instruction :=
  ⟨rfl, rfl, rfl, rfl⟩

/-- A relation between databases under which the accounts are equal, and which survives
equal writes to the accounts and the rollback of both sides. -/
structure EqualAccounts (S : InMemoryDb → InMemoryDb → Prop) : Prop where
  accounts_eq : ∀ {db db'}, S db db' → db.accounts = db'.accounts
  setAccounts : ∀ {db db'}, S db db' → ∀ accounts,
    S { db with accounts := accounts } { db' with accounts := accounts }
  rollback : ∀ {db db' after after'}, S db db' → S after after' →
    S { db with transactions := setLength after.transactions db.transactions.length }
      { db' with transactions := setLength after'.transactions db'.transactions.length }

section

variable {S : InMemoryDb → InMemoryDb → Prop} {E : Error → Error → Prop} {α α' : Type}
  {R : α → α' → Prop} {arith : Arithmetic} {platform : Platform}
  {instruction instruction' : PaymentInstruction} {packetHash packetHash' : String}
  {bridgeNodeId bridgeNodeId' : String} {hopCount hopCount' : Number} {now : ℤ}

theorem lift_alike (hE : ∀ err, E err err) (x : Except Error α) :
    RunsAlike S E Eq (liftM x : DbM α) (liftM x) :=
  .lift (Outcomes.refl.mono (fun err _ h => h ▸ hE err) fun _ _ h => h)

theorem findAccountByVpa_alike (hS : EqualAccounts S) (vpa : Value) :
    RunsAlike S E Eq (findAccountByVpa vpa) (findAccountByVpa vpa) := by
  refine RunsAlike.bind .get fun db db' hdb => .pure ?_
  rw [accountOf, accountOf, hS.accounts_eq hdb]

theorem saveAccount_alike (hS : EqualAccounts S) (hE : ∀ err, E err err) (account : Account) :
    RunsAlike S E Eq (saveAccount account) (saveAccount account) := by
  refine RunsAlike.bind .get fun db db' hdb => ?_
  have hset : ∀ saved : Account,
      S { db with accounts := db'.accounts.set saved }
        { db' with accounts := db'.accounts.set saved } :=
    fun saved => hS.setAccounts hdb _
  rw [hS.accounts_eq hdb]
  cases db'.accounts.get account.vpa with
  | none => exact .bind (.set (hset _)) fun _ _ _ => .pure rfl
  | some existing =>
    exact .ite Iff.rfl (.throw (hE _)) (.bind (.set (hset _)) fun _ _ _ => .pure rfl)

theorem throwUnknown_alike (hE : ∀ err, E err err) (role : String) (vpa : Value) :
    RunsAlike S E R (throwUnknown platform role vpa) (throwUnknown platform role vpa) :=
  .bind (lift_alike hE _) fun _ _ htext => htext ▸ .throw (hE _)

/-- A transaction keeps both sides, or rolls both back. -/
theorem runTransaction_alike (hS : EqualAccounts S) {callback : DbM α} {callback' : DbM α'}
    (h : RunsAlike S E R callback callback') :
    RunsAlike S E R (runTransaction callback) (runTransaction callback') := by
  intro db db' hdb
  obtain ⟨houtcomes, hafter⟩ := h hdb
  cases hrun : callback.run db with
  | mk outcome after =>
  cases hrun' : callback'.run db' with
  | mk outcome' after' =>
  rw [hrun, hrun'] at houtcomes hafter
  cases houtcomes with
  | ok hresult =>
    rw [run_runTransaction_of_ok hrun, run_runTransaction_of_ok hrun']
    exact ⟨.ok hresult, hafter⟩
  | error herr =>
    rw [run_runTransaction_rollback (congrArg Prod.fst hrun),
      run_runTransaction_rollback (congrArg Prod.fst hrun'), hrun, hrun']
    exact ⟨.error herr, hS.rollback hdb hafter⟩

/-- Writes of the row run alike when the ledgers take its data alike. -/
theorem writeRowWith_alike {T : Transaction → Transaction → Prop} (hE : ∀ err, E err err)
    (hsame : instruction.SamePayment instruction') {amount : Number} {status : TransactionStatus}
    (hsave : ∀ signedAt, RunsAlike S E T
      (saveTransactionWith arith (ledgerData instruction packetHash bridgeNodeId hopCount amount
        signedAt now status))
      (saveTransactionWith arith (ledgerData instruction' packetHash' bridgeNodeId' hopCount' amount
        signedAt now status))) :
    RunsAlike S E T
      (writeRowWith arith platform instruction packetHash bridgeNodeId hopCount amount now status)
      (writeRowWith arith platform instruction' packetHash' bridgeNodeId' hopCount' amount now
        status) := by
  unfold writeRowWith
  rw [← hsame.signedAt]
  refine .bind (lift_alike hE _) fun date _ hdate => ?_
  subst hdate
  refine .bind (lift_alike hE _) fun signedAt _ hsignedAt => ?_
  subst hsignedAt
  exact hsave signedAt

/-- **The callback looks at the payment and the accounts only.** -/
theorem settleCallbackWith_alike {T : Transaction → Transaction → Prop} (hS : EqualAccounts S)
    (hE : ∀ err, E err err) (hsame : instruction.SamePayment instruction')
    (hsave : ∀ amount signedAt status, RunsAlike S E T
      (saveTransactionWith arith (ledgerData instruction packetHash bridgeNodeId hopCount amount
        signedAt now status))
      (saveTransactionWith arith (ledgerData instruction' packetHash' bridgeNodeId' hopCount' amount
        signedAt now status))) :
    RunsAlike S E T
      (settleCallbackWith arith platform instruction packetHash bridgeNodeId hopCount now)
      (settleCallbackWith arith platform instruction' packetHash' bridgeNodeId' hopCount' now) := by
  unfold settleCallbackWith recordRejectedWith
  rw [← hsame.senderVpa, ← hsame.receiverVpa, ← hsame.amount]
  refine .bind (findAccountByVpa_alike hS _) fun sender _ hsender => ?_
  subst hsender
  cases sender with
  | none => exact throwUnknown_alike hE _ _
  | some sender =>
  refine .bind (findAccountByVpa_alike hS _) fun receiver _ hreceiver => ?_
  subst hreceiver
  cases receiver with
  | none => exact throwUnknown_alike hE _ _
  | some receiver =>
  refine .bind (lift_alike hE _) fun amount _ hamount => ?_
  subst hamount
  refine .ite Iff.rfl (.throw (hE _)) (.ite Iff.rfl ?_ ?_)
  · refine .bind (lift_alike hE _) fun amount _ hamount => ?_
    subst hamount
    exact writeRowWith_alike hE hsame fun signedAt => hsave _ signedAt _
  · refine .bind (saveAccount_alike hS hE _) fun _ _ _ => ?_
    refine .bind (saveAccount_alike hS hE _) fun _ _ _ => ?_
    exact writeRowWith_alike hE hsame fun signedAt => hsave _ signedAt _

/-- The whole of `settle`, with its transaction. -/
theorem settleWith_alike {T : Transaction → Transaction → Prop} (hS : EqualAccounts S)
    (hE : ∀ err, E err err) (hsame : instruction.SamePayment instruction')
    (hsave : ∀ amount signedAt status, RunsAlike S E T
      (saveTransactionWith arith (ledgerData instruction packetHash bridgeNodeId hopCount amount
        signedAt now status))
      (saveTransactionWith arith (ledgerData instruction' packetHash' bridgeNodeId' hopCount' amount
        signedAt now status))) :
    RunsAlike S E T
      (settleWith arith platform instruction packetHash bridgeNodeId hopCount now)
      (settleWith arith platform instruction' packetHash' bridgeNodeId' hopCount' now) :=
  runTransaction_alike hS (settleCallbackWith_alike hS hE hsame hsave)

end

end UpiOfflineMesh
