import UpiOfflineMesh.Js.Literal
import UpiOfflineMesh.SettlementRules

/-!
# Amounts written as text

An amount that arrives as a text reaches `settle` as it is, and `settle` reads it with
`parseFloat`, which ignores whatever follows the numeral at its front. A text that is a
numeral as a whole is the amount compared, recorded and moved. A text with more behind
its numeral is refused only if some other check refuses the payment.
-/

namespace UpiOfflineMesh

open Js InMemoryDb

/-- The outcome of a call on an instruction with this text for its amount. If the call
has appended a row, the whole text is a numeral, and what it denotes is the amount that
was compared with the balance, recorded and moved; on any other text it has thrown. -/
structure AmountAsWritten (platform : Platform) (db : InMemoryDb) (instruction : PaymentInstruction)
    (packetHash text : String) (result : Except Error Transaction) (after : InMemoryDb) : Prop where
  appended : ∀ row, result = .ok row → ∃ amount sender receiver, IsNumeral text amount ∧
    row.amount = amount.toFixed2 ∧
      Executed platform db after instruction packetHash sender receiver amount row
  thrown : (¬∃ amount, IsNumeral text amount) → ∃ err, result = .error err

/-- Every check of `settle` passes: the instruction is admissible, and it lacks funds or
pays another account. -/
def PassesChecks (platform : Platform) (db : InMemoryDb) (instruction : PaymentInstruction)
    (packetHash : String) : Prop :=
  ∃ sender receiver amount signedAt,
    Admissible platform db instruction packetHash sender receiver amount signedAt ∧
      (sender.getBalanceAsNumber.lt amount = true ∨ sender.vpa ≠ receiver.vpa)

/-- An executed call has taken the amount as written exactly when the text is a numeral. -/
theorem amountAsWritten_of_executed {platform : Platform} {db after : InMemoryDb}
    {instruction : PaymentInstruction} {packetHash text : String} {sender receiver : Account}
    {amount : Number} {row : Transaction} (htext : instruction.amount = .str text)
    (hrow : row.amount = amount.toFixed2)
    (hexecuted : Executed platform db after instruction packetHash sender receiver amount row) :
    AmountAsWritten platform db instruction packetHash text (.ok row) after ↔
      ∃ amount, IsNumeral text amount := by
  have hread : parseFloat text = amount := by
    have hamount : instruction.amount.parseFloat platform = .ok amount := hexecuted.amount_read
    rw [htext, Value.parseFloat_str] at hamount
    exact Except.ok.inj hamount
  constructor
  · intro h
    obtain ⟨x, _, _, hnumeral, _⟩ := h.appended row rfl
    exact ⟨x, hnumeral⟩
  · rintro ⟨x, hnumeral⟩
    obtain rfl : x = amount := hnumeral.parseFloat_eq.symm.trans hread
    refine ⟨fun row' hrow' => ?_, fun hnone => absurd ⟨x, hnumeral⟩ hnone⟩
    obtain rfl := Except.ok.inj hrow'
    exact ⟨x, sender, receiver, hnumeral, hrow, hexecuted⟩

/-- **When the amount moved is the amount written.** For every database and every
instruction whose amount is a text, `settle` takes it as written exactly when the whole
text is a numeral, up to white space around it, or the payment is refused for another
reason: unknown accounts, no positive number at the front of the text, an invalid date,
a recorded hash, or a covered payment to oneself. -/
theorem amount_as_written_iff (platform : Platform) (db : InMemoryDb)
    (senderVpa receiverVpa pinHash nonce signedAt : Value) (text packetHash bridgeNodeId : String)
    (hopCount : Number) (now : ℤ) :
    AmountAsWritten platform db
        (.ofFields senderVpa receiverVpa (.str text) pinHash nonce signedAt) packetHash text
        ((settle platform (.ofFields senderVpa receiverVpa (.str text) pinHash nonce signedAt)
          packetHash bridgeNodeId hopCount now).run db).1
        ((settle platform (.ofFields senderVpa receiverVpa (.str text) pinHash nonce signedAt)
          packetHash bridgeNodeId hopCount now).run db).2 ↔
      (∃ amount, IsNumeral text amount) ∨
        ¬PassesChecks platform db
          (.ofFields senderVpa receiverVpa (.str text) pinHash nonce signedAt) packetHash := by
  have htext : (PaymentInstruction.ofFields senderVpa receiverVpa (.str text) pinHash nonce
      signedAt).amount = .str text := rfl
  generalize PaymentInstruction.ofFields senderVpa receiverVpa (.str text) pinHash nonce signedAt =
    instruction at htext ⊢
  have heffect := @settle_effect platform db instruction packetHash bridgeNodeId hopCount now
  generalize (settle platform instruction packetHash bridgeNodeId hopCount now).run db = outcome
    at heffect ⊢
  obtain ⟨result, after⟩ := outcome
  cases heffect with
  | thrown err hwhy =>
    refine iff_of_true ⟨by simp, fun _ => ⟨err, rfl⟩⟩ (Or.inr ?_)
    rintro ⟨sender, receiver, amount, date, hadmissible, hpays⟩
    obtain ⟨hcovered, hsame⟩ := hwhy _ _ _ _ hadmissible
    rcases hpays with hfunds | hne
    · simp [hcovered] at hfunds
    · exact hne hsame
  | @rejected sender receiver amount date hadmissible hfunds =>
    have hpasses : PassesChecks platform db instruction packetHash :=
      ⟨sender, receiver, amount, date, hadmissible, Or.inl hfunds⟩
    rw [or_iff_left (not_not.mpr hpasses)]
    exact amountAsWritten_of_executed htext rfl (hadmissible.executed_rejected hfunds)
  | @settled sender receiver amount date hadmissible hfunds hne =>
    have hpasses : PassesChecks platform db instruction packetHash :=
      ⟨sender, receiver, amount, date, hadmissible, Or.inr hne⟩
    rw [or_iff_left (not_not.mpr hpasses)]
    exact amountAsWritten_of_executed htext rfl (hadmissible.executed_settled hfunds hne)

/-- Alice's payment of `1,000.00` to Bob settles as a payment of one rupee. -/
theorem thousand_settles_as_one :
    ((settle utcPlatform (alicePaysBob (.str "1,000.00") (.num (.fin 1000))) "c1" "bridge-1"
        (.fin 2) 2000).run seededDb).1.toOption.map (fun row => (row.status, row.amount)) =
      some (.settled, "1.00") ∧
    ¬AmountAsWritten utcPlatform seededDb (alicePaysBob (.str "1,000.00") (.num (.fin 1000))) "c1"
      "1,000.00"
      ((settle utcPlatform (alicePaysBob (.str "1,000.00") (.num (.fin 1000))) "c1" "bridge-1"
        (.fin 2) 2000).run seededDb).1
      ((settle utcPlatform (alicePaysBob (.str "1,000.00") (.num (.fin 1000))) "c1" "bridge-1"
        (.fin 2) 2000).run seededDb).2 := by
  have hsettled : ((settle utcPlatform (alicePaysBob (.str "1,000.00") (.num (.fin 1000))) "c1"
      "bridge-1" (.fin 2) 2000).run seededDb).1.toOption.map
        (fun row => (row.status, row.amount)) = some (.settled, "1.00") := by
    decide +kernel
  refine ⟨hsettled, fun h => ?_⟩
  obtain ⟨err, herr⟩ := h.thrown (by decide +kernel)
  rw [herr] at hsettled
  cases hsettled

end UpiOfflineMesh
