import WalletApi.Safety.Completion

/-!
What a repeated funding request is answered.

A key that has been used finds its transfer, and the request is answered from it
without a look at how far its creation has come. If the first request has failed on
the way, or is still on its way, the answer has no checkout link. The answers that
are complete are exactly those given after the creation has been carried through to
its last update.
-/

namespace WalletApi

open Concurrency World Schedule

variable {P : Platform} {config : Config} {i : ℕ} {ch : Choice}
  {cfg cfg' : Machine.Config (walletApi P config)}

/-- The transfer can be paid, and its one credit waits for the money. -/
def FundingComplete (d : Db) (transfer : TransferSummary) : Prop :=
  transfer.checkoutUrl.isSome ∧ ∃ r, d.walletTransactions.filter
    (fun r => r.type = .credit ∧ r.transferId = some transfer.id) = [r] ∧ r.amount = transfer.amount

/-- The transfer of the user with the key has been created to the end. -/
def World.CarriedThrough (s : World) (userId key : String) : Prop :=
  ∃ t ∈ s.db.transfers, t.userId = userId ∧ t.idempotencyKey = key ∧ s.Initiated t.id

/-- A transfer has a checkout link if it has been created to the end. -/
theorem isSome_iff_initiated {s : World} (h : s.FundingOk) (hu : s.db.Unique) {t : Transfer}
    (ht : t ∈ s.db.transfers) : t.checkoutUrl.isSome ↔ s.Initiated t.id := by
  rw [h.initiated]
  constructor
  · exact fun hurl => ⟨t, ht, rfl, hurl⟩
  · rintro ⟨t', ht', hid, hurl⟩
    rw [← hu.transfer_ext ht' ht hid]
    exact hurl

/-- The request that the schedules repeat. -/
def fundingRequest : Call :=
  .postTransfers ⟨"u1"⟩ (some idempotencyKey)
    { amount := 2000
      pin := toBob.pin
      amount_min := by decide
      amount_max := by decide
      pin_digits := toBob.pin_digits }

/-- The call is that request. -/
def Call.isFundingRequest : Call → Bool
  | postTransfers actor header dto =>
      decide (actor.userId = "u1" ∧ header = some idempotencyKey ∧ dto.amount = 2000 ∧
        dto.currency = none ∧ dto.pin = toBob.pin)
  | _ => false

theorem eq_fundingRequest {call : Call} (h : call.isFundingRequest = true) :
    call = fundingRequest := by
  cases call with
  | postTransfers actor header dto =>
      obtain ⟨huser, hheader, hamount, hcurrency, hpin⟩ := of_decide_eq_true h
      obtain ⟨userId⟩ := actor
      obtain ⟨amount, currency, pin, _, _, _⟩ := dto
      cases huser
      cases hheader
      cases hamount
      cases hcurrency
      cases hpin
      rfl
  | _ => cases h

/-- The request has failed. -/
def fundingFails (o : Option (Call × Except Err Response)) : Bool :=
  match o with
  | some (call, .error _) => call.isFundingRequest
  | _ => false

/-- What the request has been answered, if it has succeeded. -/
def fundingAnswer (o : Option (Call × Except Err Response)) : Option TransferResponse :=
  match o with
  | some (call, .ok (.transfer response)) => if call.isFundingRequest then some response else none
  | _ => none

theorem ended_of_fundingFails {o : Option (Call × Except Err Response)}
    (h : fundingFails o = true) : ∃ e, o = some (fundingRequest, .error e) := by
  unfold fundingFails at h
  split at h
  · rename_i call e
    exact ⟨e, by rw [eq_fundingRequest h]⟩
  · cases h

theorem ended_of_fundingAnswer {o : Option (Call × Except Err Response)}
    {response : TransferResponse} (h : fundingAnswer o = some response) :
    o = some (fundingRequest, .ok (.transfer response)) := by
  unfold fundingAnswer at h
  split at h
  · split at h
    · rename_i hcall
      rw [eq_fundingRequest hcall, Option.some.inj h]
    · cases h
  · cases h

/-- Ada asks for a funding; the next step asks the provider for a checkout link. -/
def fundingOpened : List (Machine.Action (walletApi platform liveConfig)) :=
  register 0 "ada" "u1" "w1" ++ createPin 1 "u1" ++ .spawn 2 fundingRequest :: calm 2 5 ++
    generate 2 ["f", "t1"] ++ calm 2 5 ++ generate 2 ["r1"] ++ calm 2 2

/-- She asks again; the next step looks the key up. -/
def askAgain : List (Machine.Action (walletApi platform liveConfig)) :=
  .spawn 3 fundingRequest :: calm 3 2

end WalletApi
