import WalletApi.Runs.Throws

/-!
Which call asks the provider what.

Each of the four questions that the adapters can put to the provider has one place in
the code: a payment is initiated by a request for a transfer, verified by the worker
that completes it, and a bank transfer is initiated by the payout worker and looked up
by the settle worker. Everything else is settled by the services among themselves, so
an answer of the provider can be traced to the call that has asked. The same is true
of one lookup, that of the credits of a transfer.
-/

namespace WalletApi

open Concurrency

/-- Commands that do not belong to a particular call. -/
def Cmd.usual : Cmd → Bool
  | .initiatePayment _ | .verifyByTxRef _ | .initiateBankTransfer _ | .getBankTransferStatus _ =>
      false
  | .select _ (.walletTransactionsByTransferId _) => false
  | _ => true

/-- The commands of which the program of a call consists. -/
def Call.consults : Call → Cmd → Prop
  | .postTransfers .., .initiatePayment _ => True
  | .transferCompleteWorker, .verifyByTxRef _ => True
  | .transferCompleteWorker, .select .pool (.walletTransactionsByTransferId _) => True
  | .withdrawalPayoutWorker, .initiateBankTransfer _ => True
  | .withdrawalSettleWorker, .getBankTransferStatus _ => True
  | _, c => c.usual = true

theorem Call.consults_of_usual (call : Call) {c : Cmd} (h : c.usual = true) :
    call.consults c := by
  unfold consults
  split
  · trivial
  · trivial
  · trivial
  · trivial
  · trivial
  · exact h

theorem Cmd.usual_of_common {c : Cmd} (h : c.common = true) : c.usual = true := by
  unfold Cmd.common at h
  split at h
  · cases h
  · cases h
  · cases h
  · cases h
  · cases h
  · cases h
  · cases h
  · cases h
  · cases h
  · unfold Cmd.usual
    split
    all_goals simp_all

/-! ### The calls -/

/-- The program of a call puts no other question to the provider than it should. -/
theorem program_consults {P : Platform} {config : Config} {call : Call}
    (hcall : call.isApi = true) : (program P config call).Within call.consults := by
  have husual {c : Cmd} (h : c.usual = true) : call.consults c := call.consults_of_usual h
  have hC (c : Cmd) (h : c.common = true) : call.consults c := husual (Cmd.usual_of_common h)
  cases call with
  | register dto => exact .map (within_register hC fun _ _ _ => husual rfl)
  | login dto => exact .map (within_login hC (fun _ => husual rfl) fun _ _ _ => husual rfl)
  | createPin actor dto =>
      exact .map (within_createPin hC (fun _ => husual rfl) fun _ _ => husual rfl)
  | getWallet actor =>
      exact .map (.bind (within_common hC rfl) fun _ => .bind within_orThrow fun _ =>
        .bind (within_common hC rfl) fun _ => .ret)
  | listWalletTransactions actor query =>
      exact .map (.bind (within_common hC rfl) fun _ => .bind within_orThrow fun _ =>
        .bind (within_common hC rfl) fun _ => .ret)
  | postTransfers actor header dto =>
      exact .bind within_ofExcept fun _ => .map (within_createTransfer hC (fun _ => husual rfl)
        (fun _ _ => husual rfl) (fun _ _ _ => husual rfl) (fun _ _ => husual rfl)
        (fun _ => trivial) fun _ _ _ _ _ => husual rfl)
  | getTransfer actor id =>
      exact .map (.bind (within_common hC rfl) fun _ => .bind within_orThrow fun _ => .ret)
  | postWithdrawals actor header dto =>
      refine .bind within_ofExcept fun _ => .map (.bind (AuthCredentialService.within_verifyPinOrThrow
        hC (fun _ => husual rfl) fun _ _ _ => husual rfl) fun _ => ?_)
      split
      · exact WithdrawalP2pService.within_create hC (fun _ => husual rfl)
          fun _ _ _ _ _ _ _ _ _ => husual rfl
      · exact WithdrawalBankService.within_create hC (fun _ => husual rfl)
          (fun _ _ _ _ _ _ _ _ => husual rfl) fun _ => husual rfl
  | listWithdrawals actor => exact .map (.bind (within_common hC rfl) fun _ => .ret)
  | getWithdrawal actor id =>
      exact .map (.bind (within_common hC rfl) fun _ => .bind within_orThrow fun _ => .ret)
  | flutterwaveWebhook verifHash body =>
      exact .map (within_handleFlutterwaveWebhook hC (fun _ _ => husual rfl) fun _ => husual rfl)
  | transferCompleteWorker =>
      exact .map (within_work hC fun _ => within_completeFromWebhook hC (fun _ => trivial)
        (fun _ => trivial) (fun _ _ _ => husual rfl) (fun _ _ _ => husual rfl) fun _ => husual rfl)
  | withdrawalPayoutWorker =>
      exact .map (within_work hC fun _ => within_processPayout hC (fun _ => trivial)
        (fun _ _ => husual rfl) (fun _ _ => husual rfl) fun _ => husual rfl)
  | withdrawalSettleWorker =>
      exact .map (within_work hC fun _ => within_processSettle hC (fun _ => trivial)
        (fun _ _ => husual rfl) fun _ _ => husual rfl)
  | providerFinish transferId state => exact .map (within_common hC rfl)
  | _ => cases hcall

end WalletApi
