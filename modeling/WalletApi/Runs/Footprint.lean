import WalletApi.Concurrency.Footprint
import WalletApi.Runs.Certificate

/-!
Which call writes what.

The footprint of a call says which statements its program contains, and as far
as it matters with which data. It is read off the text of the programs. In a run
it tells whose doing an event, a buffered write or a committed row is: only a
request for a withdrawal makes withdrawals, and only the worker that completes
transfers completes credits.
-/

namespace WalletApi

open Concurrency ReadCommitted

/-! ### The footprints -/

namespace Call

/-- The writes that the program of a call contains. The operations of the ledger,
which no client can call, are left out. -/
def writes : Call → Client → Write → Prop
  | register _, .pool, .createUserWithWallet .. => True
  | login _, .pool, .updateUser .. => True
  | createPin .., .pool, .updateUser .. => True
  | postTransfers .., .pool, .updateUser .. => True
  | postTransfers .., .pool, .createTransfer row => row.status = .initiated ∧ row.checkoutUrl = none
  | postTransfers .., .pool, .updateTransfer _ data =>
      data.status = some .pending ∧ ∃ url, data.checkoutUrl = some (some url)
  | postTransfers .., .tx, .createWalletTransaction row => row.status = .pending
  | postWithdrawals .., .pool, .updateUser .. => True
  | postWithdrawals actor header dto, .tx, .createWithdrawal row =>
      row.userId = actor.userId ∧ row.amount = dto.amount ∧
        requireIdempotencyKey header = .ok row.idempotencyKey ∧
        (row.status = .successful ∨ row.status = .processing)
  | postWithdrawals .., .tx, .createWalletTransaction row =>
      row.status = .successful ∧ row.purpose ≠ .reversal
  | postWithdrawals .., .tx, .updateWithdrawal _ data =>
      data.status = none ∧ data.reversalTransactionId = none
  | flutterwaveWebhook .., .pool, .createWebhookEvent row => row.status = .received
  | transferCompleteWorker, .pool, .updateTransfer _ data => data.checkoutUrl = none
  | transferCompleteWorker, .pool, .updateWebhookEvent .. => True
  | transferCompleteWorker, .tx, .updateWalletTransactionStatus _ status => status = .successful
  | withdrawalPayoutWorker, .pool, .updateWithdrawal .. => True
  | withdrawalPayoutWorker, .tx, .createWalletTransaction row => row.status = .successful
  | withdrawalSettleWorker, .pool, .updateWithdrawal .. => True
  | withdrawalSettleWorker, .tx, .createWalletTransaction row => row.status = .successful
  | _, _, _ => False

/-- The secrets that it compares. -/
def checks : Call → String → Prop
  | postTransfers _ _ dto, secret => secret = dto.pin
  | postWithdrawals _ _ dto, secret => secret = dto.pin
  | login _, _ | createPin .., _ => True
  | _, _ => False

/-- The jobs that it adds to the queues. -/
def enqueues : Call → Job → Prop
  | flutterwaveWebhook .., job => ∃ id, job = completeJob id
  | postWithdrawals .., job => ∃ id, job = payoutJob id
  | withdrawalPayoutWorker, job => ∃ id, job = settleJob id
  | _, _ => False

def footprint (call : Call) : Cmd → Prop
  | .write client w => call.writes client w
  | .bcryptCompare secret _ => call.checks secret
  | .queueAdd job => call.enqueues job
  | .verifyByTxRef _ => call = transferCompleteWorker
  | _ => True

end Call

/-- Commands that are in every footprint and do not belong to a particular call: those
left out are the writes, the comparisons, the new jobs, the questions to the provider and
the lookups of a transfer's credits and of a withdrawal's key. -/
def Cmd.common : Cmd → Bool
  | .write .. | .bcryptCompare .. | .queueAdd _ => false
  | .initiatePayment _ | .verifyByTxRef _ | .initiateBankTransfer _ | .getBankTransferStatus _ =>
      false
  | .select _ (.walletTransactionsByTransferId _) => false
  | .select _ (.withdrawalByUserAndIdempotencyKey ..) => false
  | _ => true

/-- Commands that begin or end a transaction. -/
def Cmd.bounds : Cmd → Bool
  | .begin | .commit | .rollback => true
  | _ => false

/-- Commands that may occur in every transaction. -/
def Cmd.inner (c : Cmd) : Bool := c.common && !c.bounds

theorem footprint_of_common (call : Call) : ∀ c : Cmd, c.common = true → call.footprint c := by
  intro c hc
  cases c with
  | write client w => cases hc
  | bcryptCompare secret hash => cases hc
  | queueAdd job => cases hc
  | verifyByTxRef txRef => cases hc
  | _ => trivial

/-! ### The operations -/

section Operations

variable {P : Platform} {C : Cmd → Prop} {α : Type}

theorem within_throwIf {p : Prop} [Decidable p] {e : Err} : (throwIf p e).Within C :=
  .ite (fun _ => .fail) fun _ => .ret

theorem within_orThrow {o : Option α} {e : Err} : (orThrow o e).Within C := by
  cases o with
  | none => exact .fail
  | some a => exact .ret

theorem within_ofExcept {r : Except Err α} : (ofExcept r).Within C := by
  cases r with
  | ok a => exact .ret
  | error e => exact .fail

/-! What a transaction contains between its beginning and its end. -/

section Inner

variable (hI : ∀ c : Cmd, c.inner = true → C c)

include hI

theorem within_inner {c : Cmd} (hc : c.inner = true) : (perform c).Within C :=
  .perform (hI c hc)

theorem within_lockWalletRow {walletId : String} : (lockWalletRow walletId).Within C :=
  .bind (within_inner hI rfl) fun _ => within_throwIf

theorem within_lockWalletRows {ids : List String} : (lockWalletRows ids).Within C := by
  induction ids with
  | nil => exact .ret
  | cons id ids ih => exact .bind (within_lockWalletRow hI) fun _ => ih

theorem within_insert {data : WalletTransactionRepository.CreateWalletTransactionData}
    (h : ∀ id createdAt, C (.write .tx (.createWalletTransaction (data.row id createdAt)))) :
    (WalletTransactionRepository.insert data).Within C :=
  .bind (within_inner hI rfl) fun _ => .perform (h _ _)

namespace WalletLedgerService

theorem within_pendingTransaction {input : PostCreditPendingInput}
    (h : ∀ id createdAt, C (.write .tx (.createWalletTransaction (input.data.row id createdAt)))) :
    (pendingTransaction input).Within C := by
  refine .bind (within_lockWalletRow hI) fun _ => .bind (within_inner hI rfl) fun again => ?_
  cases again with
  | some r => exact .ret
  | none => exact .bind (within_insert hI h) fun _ => .ret

theorem within_completeTransaction {input : CompleteCreditInput}
    (h : ∀ id, C (.write .tx (.updateWalletTransactionStatus id .successful))) :
    (completeTransaction input).Within C := by
  refine .bind (within_inner hI rfl) fun _ => .bind within_orThrow fun _ => ?_
  refine .bind within_throwIf fun _ => .bind (within_lockWalletRow hI) fun _ => ?_
  refine .bind (within_inner hI rfl) fun _ => .bind within_orThrow fun _ => ?_
  refine .ite (fun _ => .bind (within_inner hI rfl) fun _ => .ret) fun _ => ?_
  exact .bind within_throwIf fun _ => .bind (.perform (h _)) fun _ =>
    .bind (within_inner hI rfl) fun _ => .ret

theorem within_debitTransaction {input : PostDebitInput}
    (h : ∀ id createdAt, C (.write .tx (.createWalletTransaction (input.data.row id createdAt)))) :
    (debitTransaction input).Within C := by
  refine .bind (within_lockWalletRow hI) fun _ => .bind (within_inner hI rfl) fun again => ?_
  cases again with
  | some r => exact .ret
  | none =>
      exact .bind (within_inner hI rfl) fun _ => .bind within_throwIf fun _ =>
        .bind (within_insert hI h) fun _ => .bind (within_inner hI rfl) fun _ => .ret

theorem within_reversalTransaction {input : PostReversalInput}
    (h : ∀ id createdAt, C (.write .tx (.createWalletTransaction (input.data.row id createdAt)))) :
    (reversalTransaction input).Within C := by
  refine .bind (within_lockWalletRow hI) fun _ => .bind (within_inner hI rfl) fun again => ?_
  cases again with
  | some r => exact .ret
  | none => exact .bind (within_insert hI h) fun _ => .bind (within_inner hI rfl) fun _ => .ret

end WalletLedgerService

namespace WithdrawalRepository

theorem within_p2pTransaction {data : ExecuteP2pWithdrawalData}
    (hlookup : C (.select .tx (.withdrawalByUserAndIdempotencyKey data.userId data.idempotencyKey)))
    (h : ∀ a b c, ∀ w ∈ data.writes a b c, C (.write .tx w)) : (p2pTransaction data).Within C := by
  refine .bind (.perform hlookup) fun again => ?_
  cases again with
  | some w => exact .ret
  | none =>
      refine .bind (within_lockWalletRows hI) fun _ => .bind (within_inner hI rfl) fun _ =>
        .bind within_throwIf fun _ => .bind (within_inner hI rfl) fun stamp => ?_
      refine .bind (.perform (h stamp ("", 0) ("", 0) _ (.head _))) fun (w : Withdrawal) => ?_
      refine .bind (within_insert hI fun id at' =>
        h (w.id, 0) (id, at') ("", 0) _ (.tail _ (.head _))) fun debit => ?_
      refine .bind (within_insert hI fun id at' =>
        h (w.id, 0) ("", 0) (id, at') _ (.tail _ (.tail _ (.head _)))) fun credit => ?_
      exact .bind (.perform (h (w.id, 0) (debit.id, 0) (credit.id, 0) _
        (.tail _ (.tail _ (.tail _ (.head _)))))) fun _ => .ret

theorem within_bankTransaction {data : ExecuteBankWithdrawalData}
    (hlookup : C (.select .tx (.withdrawalByUserAndIdempotencyKey data.userId data.idempotencyKey)))
    (h : ∀ a b, ∀ w ∈ data.writes a b, C (.write .tx w)) : (bankTransaction data).Within C := by
  refine .bind (.perform hlookup) fun again => ?_
  cases again with
  | some w => exact .ret
  | none =>
      refine .bind (within_lockWalletRow hI) fun _ => .bind (within_inner hI rfl) fun _ =>
        .bind within_throwIf fun _ => .bind (within_inner hI rfl) fun stamp => ?_
      refine .bind (.perform (h stamp ("", 0) _ (.head _))) fun (w : Withdrawal) => ?_
      refine .bind (within_insert hI fun id at' =>
        h (w.id, 0) (id, at') _ (.tail _ (.head _))) fun debit => ?_
      exact .bind (.perform (h (w.id, 0) (debit.id, 0) _ (.tail _ (.tail _ (.head _)))))
        fun _ => .ret

end WithdrawalRepository

/-! The check of a secret does not begin or end a transaction. -/

namespace AuthCredentialService

theorem inner_checkSecret {secret hash message : String} {tryCount : ℕ} {lockedUntil : Option ℕ}
    {reset : Program User} {record : ℕ → Option ℕ → Program User}
    (hcompare : C (.bcryptCompare secret hash)) (hreset : reset.Within C)
    (hrecord : ∀ n l, (record n l).Within C) :
    (checkSecret secret hash tryCount lockedUntil reset record message).Within C := by
  have hnow : (perform .now).Within C := within_inner hI rfl
  have hbody : ∀ n l, (checkSecret.compare secret hash reset record message n l).Within C := by
    intro n l
    refine .bind ?_ fun _ => .bind (.perform hcompare) fun valid => .ite (fun _ => ?_) fun _ => ?_
    · cases l with
      | none => exact .ret
      | some l => exact .bind hnow fun _ => .ite (fun _ => .bind hnow fun _ => .fail) fun _ => .ret
    · exact .ite (fun _ => .bind hreset fun _ => .ret) fun _ => .ret
    · refine .bind (.ite (fun _ => .bind hnow fun _ => .ret) fun _ => .ret) fun _ => ?_
      exact .bind (hrecord _ _) fun _ => .fail
  refine .bind ?_ fun _ => .ite (fun _ => .bind hreset fun _ => hbody 0 none) fun _ => hbody _ _
  cases lockedUntil with
  | none => exact .ret
  | some l => exact .bind hnow fun _ => .ret

theorem inner_verifyPinOrThrow {userId pin : String} (hcompare : ∀ hash, C (.bcryptCompare pin hash))
    (hupdate : ∀ id data, data.pinHash = none → C (.write .pool (.updateUser id data))) :
    (verifyPinOrThrow userId pin).Within C := by
  refine .bind (within_inner hI rfl) fun _ => .bind within_orThrow fun _ =>
    .bind within_throwIf fun _ => ?_
  exact inner_checkSecret hI (hcompare _) (.perform (hupdate _ _ rfl)) fun _ _ =>
    .perform (hupdate _ _ rfl)

end AuthCredentialService

end Inner

variable (hC : ∀ c : Cmd, c.common = true → C c)

include hC

theorem allowed_of_inner : ∀ c : Cmd, c.inner = true → C c :=
  fun c hc => hC c (Bool.and_eq_true_iff.mp hc).1

theorem within_common {c : Cmd} (hc : c.common = true) : (perform c).Within C :=
  .perform (hC c hc)

theorem within_transaction {body : Program α} (h : body.Within C) :
    (transaction body).Within C := by
  refine .tryCatch (.bind (within_common hC rfl) fun _ => .bind h fun _ =>
    .bind (within_common hC rfl) fun _ => .ret) fun _ => ?_
  exact .bind (within_common hC rfl) fun _ => .fail

namespace AuthCredentialService

theorem within_checkSecret {secret hash message : String} {tryCount : ℕ} {lockedUntil : Option ℕ}
    {reset : Program User} {record : ℕ → Option ℕ → Program User}
    (hcompare : C (.bcryptCompare secret hash)) (hreset : reset.Within C)
    (hrecord : ∀ n l, (record n l).Within C) :
    (checkSecret secret hash tryCount lockedUntil reset record message).Within C :=
  inner_checkSecret (allowed_of_inner hC) hcompare hreset hrecord

theorem within_verifyPinOrThrow {userId pin : String} (hcompare : ∀ hash, C (.bcryptCompare pin hash))
    (hupdate : ∀ id data, data.pinHash = none → C (.write .pool (.updateUser id data))) :
    (verifyPinOrThrow userId pin).Within C :=
  inner_verifyPinOrThrow (allowed_of_inner hC) hcompare hupdate

theorem within_verifyPasswordOrThrow {user : User} {password message : String}
    (hcompare : C (.bcryptCompare password user.passwordHash))
    (hupdate : ∀ id data, data.SparesPin → C (.write .pool (.updateUser id data))) :
    (verifyPasswordOrThrow user password message).Within C :=
  within_checkSecret hC hcompare (.perform (hupdate _ _ ⟨rfl, rfl, rfl⟩)) fun _ _ =>
    .perform (hupdate _ _ ⟨rfl, rfl, rfl⟩)

end AuthCredentialService

namespace WalletLedgerService

theorem within_postCreditPending {input : PostCreditPendingInput}
    (h : ∀ id createdAt, C (.write .tx (.createWalletTransaction (input.data.row id createdAt)))) :
    (postCreditPending input).Within C := by
  refine .bind within_throwIf fun _ => .bind (within_common hC rfl) fun existing => ?_
  cases existing with
  | some r => exact .ret
  | none => exact within_transaction hC (within_pendingTransaction (allowed_of_inner hC) h)

theorem within_completeCreditSuccessful {input : CompleteCreditInput}
    (h : ∀ id, C (.write .tx (.updateWalletTransactionStatus id .successful))) :
    (completeCreditSuccessful input).Within C :=
  within_transaction hC (within_completeTransaction (allowed_of_inner hC) h)

omit hC in
theorem within_rethrowWalletMissing {walletId : String} {body : Program α} (h : body.Within C) :
    (rethrowWalletMissing walletId body).Within C :=
  .tryCatch h fun _ => .ite (fun _ => .fail) fun _ => .fail

theorem within_postReversalCredit {input : PostReversalInput}
    (h : ∀ id createdAt, C (.write .tx (.createWalletTransaction (input.data.row id createdAt)))) :
    (postReversalCredit input).Within C := by
  refine .bind within_throwIf fun _ => .bind (within_common hC rfl) fun existing => ?_
  cases existing with
  | some r => exact .ret
  | none =>
      refine .bind (within_common hC rfl) fun _ => .bind within_orThrow fun _ => .bind ?_ fun _ => ?_
      · exact .bind within_throwIf fun _ => .bind within_throwIf fun _ => within_throwIf
      · exact within_rethrowWalletMissing
          (within_transaction hC (within_reversalTransaction (allowed_of_inner hC) h))

end WalletLedgerService

namespace WithdrawalRepository

omit hC in
theorem within_replay {w : Withdrawal} {hash : String} : (replay w hash).Within C :=
  .bind within_throwIf fun _ => .ret

omit hC in
theorem within_rethrowWalletMissing {body : Program α} (h : body.Within C) :
    (rethrowWalletMissing body).Within C :=
  .tryCatch h fun _ => .ite (fun _ => .fail) fun _ => .fail

theorem within_executeP2p {data : ExecuteP2pWithdrawalData}
    (hlookup : ∀ client,
      C (.select client (.withdrawalByUserAndIdempotencyKey data.userId data.idempotencyKey)))
    (h : ∀ a b c, ∀ w ∈ data.writes a b c, C (.write .tx w)) : (executeP2p data).Within C := by
  refine .bind (.perform (hlookup _)) fun existing => ?_
  cases existing with
  | some w => exact within_replay
  | none =>
      exact within_rethrowWalletMissing
        (within_transaction hC (within_p2pTransaction (allowed_of_inner hC) (hlookup _) h))

theorem within_executeBankAccept {data : ExecuteBankWithdrawalData}
    (hlookup : ∀ client,
      C (.select client (.withdrawalByUserAndIdempotencyKey data.userId data.idempotencyKey)))
    (h : ∀ a b, ∀ w ∈ data.writes a b, C (.write .tx w)) : (executeBankAccept data).Within C := by
  refine .bind (.perform (hlookup _)) fun existing => ?_
  cases existing with
  | some w => exact within_replay
  | none =>
      exact within_rethrowWalletMissing
        (within_transaction hC (within_bankTransaction (allowed_of_inner hC) (hlookup _) h))

end WithdrawalRepository

/-! ### The services -/

theorem within_createWithWallet {data : UserRepository.CreateUserData}
    (h : ∀ user wallet, user.Fresh → C (.write .pool (.createUserWithWallet user wallet))) :
    (UserRepository.createWithWallet data).Within C :=
  .bind (within_common hC rfl) fun _ => .bind (within_common hC rfl) fun _ =>
    .perform (h _ _ ⟨rfl, rfl, rfl, rfl, rfl⟩)

theorem within_register {dto : RegisterDto}
    (h : ∀ user wallet, user.Fresh → C (.write .pool (.createUserWithWallet user wallet))) :
    (AuthService.register P dto).Within C := by
  refine .bind within_throwIf fun _ => .bind within_throwIf fun _ => ?_
  refine .bind (within_common hC rfl) fun _ => .bind within_throwIf fun _ => ?_
  refine .bind (within_common hC rfl) fun _ => .bind within_throwIf fun _ => ?_
  exact .bind (within_common hC rfl) fun _ => .bind (within_createWithWallet hC h) fun _ => .ret

theorem within_login {dto : LoginDto} (hcompare : ∀ hash, C (.bcryptCompare dto.password hash))
    (hupdate : ∀ id data, data.SparesPin → C (.write .pool (.updateUser id data))) :
    (AuthService.login P dto).Within C := by
  refine .bind (within_common hC rfl) fun _ => .bind within_orThrow fun _ => ?_
  refine .bind (AuthCredentialService.within_verifyPasswordOrThrow hC (hcompare _) hupdate)
    fun _ => ?_
  exact .bind (within_common hC rfl) fun _ => .bind within_orThrow fun _ => .ret

theorem within_createPin {actor : JwtPayloadUser} {dto : CreatePinDto}
    (hcompare : ∀ hash, C (.bcryptCompare dto.password hash))
    (hupdate : ∀ id data, C (.write .pool (.updateUser id data))) :
    (AuthService.createPin actor dto).Within C := by
  refine .bind within_throwIf fun _ => .bind (within_common hC rfl) fun _ => ?_
  refine .bind within_orThrow fun _ => .bind within_throwIf fun _ => ?_
  refine .bind (AuthCredentialService.within_verifyPasswordOrThrow hC (hcompare _)
    fun id data _ => hupdate id data) fun _ => ?_
  exact .bind (within_common hC rfl) fun _ => .bind (.perform (hupdate _ _)) fun _ => .ret

omit hC in
theorem within_requireNgn {currency : Option String} : (requireNgn P currency).Within C :=
  .bind within_throwIf fun _ => .ret

namespace WithdrawalP2pService

theorem within_create {actor : JwtPayloadUser} {dto : CreateWithdrawalDto} {key : String}
    (hlookup : ∀ client, C (.select client (.withdrawalByUserAndIdempotencyKey actor.userId key)))
    (h : ∀ data : WithdrawalRepository.ExecuteP2pWithdrawalData, data.userId = actor.userId →
      data.amount = dto.amount → data.idempotencyKey = key →
      ∀ a b c, ∀ w ∈ data.writes a b c, C (.write .tx w)) :
    (create P actor dto key).Within C := by
  refine .bind within_requireNgn fun _ => .bind within_throwIf fun _ => ?_
  refine .bind (within_common hC rfl) fun _ => .bind within_orThrow fun _ => ?_
  refine .bind (within_common hC rfl) fun _ => .bind within_orThrow fun _ => ?_
  refine .bind within_throwIf fun _ => ?_
  refine .bind (within_common hC rfl) fun _ => .bind within_orThrow fun _ => ?_
  refine .bind within_throwIf fun _ => ?_
  exact .bind (WithdrawalRepository.within_executeP2p hC hlookup (h _ rfl rfl rfl)) fun _ => .ret

end WithdrawalP2pService

namespace WithdrawalBankService

theorem within_create {actor : JwtPayloadUser} {dto : CreateWithdrawalDto} {key : String}
    (hlookup : ∀ client, C (.select client (.withdrawalByUserAndIdempotencyKey actor.userId key)))
    (h : ∀ data : WithdrawalRepository.ExecuteBankWithdrawalData, data.userId = actor.userId →
      data.amount = dto.amount → data.idempotencyKey = key →
      ∀ a b, ∀ w ∈ data.writes a b, C (.write .tx w))
    (hadd : ∀ id, C (.queueAdd (payoutJob id))) : (create P actor dto key).Within C := by
  refine .bind within_requireNgn fun _ => .bind within_throwIf fun _ => ?_
  refine .bind (within_common hC rfl) fun _ => .bind within_orThrow fun _ => ?_
  refine .bind within_throwIf fun _ => .bind (within_common hC rfl) fun _ => ?_
  refine .bind (WithdrawalRepository.within_executeBankAccept hC hlookup (h _ rfl rfl rfl)) fun _ => ?_
  exact .ite (fun _ => .bind (.perform (hadd _)) fun _ => .ret) fun _ => .ret

end WithdrawalBankService

theorem within_reverseAndFail {withdrawalId walletId debitId : String} {amount : ℤ}
    (hinsert : ∀ id createdAt, C (.write .tx (.createWalletTransaction
      ((reversalInput withdrawalId walletId amount debitId).data.row id createdAt))))
    (hupdate : ∀ id data, C (.write .pool (.updateWithdrawal id data))) :
    (reverseAndFail withdrawalId walletId amount debitId).Within C :=
  .bind (WalletLedgerService.within_postReversalCredit hC hinsert) fun _ =>
    .bind (.perform (hupdate _ _)) fun _ => .ret

theorem within_processPayout {withdrawalId : String}
    (hinitiate : ∀ params, C (.initiateBankTransfer params))
    (hinsert : ∀ row : WalletTransaction, row.status = .successful →
      C (.write .tx (.createWalletTransaction row)))
    (hupdate : ∀ id data, C (.write .pool (.updateWithdrawal id data)))
    (hadd : ∀ id, C (.queueAdd (settleJob id))) :
    (WithdrawalPayoutService.processPayout withdrawalId).Within C := by
  refine .bind (within_common hC rfl) fun found => ?_
  cases found with
  | none => exact .ret
  | some w =>
      refine .ite (fun _ => .ret) fun _ => .ite (fun _ => .ret) fun _ => ?_
      refine .bind (.perform (hinitiate _)) fun _ => .ite (fun _ => ?_) fun _ => ?_
      · exact within_reverseAndFail hC (fun _ _ => hinsert _ rfl) hupdate
      · refine .bind (.perform (hupdate _ _)) fun _ => .ite (fun _ => .ret) fun _ => ?_
        exact .bind (.perform (hadd _)) fun _ => .ret

theorem within_processSettle {withdrawalId : String}
    (hstatus : ∀ transferId, C (.getBankTransferStatus transferId))
    (hinsert : ∀ row : WalletTransaction, row.status = .successful →
      C (.write .tx (.createWalletTransaction row)))
    (hupdate : ∀ id data, C (.write .pool (.updateWithdrawal id data))) :
    (WithdrawalSettleService.processSettle withdrawalId).Within C := by
  refine .bind (within_common hC rfl) fun found => ?_
  cases found with
  | none => exact .ret
  | some w =>
      refine .ite (fun _ => .ret) fun _ => ?_
      split
      · exact .ret
      · refine .ite (fun _ => .ret) fun _ => .bind (.perform (hstatus _)) fun status => ?_
        show (WithdrawalSettleService.handleStatus w status.status).Within C
        cases status.status with
        | successful => exact .bind (.perform (hupdate _ _)) fun _ => .ret
        | failed =>
            exact .ite (fun _ => within_reverseAndFail hC (fun _ _ => hinsert _ rfl) hupdate)
              fun _ => .ret
        | pending => exact .fail
        | unknown => exact .fail

theorem within_createTransfer {config : Config} {actor : JwtPayloadUser} {dto : CreateTransferDto}
    {key : String} (hcompare : ∀ hash, C (.bcryptCompare dto.pin hash))
    (hupdateUser : ∀ id data, C (.write .pool (.updateUser id data)))
    (hcreate : ∀ row : Transfer, row.status = .initiated → row.checkoutUrl = none →
      C (.write .pool (.createTransfer row)))
    (hinsert : ∀ row : WalletTransaction, row.status = .pending →
      C (.write .tx (.createWalletTransaction row)))
    (hinitiate : ∀ params, C (.initiatePayment params))
    (hupdate : ∀ id data url, data.status = some .pending → data.checkoutUrl = some (some url) →
      C (.write .pool (.updateTransfer id data))) :
    (TransferCreateService.create P config actor dto key).Within C := by
  refine .bind (AuthCredentialService.within_verifyPinOrThrow hC hcompare fun id data _ =>
    hupdateUser id data) fun _ => ?_
  refine .bind within_requireNgn fun _ => .bind (within_common hC rfl) fun existing => ?_
  cases existing with
  | some t => exact .bind within_throwIf fun _ => .ret
  | none =>
      refine .bind (within_common hC rfl) fun _ => .bind within_orThrow fun _ => ?_
      refine .bind (within_common hC rfl) fun _ => .bind within_orThrow fun _ => ?_
      refine .bind (.bind (within_common hC rfl) fun _ => .ret) fun _ => ?_
      refine .bind (.bind (within_common hC rfl) fun _ => .perform (hcreate _ rfl rfl)) fun _ => ?_
      refine .bind (WalletLedgerService.within_postCreditPending hC fun _ _ => hinsert _ rfl)
        fun _ => .bind (.perform (hinitiate _)) fun _ => .bind within_orThrow fun _ => ?_
      exact .bind (.perform (hupdate _ _ _ rfl rfl)) fun _ => .ret

theorem within_handleFlutterwaveWebhook {config : Config} {verifHash : Option String} {body : Json}
    (hcreate : ∀ row : WebhookEvent, row.status = .received →
      C (.write .pool (.createWebhookEvent row)))
    (hadd : ∀ id, C (.queueAdd (completeJob id))) :
    (TransferWebhookService.handleFlutterwaveWebhook config verifHash body).Within C := by
  refine .bind within_throwIf fun _ => .bind within_orThrow fun _ => ?_
  refine .bind (within_common hC rfl) fun existing => ?_
  cases existing with
  | some e => exact .ite (fun _ => .bind (.perform (hadd _)) fun _ => .ret) fun _ => .ret
  | none =>
      refine .bind (.bind (within_common hC rfl) fun _ => .perform (hcreate _ rfl)) fun _ => ?_
      exact .bind (.perform (hadd _)) fun _ => .ret

theorem within_mark {id : String} {status : WebhookEventStatus}
    (h : ∀ at', C (.write .pool (.updateWebhookEvent id status at'))) :
    (WebhookEventRepository.mark id status).Within C :=
  .bind (within_common hC rfl) fun _ => .perform (h _)

theorem within_completeFromWebhook {webhookEventId : String}
    (hverify : ∀ txRef, C (.verifyByTxRef txRef))
    (hlookup : ∀ id, C (.select .pool (.walletTransactionsByTransferId id)))
    (hmark : ∀ id status at', C (.write .pool (.updateWebhookEvent id status at')))
    (hupdate : ∀ id data, data.checkoutUrl = none → C (.write .pool (.updateTransfer id data)))
    (hcomplete : ∀ id, C (.write .tx (.updateWalletTransactionStatus id .successful))) :
    (TransferCompleteService.completeFromWebhook webhookEventId).Within C := by
  have hmark' {id : String} {status : WebhookEventStatus} :
      (WebhookEventRepository.mark id status).Within C := within_mark hC fun _ => hmark _ _ _
  have hcredit {event : WebhookEvent} {transfer : Transfer} :
      (TransferCompleteService.credit event transfer).Within C := by
    refine .bind (.perform (hlookup _)) fun credits => ?_
    dsimp only
    split
    · exact .ret
    · split
      · exact .bind hmark' fun _ => .fail
      · exact .bind (WalletLedgerService.within_completeCreditSuccessful hC fun _ => hcomplete _)
          fun _ => .ret
  refine .bind (within_common hC rfl) fun found => ?_
  cases found with
  | none => exact .ret
  | some event =>
      refine .ite (fun _ => .ret) fun _ => ?_
      split
      · exact .bind hmark' fun _ => .fail
      · refine .bind (within_common hC rfl) fun found => ?_
        cases found with
        | none => exact .bind hmark' fun _ => .ret
        | some transfer =>
            refine .ite (fun _ => .bind hmark' fun _ => .ret) fun _ => ?_
            refine .bind (.perform (hverify _)) fun verified => .ite (fun _ => ?_) fun _ => ?_
            · exact .ite (fun _ => .bind (.perform (hupdate _ _ rfl)) fun _ =>
                .bind hmark' fun _ => .ret) fun _ => .ret
            · refine .ite (fun _ => .bind hmark' fun _ => .fail) fun _ => ?_
              exact .bind hcredit fun _ => .bind (.perform (hupdate _ _ rfl)) fun _ =>
                .bind hmark' fun _ => .ret

theorem within_work {queue : QueueName} {name : String} {handler : String → Program Unit}
    (h : ∀ id, (handler id).Within C) : (work queue name handler).Within C := by
  refine .bind (within_common hC rfl) fun job => .tryCatch ?_ fun _ => ?_
  · have hend : (perform (.completeJob queue (Job.jobId job)) >>= fun _ => pure () :
        Program Unit).Within C := .bind (within_common hC rfl) fun _ => .ret
    exact .ite (fun _ => hend) fun _ => .bind (h _) fun _ => hend
  · exact .bind (within_common hC rfl) fun _ => .ret

end Operations

/-! ### The calls -/

section Calls

variable {P : Platform} {config : Config}

theorem footprint_executeP2p {actor : JwtPayloadUser} {header : Option String}
    {dto : CreateWithdrawalDto} {data : WithdrawalRepository.ExecuteP2pWithdrawalData}
    (huser : data.userId = actor.userId) (hamount : data.amount = dto.amount)
    (hkey : requireIdempotencyKey header = .ok data.idempotencyKey) (a b c : String × ℕ) :
    ∀ w ∈ data.writes a b c, (Call.postWithdrawals actor header dto).footprint (.write .tx w) := by
  intro w hw
  simp only [WithdrawalRepository.ExecuteP2pWithdrawalData.writes, List.mem_cons,
    List.not_mem_nil, or_false] at hw
  rcases hw with rfl | rfl | rfl | rfl
  · exact ⟨huser, hamount, hkey, .inl rfl⟩
  · exact ⟨rfl, fun h => by cases h⟩
  · exact ⟨rfl, fun h => by cases h⟩
  · exact ⟨rfl, rfl⟩

theorem footprint_executeBankAccept {actor : JwtPayloadUser} {header : Option String}
    {dto : CreateWithdrawalDto} {data : WithdrawalRepository.ExecuteBankWithdrawalData}
    (huser : data.userId = actor.userId) (hamount : data.amount = dto.amount)
    (hkey : requireIdempotencyKey header = .ok data.idempotencyKey) (a b : String × ℕ) :
    ∀ w ∈ data.writes a b, (Call.postWithdrawals actor header dto).footprint (.write .tx w) := by
  intro w hw
  simp only [WithdrawalRepository.ExecuteBankWithdrawalData.writes, List.mem_cons,
    List.not_mem_nil, or_false] at hw
  rcases hw with rfl | rfl | rfl
  · exact ⟨huser, hamount, hkey, .inr rfl⟩
  · exact ⟨rfl, fun h => by cases h⟩
  · exact ⟨rfl, rfl⟩

/-- The program of a call keeps within its footprint. -/
theorem program_within {call : Call} (hcall : call.isApi = true) :
    (program P config call).Within call.footprint := by
  have hC := footprint_of_common call
  cases call with
  | register dto => exact .map (within_register hC fun _ _ _ => trivial)
  | login dto => exact .map (within_login hC (fun _ => trivial) fun _ _ _ => trivial)
  | createPin actor dto => exact .map (within_createPin hC (fun _ => trivial) fun _ _ => trivial)
  | getWallet actor =>
      exact .map (.bind (within_common hC rfl) fun _ => .bind within_orThrow fun _ =>
        .bind (within_common hC rfl) fun _ => .ret)
  | listWalletTransactions actor query =>
      exact .map (.bind (within_common hC rfl) fun _ => .bind within_orThrow fun _ =>
        .bind (within_common hC rfl) fun _ => .ret)
  | postTransfers actor header dto =>
      exact .bind within_ofExcept fun _ => .map (within_createTransfer hC (fun _ => rfl)
        (fun _ _ => trivial) (fun _ hs hu => ⟨hs, hu⟩) (fun _ hs => hs) (fun _ => trivial)
        fun _ _ url hs hu => ⟨hs, url, hu⟩)
  | getTransfer actor id =>
      exact .map (.bind (within_common hC rfl) fun _ => .bind within_orThrow fun _ => .ret)
  | postWithdrawals actor header dto =>
      cases hkey : requireIdempotencyKey header with
      | error e =>
          show ((ofExcept (requireIdempotencyKey header)).bind _ : Program Response).Within _
          rw [hkey]
          exact .fail
      | ok key =>
          show ((ofExcept (requireIdempotencyKey header)).bind _ : Program Response).Within _
          rw [hkey]
          refine .map (.bind (AuthCredentialService.within_verifyPinOrThrow hC (fun _ => rfl)
            fun _ _ _ => trivial) fun _ => ?_)
          split
          · exact WithdrawalP2pService.within_create hC (fun _ => trivial) fun data huser hamount hdata =>
              footprint_executeP2p huser hamount (hdata ▸ hkey)
          · exact WithdrawalBankService.within_create hC (fun _ => trivial)
              (fun data huser hamount hdata =>
                footprint_executeBankAccept huser hamount (hdata ▸ hkey)) fun id => ⟨id, rfl⟩
  | listWithdrawals actor => exact .map (.bind (within_common hC rfl) fun _ => .ret)
  | getWithdrawal actor id =>
      exact .map (.bind (within_common hC rfl) fun _ => .bind within_orThrow fun _ => .ret)
  | flutterwaveWebhook verifHash body =>
      exact .map (within_handleFlutterwaveWebhook hC (fun _ hs => hs) fun id => ⟨id, rfl⟩)
  | transferCompleteWorker =>
      exact .map (within_work hC fun _ => within_completeFromWebhook hC (fun _ => rfl)
        (fun _ => trivial) (fun _ _ _ => trivial) (fun _ _ hu => hu) fun _ => rfl)
  | withdrawalPayoutWorker =>
      exact .map (within_work hC fun _ => within_processPayout hC (fun _ => trivial)
        (fun _ hs => hs) (fun _ _ => trivial) fun id => ⟨id, rfl⟩)
  | withdrawalSettleWorker =>
      exact .map (within_work hC fun _ => within_processSettle hC (fun _ => trivial)
        (fun _ hs => hs) fun _ _ => trivial)
  | providerFinish transferId state => exact .map (within_common hC rfl)
  | _ => cases hcall

/-! ### Runs -/

variable {A : Machine.Assumptions (walletApi P config)}
  {cfg cfg' : Machine.Config (walletApi P config)}

/-- The thread serves a call whose program contains the command. -/
def Issues (cfg : Machine.Config (walletApi P config)) (i : ℕ) (c : Cmd) : Prop :=
  ∃ th, cfg.threads i = some th ∧ Call.footprint th.call c

theorem Issues.next {a : Machine.Action (walletApi P config)} (hn : Machine.next cfg a = some cfg')
    {i : ℕ} {c : Cmd} (h : Issues cfg i c) : Issues cfg' i c := by
  obtain ⟨th, hth, hc⟩ := h
  obtain ⟨th', hth', hcall⟩ := Machine.call_of_next hn hth
  refine ⟨th', hth', ?_⟩
  rw [hcall]
  exact hc

/-- The next command of a thread is in the footprint of its call. -/
theorem footprint_of_thread (hA : ∀ call, A.admits call → Call.isApi call = true)
    (h : Machine.Reachable A World.initial cfg) {i : ℕ} {call : Call} {c : Cmd}
    {k : Except Err c.Resp → Program Response}
    (hth : cfg.threads i = some (.running call (.op c k))) : call.footprint c :=
  (h.within (fun call hcall => program_within (hA call hcall)) hth).1

/-- Whose doing an event and a buffered write are. -/
theorem issues_of_reachable (hA : ∀ call, A.admits call → Call.isApi call = true)
    (h : Machine.Reachable A World.initial cfg) :
    (∀ e ∈ cfg.state.history, Issues cfg e.pid e.cmd) ∧
      cfg.state.Staged fun j w => Issues cfg j (.write .tx w) := by
  induction h with
  | initial => exact ⟨fun _ he => absurd he List.not_mem_nil, fun _ _ hopen => by cases hopen⟩
  | @next cfg cfg' a hr hp hn ih =>
      obtain ⟨hevents, hstaged⟩ := ih
      cases a with
      | spawn i call =>
          have hkeep {j : ℕ} {c : Cmd} : Issues cfg j c → Issues cfg' j c := .next hn
          obtain ⟨-, rfl⟩ := Machine.next_spawn_iff.mp hn
          exact ⟨fun e he => hkeep (hevents e he), fun j ws hopen w hw =>
            hkeep (hstaged j ws hopen w hw)⟩
      | step i ch =>
          have hkeep {j : ℕ} {c : Cmd} : Issues cfg j c → Issues cfg' j c := .next hn
          obtain ⟨call, c, k, r, t, hth, he, rfl⟩ := Machine.next_step_iff.mp hn
          have hc : Issues cfg i c := ⟨_, hth, footprint_of_thread hA hr hth⟩
          refine ⟨fun e hmem => ?_, hstaged.exec he (fun _ _ => hkeep) fun w hw => hkeep (hw ▸ hc)⟩
          obtain ⟨took, hh⟩ := World.exec_history he
          rw [Machine.Config.state_set, hh] at hmem
          rcases List.mem_cons.mp hmem with rfl | hold
          · exact hkeep hc
          · exact hkeep (hevents e hold)
      | crash i =>
          have hkeep {j : ℕ} {c : Cmd} : Issues cfg j c → Issues cfg' j c := .next hn
          obtain ⟨call, p, -, rfl⟩ := Machine.next_crash_iff.mp hn
          exact ⟨fun e he => hkeep (hevents e he), World.Staged.crash fun j ws hopen w hw =>
            hkeep (hstaged j ws hopen w hw)⟩

theorem inTransaction_of_writes {call : Call} {w : Write} (h : call.writes .tx w) :
    w.inTransaction = true := by
  cases w with
  | createWalletTransaction row => rfl
  | updateWalletTransactionStatus id status => rfl
  | createWithdrawal row => rfl
  | updateWithdrawal id data => rfl
  | _ => cases call <;> exact h.elim

/-- A commit leaves the tables alone that transactions do not write to. -/
theorem tables_of_commit (hA : ∀ call, A.admits call → Call.isApi call = true)
    (h : Machine.Reachable A World.initial cfg) {i : ℕ} {ws : List Write}
    (hopen : (World.store cfg.state).opened i = some ws) (d : Db) :
    Db.users (schema.applyAll ws d) = d.users ∧ Db.wallets (schema.applyAll ws d) = d.wallets ∧
      Db.transfers (schema.applyAll ws d) = d.transfers ∧
      Db.webhookEvents (schema.applyAll ws d) = d.webhookEvents := by
  have hws : ∀ w ∈ ws, w.inTransaction = true := by
    intro w hw
    obtain ⟨th, -, hissues⟩ := (issues_of_reachable hA h).2 i ws hopen w hw
    exact inTransaction_of_writes hissues
  refine World.applyAll_keeps (I := fun d' => d'.users = d.users ∧ d'.wallets = d.wallets ∧
    d'.transfers = d.transfers ∧ d'.webhookEvents = d.webhookEvents) ?_ hws ⟨rfl, rfl, rfl, rfl⟩
  intro w d' hw ⟨hu, hwallets, ht, he⟩
  obtain ⟨hu', hwallets', ht', he'⟩ := Write.apply_inTransaction hw d'
  exact ⟨hu'.trans hu, hwallets'.trans hwallets, ht'.trans ht, he'.trans he⟩

theorem transfers_of_commit (hA : ∀ call, A.admits call → Call.isApi call = true)
    (h : Machine.Reachable A World.initial cfg) {i : ℕ} {ws : List Write}
    (hopen : (World.store cfg.state).opened i = some ws) (d : Db) :
    Db.transfers (schema.applyAll ws d) = d.transfers :=
  (tables_of_commit hA h hopen d).2.2.1

end Calls

end WalletApi
