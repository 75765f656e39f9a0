import WalletApi.Model.Repositories

/-!
The ledger services: every write to the journal that is not part of a
withdrawal.
-/

namespace WalletApi

open Concurrency

structure LedgerWriteResult where
  transaction : WalletTransaction
  /-- True when a row was written; false on an idempotent replay. -/
  created : Bool
  balanceAfter : Option ℤ := none
  deriving DecidableEq

structure PostCreditPendingInput where
  walletId : String
  amount : ℤ
  idempotencyKey : String
  reference : Option String := none
  transferId : Option String := none
  deriving DecidableEq

structure CompleteCreditInput where
  transactionId : String
  expectedWalletId : String
  deriving DecidableEq

structure PostDebitInput where
  walletId : String
  amount : ℤ
  /-- `P2P` or `BANK_PAYOUT`. -/
  purpose : WalletTransactionPurpose
  idempotencyKey : String
  reference : Option String := none
  counterpartWalletId : Option String := none
  withdrawalId : Option String := none
  deriving DecidableEq

structure PostReversalInput where
  walletId : String
  amount : ℤ
  originalDebitId : String
  idempotencyKey : String
  withdrawalId : Option String := none
  reference : Option String := none
  deriving DecidableEq

open WalletTransactionRepository in
/-- The rows that the ledger services insert. -/
def PostCreditPendingInput.data (input : PostCreditPendingInput) :
    CreateWalletTransactionData where
  walletId := input.walletId
  type := .credit
  purpose := .flutterwaveFunding
  status := .pending
  amount := input.amount
  idempotencyKey := input.idempotencyKey
  reference := input.reference
  transferId := input.transferId

open WalletTransactionRepository in
def PostDebitInput.data (input : PostDebitInput) : CreateWalletTransactionData where
  walletId := input.walletId
  type := .debit
  purpose := input.purpose
  status := .successful
  amount := input.amount
  idempotencyKey := input.idempotencyKey
  reference := input.reference
  counterpartWalletId := input.counterpartWalletId
  withdrawalId := input.withdrawalId

open WalletTransactionRepository in
def PostReversalInput.data (input : PostReversalInput) : CreateWalletTransactionData where
  walletId := input.walletId
  type := .credit
  purpose := .reversal
  status := .successful
  amount := input.amount
  idempotencyKey := input.idempotencyKey
  reference := input.reference
  withdrawalId := input.withdrawalId
  reversesTransactionId := some input.originalDebitId

namespace WalletLedgerService

open WalletTransactionRepository

def assertAmount (amount : ℤ) : Program Unit :=
  throwIf (amount ≤ 0) (customError.badRequest "amount must be a positive integer (kobo)")

def walletTransactionNotFound : Err := customError.notFound "Wallet transaction not found"

/-! ### Credits -/

/-- The body of the transaction of `postPending`. -/
def pendingTransaction (input : PostCreditPendingInput) : Program LedgerWriteResult := do
  lockWalletRow input.walletId
  let again ← findByIdempotencyKey .tx input.idempotencyKey
  match again with
  | some transaction => return { transaction, created := false }
  | none =>
      let transaction ← insert input.data
      return { transaction, created := true }

def postCreditPending (input : PostCreditPendingInput) : Program LedgerWriteResult := do
  assertAmount input.amount
  let existing ← findByIdempotencyKey .pool input.idempotencyKey
  match existing with
  | some transaction => return { transaction, created := false }
  | none => transaction (pendingTransaction input)

/-- `${status}` of a journal row. -/
def statusText : WalletTransactionStatus → String
  | .pending => "PENDING"
  | .successful => "SUCCESSFUL"
  | .failed => "FAILED"

/-- What `completeSuccessful` does once it holds the wallet. -/
def completeLocked (locked : WalletTransaction) : Program LedgerWriteResult := do
  if locked.status = .successful then
    let balanceAfter ← selectSuccessfulBalance .tx locked.walletId
    return { transaction := locked, created := false, balanceAfter := some balanceAfter }
  else
    throwIf (locked.status ≠ .pending)
      (customError.unprocessableEntity ("Cannot complete credit in status " ++ statusText locked.status))
    let transaction ← updateStatus locked.id .successful
    let balanceAfter ← selectSuccessfulBalance .tx locked.walletId
    return { transaction, created := true, balanceAfter := some balanceAfter }

/-- The body of the transaction of `completeSuccessful`. -/
def completeTransaction (input : CompleteCreditInput) : Program LedgerWriteResult := do
  let found ← findById .tx input.transactionId
  let current ← orThrow found walletTransactionNotFound
  throwIf (current.walletId ≠ input.expectedWalletId)
    (customError.badRequest "Transaction wallet mismatch")
  lockWalletRow current.walletId
  let found ← findById .tx input.transactionId
  let locked ← orThrow found walletTransactionNotFound
  completeLocked locked

def completeCreditSuccessful (input : CompleteCreditInput) : Program LedgerWriteResult :=
  transaction (completeTransaction input)

/-! ### Debits and reversals -/

def rethrowWalletMissing {α : Type} (walletId : String) (body : Program α) : Program α :=
  tryCatch body fun e =>
    if includes e.message ("Wallet not found: " ++ walletId) then
      throw (customError.notFound "Wallet not found")
    else throw e

/-- The body of the transaction of `postSuccessful`. -/
def debitTransaction (input : PostDebitInput) : Program LedgerWriteResult := do
  lockWalletRow input.walletId
  let again ← findByIdempotencyKey .tx input.idempotencyKey
  match again with
  | some transaction => return { transaction, created := false }
  | none =>
      let available ← selectSuccessfulBalance .tx input.walletId
      throwIf (available < input.amount)
        (customError.unprocessableEntity "Insufficient wallet balance")
      let transaction ← insert input.data
      let balanceAfter ← selectSuccessfulBalance .tx input.walletId
      return { transaction, created := true, balanceAfter := some balanceAfter }

def postDebitSuccessful (input : PostDebitInput) : Program LedgerWriteResult := do
  assertAmount input.amount
  let existing ← findByIdempotencyKey .pool input.idempotencyKey
  match existing with
  | some transaction => return { transaction, created := false }
  | none => rethrowWalletMissing input.walletId (transaction (debitTransaction input))

/-- The body of the transaction of `postReversal`. -/
def reversalTransaction (input : PostReversalInput) : Program LedgerWriteResult := do
  lockWalletRow input.walletId
  let again ← findByIdempotencyKey .tx input.idempotencyKey
  match again with
  | some transaction => return { transaction, created := false }
  | none =>
      let transaction ← insert input.data
      let balanceAfter ← selectSuccessfulBalance .tx input.walletId
      return { transaction, created := true, balanceAfter := some balanceAfter }

/-- The checks of `postReversal` on the debit that is to be reversed. -/
def checkOriginal (input : PostReversalInput) (original : WalletTransaction) : Program Unit := do
  throwIf (original.type ≠ .debit)
    (customError.badRequest "Original debit transaction not found")
  throwIf (original.walletId ≠ input.walletId)
    (customError.badRequest "Reversal wallet mismatch")
  throwIf (original.amount ≠ input.amount)
    (customError.badRequest "Reversal amount must match original debit")

def postReversalCredit (input : PostReversalInput) : Program LedgerWriteResult := do
  assertAmount input.amount
  let existing ← findByIdempotencyKey .pool input.idempotencyKey
  match existing with
  | some transaction => return { transaction, created := false }
  | none =>
      let found ← findById .pool input.originalDebitId
      let original ← orThrow found (customError.badRequest "Original debit transaction not found")
      checkOriginal input original
      rethrowWalletMissing input.walletId (transaction (reversalTransaction input))

end WalletLedgerService

end WalletApi
