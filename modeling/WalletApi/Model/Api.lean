import WalletApi.Model.Transfers

/-!
The API as a machine: every request, every delivery of a webhook and every
execution of a worker is a call with a program, and any number of them run at
the same time.

The operations of the ledger and of the withdrawal repository are calls as well,
so that they can be studied by themselves; `Call.isApi` tells them from what
really arrives from outside.
-/

namespace WalletApi

open Concurrency WithdrawalRepository

/-- `GET /wallets/me`. -/
structure WalletView where
  id : String
  userId : String
  currency : String
  status : WalletStatus
  balance : ℤ
  deriving DecidableEq

namespace WalletsService

def getMe (actor : JwtPayloadUser) : Program WalletView := do
  let found ← WalletRepository.findByUserId actor.userId
  let wallet ← orThrow found (customError.notFound "Wallet not found")
  let balance ← selectSuccessfulBalance .pool wallet.id
  return {
    id := wallet.id
    userId := wallet.userId
    currency := wallet.currency
    status := wallet.status
    balance }

/-- `limit` has passed `@Min(1) @Max(100)`. -/
structure ListWalletTransactionsQueryDto where
  limit : Option ℕ := none
  cursor : Option String := none
  limit_min : ∀ n ∈ limit, 1 ≤ n
  limit_max : ∀ n ∈ limit, n ≤ 100

def listMyTransactions (actor : JwtPayloadUser) (query : ListWalletTransactionsQueryDto) :
    Program WalletTransactionRepository.ListWalletTransactionsResult := do
  let found ← WalletRepository.findByUserId actor.userId
  let wallet ← orThrow found (customError.notFound "Wallet not found")
  WalletTransactionRepository.listByWalletId wallet.id query.limit query.cursor

end WalletsService

/-! ### Workers -/

/-- A worker takes a job and processes it; what the handler throws fails the
job. A job of another name is ignored. -/
def work (queue : QueueName) (name : String) (handler : String → Program Unit) : Program Unit := do
  let job : Job ← perform (.takeJob queue)
  tryCatch
    (do
      if job.name ≠ name then pure () else handler job.data
      let _ ← perform (.completeJob queue job.jobId)
      return)
    fun _ => do
      let _ ← perform (.failJob queue job.jobId)
      return

inductive Call
  | register (dto : RegisterDto)
  | login (dto : LoginDto)
  | createPin (actor : JwtPayloadUser) (dto : CreatePinDto)
  | getWallet (actor : JwtPayloadUser)
  | listWalletTransactions (actor : JwtPayloadUser)
      (query : WalletsService.ListWalletTransactionsQueryDto)
  | postTransfers (actor : JwtPayloadUser) (idempotencyKey : Option String)
      (dto : CreateTransferDto)
  | getTransfer (actor : JwtPayloadUser) (id : String)
  | postWithdrawals (actor : JwtPayloadUser) (idempotencyKey : Option String)
      (dto : CreateWithdrawalDto)
  | listWithdrawals (actor : JwtPayloadUser)
  | getWithdrawal (actor : JwtPayloadUser) (id : String)
  | flutterwaveWebhook (verifHash : Option String) (body : Json)
  | transferCompleteWorker
  | withdrawalPayoutWorker
  | withdrawalSettleWorker
  /-- The provider brings a bank transfer to an end. -/
  | providerFinish (transferId : String) (state : BankTransferState)
  | executeP2p (data : ExecuteP2pWithdrawalData)
  | executeBankAccept (data : ExecuteBankWithdrawalData)
  | postCreditPending (input : PostCreditPendingInput)
  | completeCreditSuccessful (input : CompleteCreditInput)
  | postDebitSuccessful (input : PostDebitInput)
  | postReversalCredit (input : PostReversalInput)

namespace Call

/-- The call comes from outside: a request, a webhook, a job or the provider. -/
def isApi : Call → Bool
  | executeP2p _ | executeBankAccept _ | postCreditPending _ | completeCreditSuccessful _
  | postDebitSuccessful _ | postReversalCredit _ => false
  | _ => true

/-- One of the six operations that write to the journal. The withdrawals get
their amount from a validated request, the others check it themselves. -/
def isLedger : Call → Bool
  | executeP2p data => 0 < data.amount
  | executeBankAccept data => 0 < data.amount
  | postCreditPending _ | completeCreditSuccessful _ | postDebitSuccessful _
  | postReversalCredit _ => true
  | _ => false

end Call

inductive Response
  | done
  | auth (result : AuthService.AuthResult)
  | message (text : String)
  | wallet (view : WalletView)
  | walletTransactions (page : WalletTransactionRepository.ListWalletTransactionsResult)
  | transfer (response : TransferResponse)
  | withdrawal (response : WithdrawalResponse)
  | withdrawals (list : List WithdrawalSummary)
  | received (webhookEventId : String)
  | executed (result : ExecuteWithdrawalResult)
  | ledger (result : LedgerWriteResult)
  deriving DecidableEq

variable (P : Platform) (config : Config)

/-- The program that serves a call. -/
def program : Call → Program Response
  | .register dto => .auth <$> AuthService.register P dto
  | .login dto => .auth <$> AuthService.login P dto
  | .createPin actor dto => .message <$> AuthService.createPin actor dto
  | .getWallet actor => .wallet <$> WalletsService.getMe actor
  | .listWalletTransactions actor query =>
      .walletTransactions <$> WalletsService.listMyTransactions actor query
  | .postTransfers actor idempotencyKey dto => do
      let key ← ofExcept (requireIdempotencyKey idempotencyKey)
      .transfer <$> TransferCreateService.create P config actor dto key
  | .getTransfer actor id => .transfer <$> TransfersService.getOne actor id
  | .postWithdrawals actor idempotencyKey dto => do
      let key ← ofExcept (requireIdempotencyKey idempotencyKey)
      .withdrawal <$> WithdrawalsService.create P actor dto key
  | .listWithdrawals actor => .withdrawals <$> WithdrawalsService.listMine actor
  | .getWithdrawal actor id => .withdrawal <$> WithdrawalsService.getOne actor id
  | .flutterwaveWebhook verifHash body =>
      .received <$> TransferWebhookService.handleFlutterwaveWebhook config verifHash body
  | .transferCompleteWorker =>
      (fun _ => .done) <$>
        work .transferComplete TRANSFER_COMPLETE_JOB TransferCompleteService.completeFromWebhook
  | .withdrawalPayoutWorker =>
      (fun _ => .done) <$>
        work .withdrawalPayout WITHDRAWAL_PAYOUT_JOB WithdrawalPayoutService.processPayout
  | .withdrawalSettleWorker =>
      (fun _ => .done) <$>
        work .withdrawalSettle WITHDRAWAL_SETTLE_JOB WithdrawalSettleService.processSettle
  | .providerFinish transferId state =>
      (fun _ => .done) <$> perform (.finishBankTransfer transferId state)
  | .executeP2p data => .executed <$> executeP2p data
  | .executeBankAccept data => .executed <$> executeBankAccept data
  | .postCreditPending input => .ledger <$> WalletLedgerService.postCreditPending input
  | .completeCreditSuccessful input =>
      .ledger <$> WalletLedgerService.completeCreditSuccessful input
  | .postDebitSuccessful input => .ledger <$> WalletLedgerService.postDebitSuccessful input
  | .postReversalCredit input => .ledger <$> WalletLedgerService.postReversalCredit input

/-- The wallet API as a concurrent machine. -/
def walletApi : Machine where
  sig := signature
  State := World
  Choice := Choice
  Call := Call
  Result := Response
  program := program P config
  exec := World.exec P config
  crash := World.crash

end WalletApi
