import WalletApi.Concurrency.Machine
import WalletApi.Model.Provider

/-!
The world the services run in, and what one command does to it.

The world is the database, the job queues, the clock, the payment provider and,
for the record, everything that has happened so far. A command either goes
through, fails without effect, or takes effect while its answer is lost; the
last two reach the program as the same error. Commands that never leave the
process do not fail.

What the environment decides at a command is collected in `Choice`: the fault,
a generated identifier, the time, the answer of the provider and whether the
provider accepts a transfer.
-/

namespace WalletApi

open Concurrency ReadCommitted

/-- A statement runs by itself or inside the open transaction of its thread. -/
inductive Client
  | pool | tx
  deriving DecidableEq

inductive QueueName
  | transferComplete | withdrawalPayout | withdrawalSettle
  deriving DecidableEq

inductive JobState
  | waiting | active | failed
  deriving DecidableEq

/-- A job as BullMQ keeps it. The data of every job is one id. -/
structure Job where
  queue : QueueName
  name : String
  jobId : String
  data : String
  attempts : ℕ
  attemptsMade : ℕ := 0
  state : JobState := .waiting
  deriving DecidableEq

inductive BankTransferState
  | pending | successful | failed
  deriving DecidableEq

/-- A transfer that the provider has accepted. -/
structure BankTransfer where
  id : String
  params : InitiateBankTransferParams
  state : BankTransferState
  deriving DecidableEq

structure Bank where
  /-- The transfer requests that have arrived, newest first. -/
  received : List InitiateBankTransferParams
  transfers : List BankTransfer

inductive Cmd
  | select (client : Client) (q : Query)
  | write (client : Client) (w : Write)
  /-- `SELECT id FROM wallets WHERE id = … FOR UPDATE`. -/
  | lockWalletRow (walletId : String)
  | begin
  | commit
  | rollback
  /-- The `cuid()` and `now()` with which the client fills in a new row. -/
  | defaults
  | randomUUID
  /-- `new Date()`. -/
  | now
  | bcryptHash (password : String)
  | bcryptCompare (password hash : String)
  | queueAdd (job : Job)
  | takeJob (queue : QueueName)
  | completeJob (queue : QueueName) (jobId : String)
  | failJob (queue : QueueName) (jobId : String)
  | initiatePayment (params : InitiatePaymentParams)
  | verifyByTxRef (txRef : String)
  | initiateBankTransfer (params : InitiateBankTransferParams)
  | getBankTransferStatus (transferId : String)
  /-- The provider brings a transfer to an end. -/
  | finishBankTransfer (transferId : String) (state : BankTransferState)

namespace Cmd

def Resp : Cmd → Type
  | select _ q => q.Result
  | write _ w => w.Result
  | lockWalletRow _ => Bool
  | begin | commit | rollback => Unit
  | defaults => String × ℕ
  | randomUUID => String
  | now => ℕ
  | bcryptHash _ => String
  | bcryptCompare .. => Bool
  | queueAdd _ => Unit
  | takeJob _ => Job
  | completeJob .. | failJob .. => Unit
  | initiatePayment _ => InitiatePaymentResult
  | verifyByTxRef _ => VerifyPaymentResult
  | initiateBankTransfer _ => InitiateBankTransferResult
  | getBankTransferStatus _ => BankTransferStatusResult
  | finishBankTransfer .. => Unit

/-- The command is sent over a connection that may fail; the mock adapter has none. -/
def fallible (config : Config) : Cmd → Bool
  | select .. | write .. | lockWalletRow _ | begin | commit | queueAdd _ => true
  | initiatePayment _ | verifyByTxRef _ | initiateBankTransfer _ | getBankTransferStatus _ =>
      !config.useMock
  | _ => false

end Cmd

def signature : Signature := ⟨Cmd, Cmd.Resp, Err⟩

inductive Fault
  | none | failed | lost
  deriving DecidableEq

/-- What the environment decides at a command. -/
structure Choice where
  fault : Fault := .none
  /-- A generated id, salt or UUID; the job a worker takes; the provider's id
  of a transfer it accepts. -/
  text : String := ""
  time : ℕ := 0
  answer : HttpAnswer := {}
  /-- The provider accepts the transfer it is asked for. -/
  accepts : Bool := false

/-- A command that was issued, by which thread, with what answer, and whether
it was carried out. -/
structure Event where
  pid : ℕ
  cmd : Cmd
  result : Except Err cmd.Resp
  took : Bool

structure World where
  store : Store schema
  jobs : List Job
  clock : ℕ
  bank : Bank
  /-- Everything that has happened, newest first. -/
  history : List Event

namespace World

/-- The committed database. -/
def db (w : World) : Db := w.store.db

/-- A world in which nothing has happened yet. -/
def initial : World := ⟨.ofDb .empty, [], 0, ⟨[], []⟩, []⟩

/-- What a statement of thread `i` sees. -/
def view (w : World) (i : ℕ) : Client → Db
  | .pool => w.db
  | .tx => w.store.view i

/-- Make a write, by itself or in the open transaction. -/
def stage (w : World) (i : ℕ) (data : Write) : Client → Verdict schema
  | .pool => w.store.write data
  | .tx => w.store.stage i data

def updateJob (queue : QueueName) (jobId : String) (f : Job → Job) (jobs : List Job) : List Job :=
  jobs.map fun job => if job.queue = queue ∧ job.jobId = jobId then f job else job

def write (w : World) (i : ℕ) (client : Client) (data : Write) :
    Option (Except Err data.Result × World) :=
  if data.inRange = false then some (.error (.prisma .valueOutOfRange), w)
  else if data.storable = false then some (.error (.prisma .invalidText), w)
  else
    match data.result (w.view i client) with
    | none => some (.error (.prisma .recordNotFound), w)
    | some row =>
        match w.stage i data client with
        | .blocked => none
        | .conflict => some (.error (.prisma .uniqueConstraint), w)
        | .done store => some (.ok row, { w with store })

/-- `FOR UPDATE` finds no row, finds it free, or waits. -/
def lockWalletRow (w : World) (i : ℕ) (walletId : String) :
    Option (Except Err Bool × World) :=
  if w.db.wallets.any (·.id = walletId) then
    (w.store.lock i walletId).map fun store => (.ok true, { w with store })
  else some (.ok false, w)

/-- A job with an id that the queue still holds is not added again. -/
def queueAdd (w : World) (job : Job) : World :=
  if w.jobs.any fun j => j.queue = job.queue ∧ j.jobId = job.jobId then w
  else { w with jobs := w.jobs ++ [job] }

/-- A worker takes a job that waits, or one that another worker was believed to
have stalled on. -/
def takeJob (w : World) (queue : QueueName) (jobId : String) : Option (Except Err Job × World) :=
  (w.jobs.find? fun j => j.queue = queue ∧ j.jobId = jobId ∧ j.state ≠ .failed).map fun job =>
    (.ok job, { w with jobs := updateJob queue jobId ({ · with state := .active }) w.jobs })

/-- `removeOnComplete`. -/
def completeJob (w : World) (queue : QueueName) (jobId : String) : World :=
  { w with jobs := w.jobs.filter fun j => ¬(j.queue = queue ∧ j.jobId = jobId) }

/-- The job waits again while attempts remain and is kept as failed otherwise. -/
def failJob (w : World) (queue : QueueName) (jobId : String) : World :=
  { w with
    jobs := updateJob queue jobId (fun job =>
      { job with
        attemptsMade := job.attemptsMade + 1
        state := if job.attemptsMade + 1 < job.attempts then .waiting else .failed }) w.jobs }

/-- The request arrives at the provider, which accepts it or does not. -/
def receiveBankTransfer (w : World) (params : InitiateBankTransferParams) (ch : Choice) : World :=
  { w with
    bank :=
      { received := params :: w.bank.received
        transfers :=
          if ch.accepts then
            w.bank.transfers ++ [{ id := ch.text, params, state := .pending }]
          else w.bank.transfers } }

/-- A transfer ends only once. -/
def finishBankTransfer (w : World) (transferId : String) (state : BankTransferState) : World :=
  { w with
    bank :=
      { w.bank with
        transfers := w.bank.transfers.map fun t =>
          if t.id = transferId ∧ t.state = .pending then { t with state } else t } }

variable (P : Platform) (config : Config)

/-- What a command does when nothing goes wrong; `none` while it has to wait. -/
def perform (i : ℕ) (c : Cmd) (ch : Choice) (w : World) : Option (Except Err c.Resp × World) :=
  match c with
  | .select client q => some (.ok (q.run (w.view i client)), w)
  | .write client data => w.write i client data
  | .lockWalletRow walletId => w.lockWalletRow i walletId
  | .begin => (w.store.begin i).map fun store => (.ok (), { w with store })
  | .commit => (w.store.commit i).map fun store => (.ok (), { w with store })
  | .rollback => some (.ok (), { w with store := w.store.rollback i })
  | .defaults => some (.ok (ch.text, ch.time), w)
  | .randomUUID => some (.ok ch.text, w)
  | .now =>
      let clock := max w.clock ch.time
      some (.ok clock, { w with clock })
  | .bcryptHash password => some (.ok (P.bcryptHash ch.text password), w)
  | .bcryptCompare password hash => some (.ok (P.bcryptCompare password hash), w)
  | .queueAdd job => some (.ok (), w.queueAdd job)
  | .takeJob queue => w.takeJob queue ch.text
  | .completeJob queue jobId => some (.ok (), w.completeJob queue jobId)
  | .failJob queue jobId => some (.ok (), w.failJob queue jobId)
  | .initiatePayment params =>
      if config.useMock then some (.ok (FlutterwaveMockAdapter.initiatePayment P params), w)
      else some (FlutterwavePaymentService.initiatePayment ch.answer, w)
  | .verifyByTxRef txRef =>
      if config.useMock then some (.ok (FlutterwaveMockAdapter.verifyByTxRef txRef), w)
      else some (FlutterwavePaymentService.verifyByTxRef P txRef ch.answer, w)
  | .initiateBankTransfer params =>
      if config.useMock then some (.ok (FlutterwaveMockAdapter.initiateBankTransfer params), w)
      else
        some (FlutterwavePaymentService.initiateBankTransfer P ch.answer,
          w.receiveBankTransfer params ch)
  | .getBankTransferStatus transferId =>
      if config.useMock then
        some (.ok (FlutterwaveMockAdapter.getBankTransferStatus transferId), w)
      else some (FlutterwavePaymentService.getBankTransferStatus P transferId ch.answer, w)
  | .finishBankTransfer transferId state => some (.ok (), w.finishBankTransfer transferId state)

/-- Write down what happened. -/
def record (w : World) (e : Event) : World := { w with history := e :: w.history }

/-- One command of thread `i`, with the fault the environment chose. -/
def exec (i : ℕ) (c : Cmd) (ch : Choice) (w : World) : Option (Except Err c.Resp × World) :=
  if c.fallible config ∧ ch.fault = .failed then
    some (.error .network, w.record ⟨i, c, .error .network, false⟩)
  else
    (perform P config i c ch w).map fun (r, w') =>
      let answer := if c.fallible config ∧ ch.fault = .lost then .error .network else r
      (answer, w'.record ⟨i, c, answer, r.isOk⟩)

/-- The connection of a thread that stops is closed, and its transaction undone. -/
def crash (i : ℕ) (w : World) : World := { w with store := w.store.rollback i }

end World

end WalletApi
