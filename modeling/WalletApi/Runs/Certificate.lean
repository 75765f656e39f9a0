import WalletApi.Runs.LedgerOperations

/-!
From the programs to the runs.

If every call keeps the discipline of a policy, the discipline holds in every
configuration that a run of the API reaches. The initial world and the threads
that stop are in order whatever the policy says about them.
-/

namespace WalletApi

open Concurrency ReadCommitted World

variable {P : Platform} {config : Config} {Γ : Policy} {q : Call} {i : ℕ} {s t u : World}

namespace Policy

theorem discipline_initial (h : Γ.Inv World.initial) :
    (Γ.discipline P config).Inv World.initial :=
  ⟨Store.Coherent.ofDb _, List.nodup_nil, h⟩

theorem crash_step (h : (Γ.discipline P config).Inv s) :
    (Γ.discipline P config).Inv (World.crash i s) ∧
      (Γ.discipline P config).Guar i s (World.crash i s) := by
  have hquiet : Quiet s (World.crash i s) := ⟨rfl, rfl, .inl rfl⟩
  have hstep : Stepped P config i s (World.crash i s) := .inr rfl
  have hp : Γ.Inv (World.crash i s) ∧ Γ.Guar i s (World.crash i s) := Γ.quiet hquiet h.2.2
  exact ⟨⟨hstep.store.coherent h.1, hstep.store.unique h.1 h.2.1, hp.1⟩, hstep,
    lockGuarded_of_journal_eq rfl, hp.2⟩

/-- The API keeps a policy if each call does. -/
theorem certified {A : Machine.Assumptions (walletApi P config)}
    {Q : Call → ℕ → Response → World → Prop} {E : Call → ℕ → Err → World → Prop}
    (hinitial : Γ.Inv World.initial)
    (hallows : ∀ call i c ch s, A.allows call i c ch s → Γ.Allows call i c ch s)
    (hcall : ∀ call i s, A.admits call →
      (Γ.discipline P config).wp call i (program P config call) (Q call i) (E call i) s) :
    Certified (walletApi P config) A World.initial (Γ.discipline P config) Q E where
  initial := discipline_initial hinitial
  covers := fun _ _ ha he => ⟨_, hallows _ _ _ _ _ ha, he⟩
  crash := fun _ hs => crash_step hs
  call := fun ha _ => hcall _ _ _ ha

end Policy

/-- Whatever happens, the database grows. -/
theorem grows_of_next {cfg cfg' : Machine.Config (walletApi P config)}
    {a : Machine.Action (walletApi P config)}
    (h : Machine.next cfg a = some cfg') : cfg.state.db.Grows cfg'.state.db := by
  cases a with
  | spawn i call =>
      obtain ⟨-, rfl⟩ := Machine.next_spawn_iff.mp h
      exact .refl _
  | step i ch =>
      obtain ⟨call, c, k, r, t, -, he, rfl⟩ := Machine.next_step_iff.mp h
      have hstepped : Stepped P config i cfg.state t := .inl ⟨c, ch, r, he⟩
      exact hstepped.grows
  | crash i =>
      obtain ⟨call, p, -, rfl⟩ := Machine.next_crash_iff.mp h
      have hstepped : Stepped P config i cfg.state (World.crash i cfg.state) := .inr rfl
      exact hstepped.grows

theorem grows_of_run {A : Machine.Assumptions (walletApi P config)}
    {cfg cfg' : Machine.Config (walletApi P config)} (h : Machine.Run A cfg cfg') :
    cfg.state.db.Grows cfg'.state.db := by
  induction h with
  | refl => exact .refl _
  | tail _ hlast ih =>
      obtain ⟨a, -, hn⟩ := hlast
      exact ih.trans (grows_of_next hn)

/-- The history only grows. -/
theorem history_of_run {A : Machine.Assumptions (walletApi P config)}
    {cfg cfg' : Machine.Config (walletApi P config)} (h : Machine.Run A cfg cfg') :
    ∃ es, World.history cfg'.state = es ++ World.history cfg.state := by
  induction h with
  | refl => exact ⟨[], rfl⟩
  | tail _ hlast ih =>
      obtain ⟨es, hes⟩ := ih
      obtain ⟨a, -, hn⟩ := hlast
      cases a with
      | spawn i call =>
          obtain ⟨-, rfl⟩ := Machine.next_spawn_iff.mp hn
          exact ⟨es, hes⟩
      | step i ch =>
          obtain ⟨call, c, k, r, t, -, he, rfl⟩ := Machine.next_step_iff.mp hn
          obtain ⟨took, hh⟩ := World.exec_history he
          exact ⟨⟨i, c, r, took⟩ :: es, hh.trans (congrArg _ hes)⟩
      | crash i =>
          obtain ⟨call, p, -, rfl⟩ := Machine.next_crash_iff.mp hn
          exact ⟨es, hes⟩

/-! ### Schedules

A run is replayed from a schedule. Most steps are calm: nothing fails and nothing
has to be generated. -/

namespace Schedule

/-- The steps of one thread. -/
def steps (i : ℕ) (choices : List Choice) : List (Machine.Action (walletApi P config)) :=
  choices.map (.step i)

def calm (i n : ℕ) : List (Machine.Action (walletApi P config)) :=
  steps i (List.replicate n {})

/-- Steps that generate ids. -/
def generate (i : ℕ) (texts : List String) : List (Machine.Action (walletApi P config)) :=
  steps i (texts.map fun text => { text })

/-- A whole registration, which creates a user and its wallet. -/
def register (i : ℕ) (username userId walletId : String) :
    List (Machine.Action (walletApi P config)) :=
  [.spawn i (.register
    { email := username
      username
      firstName := username
      lastName := username
      password := "password"
      confirmPassword := "password" })] ++
    calm i 3 ++ generate i [userId, walletId] ++ calm i 1

def createPin (i : ℕ) (userId : String) : List (Machine.Action (walletApi P config)) :=
  .spawn i (.createPin ⟨userId⟩ { pin := "1234", confirmPin := "1234", password := "password" }) ::
    calm i 4

def idempotencyKey : String := "99e643eb-53f9-441f-9f44-73fc528328e4"

/-- The provider has taken ten naira. -/
def paid : HttpAnswer where
  body := some (.obj [("status", .str "success"), ("data", .obj [
    ("link", .str "checkout"), ("status", .str "successful"), ("amount", .num 10)])])

/-- The user asks for a funding of 1000 kobo. -/
def postTransfer (i : ℕ) (userId : String) : List (Machine.Action (walletApi P config)) :=
  .spawn i (.postTransfers ⟨userId⟩ (some idempotencyKey)
      { amount := 1000
        pin := "1234"
        amount_min := by decide
        amount_max := by decide
        pin_digits := by decide }) ::
    calm i 5 ++ generate i ["f", "t1"] ++ calm i 5 ++ generate i ["r1"] ++ calm i 2 ++
      steps i [{ answer := paid }, {}]

/-- The provider tells that the funding of the user has been paid. -/
def webhook (i : ℕ) (userId eventId storedId : String) :
    List (Machine.Action (walletApi P config)) :=
  .spawn i (.flutterwaveWebhook (some "mock-webhook-secret") (.obj [("data", .obj [
      ("id", .str eventId), ("tx_ref", .str ("fund_" ++ userId ++ "_f"))])])) ::
    calm i 1 ++ generate i [storedId] ++ calm i 2

/-- The worker credits the funding. -/
def completeTransfer (i : ℕ) (storedId : String) : List (Machine.Action (walletApi P config)) :=
  .spawn i .transferCompleteWorker :: generate i ["transfer-complete-" ++ storedId] ++ calm i 2 ++
    steps i [{ answer := paid }] ++ calm i 12

/-- Ada and Bob have registered, and Ada has 1000 kobo. -/
def fundedAda : List (Machine.Action (walletApi P config)) :=
  register 0 "ada" "u1" "w1" ++ register 1 "bob" "u2" "w2" ++ createPin 2 "u1" ++
    postTransfer 3 "u1" ++ webhook 4 "u1" "1" "e1" ++ completeTransfer 5 "e1"

def toBob : CreateWithdrawalDto where
  destinationType := .wallet
  recipientUsername := some "bob"
  amount := 400
  pin := "1234"
  amount_min := by decide
  amount_max := by decide
  recipientUsername_length _ := by decide
  bankCode_digits := nofun
  accountNumber_length := nofun
  accountName_length := nofun
  pin_digits := by decide

/-- The mock provider takes the transfers to this account on and fails them later. -/
def toBank : CreateWithdrawalDto where
  destinationType := .bank
  bankCode := some "044"
  accountNumber := some "0690000999"
  accountName := some "Ada"
  amount := 300
  pin := "1234"
  amount_min := by decide
  amount_max := by decide
  recipientUsername_length := nofun
  bankCode_digits _ := by decide
  accountNumber_length _ := by decide
  accountName_length _ := by decide
  pin_digits := by decide

/-- How the call of the thread has ended, if it has. -/
def ended (cfg : Machine.Config (walletApi P config)) (i : ℕ) :
    Option (Call × Except Err Response) :=
  match cfg.threads i with
  | some (.running call (.ret r)) => some (call, .ok r)
  | some (.running call (.fail e)) => some (call, .error e)
  | _ => none

theorem threads_of_ended {cfg : Machine.Config (walletApi P config)} {call : Call}
    {r : Except Err Response} (h : ended cfg i = some (call, r)) :
    cfg.threads i = some (.running call (ofExcept r)) := by
  unfold ended at h
  split at h
  · rename_i hth
    cases h
    exact hth
  · rename_i hth
    cases h
    exact hth
  · cases h

def secondKey : String := "1b4e28ba-2fa1-41d2-883f-0016d3cca427"

def thirdKey : String := "6fa459ea-ee8a-4ca4-894e-db77e160355e"

/-- Ada sends 400 to Bob. -/
def sendToBob (i : ℕ) (key withdrawalId debitId creditId : String) :
    List (Machine.Action (walletApi P config)) :=
  .spawn i (.postWithdrawals ⟨"u1"⟩ (some key) toBob) :: calm i 11 ++
    generate i [withdrawalId, "", debitId, "", creditId] ++ calm i 3

/-- Ada withdraws 300 to her bank account. -/
def payToBank (i : ℕ) (key uuid withdrawalId debitId : String) :
    List (Machine.Action (walletApi P config)) :=
  .spawn i (.postWithdrawals ⟨"u1"⟩ (some key) toBank) :: calm i 3 ++ generate i [uuid] ++
    calm i 5 ++ generate i [withdrawalId, "", debitId] ++ calm i 4

/-- The provider takes a transfer on under the id. -/
def accepts (id : String) : Choice where
  text := id
  accepts := true
  answer.body := some (.obj [("status", .str "success"), ("data", .obj [
    ("id", .str id), ("status", .str "NEW")])])

/-- The provider turns a transfer down. -/
def refuses : Choice where
  answer := { ok := false, body := some (.obj [("status", .str "error")]) }

/-- A worker takes the payout of a withdrawal and asks the provider. -/
def askProvider (i : ℕ) (withdrawalId : String) (ch : Choice) :
    List (Machine.Action (walletApi P config)) :=
  .spawn i .withdrawalPayoutWorker :: generate i ["withdrawal-payout-" ++ withdrawalId] ++
    calm i 1 ++ steps i [ch]

/-- A worker pays a withdrawal out, and the provider takes the transfer on. -/
def payout (i : ℕ) (withdrawalId : String) (ch : Choice) :
    List (Machine.Action (walletApi P config)) :=
  askProvider i withdrawalId ch ++ calm i 3

/-- The provider tells the status of a transfer. -/
def reports (status : String) : Choice where
  answer.body := some (.obj [("status", .str "success"), ("data", .obj [
    ("status", .str status)])])

/-- A worker takes the settlement of a withdrawal and reads it. -/
def readForSettle (i : ℕ) (withdrawalId : String) : List (Machine.Action (walletApi P config)) :=
  .spawn i .withdrawalSettleWorker :: generate i ["withdrawal-settle-" ++ withdrawalId] ++ calm i 1

/-- A worker settles a withdrawal whose transfer has failed. -/
def settle (i : ℕ) (withdrawalId reversalId : String) :
    List (Machine.Action (walletApi P config)) :=
  .spawn i .withdrawalSettleWorker :: generate i ["withdrawal-settle-" ++ withdrawalId] ++
    calm i 7 ++ generate i [reversalId] ++ calm i 5

/-- A platform on which a schedule can be replayed. -/
def platform : Platform where
  sha256 := id
  toLowerCase := String.map Char.toLower
  toUpperCase := String.map Char.toUpper
  encodeURIComponent := id
  stringToNumber _ := 0 / 0
  bcryptHash salt password := salt ++ password
  bcryptCompare password hash := hash = password
  jwtSign userId _ _ := userId

def mockConfig : Config := { flutterwaveMock := some "true" }

def liveConfig : Config where
  flutterwaveSecretKey := some "live"
  flutterwaveWebhookSecret := some "mock-webhook-secret"

end Schedule

end WalletApi
