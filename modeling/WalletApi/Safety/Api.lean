import WalletApi.Runs.Certificate
import WalletApi.Safety.Payouts

/-!
The API keeps the books.

This is where the parts come together: every request, every webhook and every
execution of a worker is within the policy of the books, so the books are kept in
every configuration that a run from the empty database reaches, with any faults,
any crashes and any schedule.
-/

namespace WalletApi

open Concurrency ReadCommitted World Policy

variable {P : Platform} {config : Config} {A : Call → ℕ → Cmd → Choice → World → Prop} {q : Call}
  {i : ℕ} {s : World} {α β : Type}

/-! ### What only reads -/

theorem KeepsBooks.map {f : α → β} {p : Program α} (h : KeepsBooks P config A q i p s) :
    KeepsBooks P config A q i (f <$> p) s :=
  wp_map h

theorem getMe_keepsBooks {actor : JwtPayloadUser} :
    KeepsBooks P config A q i (WalletsService.getMe actor) s := by
  refine RelyGuarantee.wp_bind (wp_select (fun _ _ => trivial) fun _ _ _ => ?_)
  refine RelyGuarantee.wp_bind (wp_orThrow (fun _ => trivial) fun _ _ => ?_)
  exact RelyGuarantee.wp_bind (wp_select (fun _ _ => trivial) fun _ _ _ => trivial)

theorem listMyTransactions_keepsBooks {actor : JwtPayloadUser}
    {query : WalletsService.ListWalletTransactionsQueryDto} :
    KeepsBooks P config A q i (WalletsService.listMyTransactions actor query) s := by
  refine RelyGuarantee.wp_bind (wp_select (fun _ _ => trivial) fun _ _ _ => ?_)
  refine RelyGuarantee.wp_bind (wp_orThrow (fun _ => trivial) fun _ _ => ?_)
  exact RelyGuarantee.wp_bind (wp_select (fun _ _ => trivial) fun _ _ _ => trivial)

theorem getTransfer_keepsBooks {actor : JwtPayloadUser} {id : String} :
    KeepsBooks P config A q i (TransfersService.getOne actor id) s :=
  RelyGuarantee.wp_bind (wp_select (fun _ _ => trivial) fun _ _ _ =>
    RelyGuarantee.wp_bind (wp_orThrow (fun _ => trivial) fun _ _ => trivial))

theorem getWithdrawal_keepsBooks {actor : JwtPayloadUser} {id : String} :
    KeepsBooks P config A q i (WithdrawalsService.getOne actor id) s :=
  RelyGuarantee.wp_bind (wp_select (fun _ _ => trivial) fun _ _ _ =>
    RelyGuarantee.wp_bind (wp_orThrow (fun _ => trivial) fun _ _ => trivial))

theorem listWithdrawals_keepsBooks {actor : JwtPayloadUser} :
    KeepsBooks P config A q i (WithdrawalsService.listMine actor) s :=
  RelyGuarantee.wp_bind (wp_select (fun _ _ => trivial) fun _ _ _ => trivial)

/-! ### Workers and the provider -/

theorem work_keepsBooks {queue : QueueName} {name : String} {handler : String → Program Unit}
    (h : ∀ id s, KeepsBooks P config A q i (handler id) s) :
    KeepsBooks P config A q i (work queue name handler) s := by
  refine RelyGuarantee.wp_bind (wp_local rfl rfl fun _ t (job : Job) _ => ?_)
  have complete (t : World) : KeepsBooks P config A q i
      (perform (.completeJob queue job.jobId) >>= fun _ => pure ()) t :=
    RelyGuarantee.wp_bind (wp_local rfl rfl fun _ _ _ _ => trivial)
  have fail (t : World) : KeepsBooks P config A q i
      (perform (.failJob queue job.jobId) >>= fun _ => pure ()) t :=
    RelyGuarantee.wp_bind (wp_local rfl rfl fun _ _ _ _ => trivial)
  -- The handler runs only for a job of the right name.
  have body : KeepsBooks P config A q i
      (if job.name ≠ name then perform (.completeJob queue job.jobId) >>= fun _ => pure ()
        else handler job.data >>= fun _ => perform (.completeJob queue job.jobId) >>=
          fun _ => pure ()) t := by
    split
    · exact complete t
    · exact RelyGuarantee.wp_bind (RelyGuarantee.wp_mono (fun _ u _ => complete u)
        (fun _ _ h => h) _ (h job.data t))
  exact RelyGuarantee.wp_tryCatch (RelyGuarantee.wp_mono (fun _ _ h => h) (fun _ u _ => fail u) _
    body)

/-- The end of a bank transfer is an affair of the provider. -/
theorem finishBankTransfer_keepsBooks {transferId : String} {state : BankTransferState} :
    KeepsBooks P config A q i (perform (.finishBankTransfer transferId state)) s := by
  refine wp_perform (fun t _ w hw => by cases hw) fun t r u ho => ?_
  obtain ⟨ch, -, he⟩ := id ho.exec
  obtain ⟨took, hh⟩ := exec_history he
  have hdb : u.db = t.db := exec_db_of_provider (.inr ⟨_, _, rfl⟩) he
  have hinv : (bookkeeping A).Inv t := ho.policy
  have hrec : u.Recorded := by
    refine hinv.2.2.of_db_eq hdb (fun e he' => by rw [hh]; exact .tail _ he') fun e he' => ?_
    rw [hh] at he'
    rcases List.mem_cons.mp he' with rfl | hold
    · exact .inr fun params hp => by cases hp
    · exact .inl hold
  have hg := ho.step (lockGuarded_of_journal_eq (by rw [hdb]))
    ⟨⟨hdb ▸ hinv.1, hdb ▸ hinv.2.1, hrec⟩, Moved.of_db_eq A hdb hinv.1⟩
  exact ⟨hg.1, hg.2, by cases r <;> trivial⟩

/-! ### The certificate -/

def Call.isWithdrawalRequest : Call → Bool
  | postWithdrawals .. => true
  | _ => false

variable (P config A) in
/-- What a call has to say about its answer; only requests for a withdrawal do. -/
def Answered (i : ℕ) : Call → Response → World → Prop
  | .postWithdrawals actor header dto, r, u => ∃ key response,
      requireIdempotencyKey header = .ok key ∧ r = .withdrawal response ∧
        Answers P config A (.postWithdrawals actor header dto) i actor key dto response u
  | _, _, _ => True

variable (P config A) in
def Failed (G : JwtPayloadUser → String → CreateWithdrawalDto → World → Prop) :
    Call → Err → World → Prop
  | .postWithdrawals actor header dto, e, u => ∀ key, requireIdempotencyKey header = .ok key →
      Fails P config A (G actor key dto) actor key dto e u
  | _, _, _ => True

variable (P config A) in
/-- The calls from outside, under the assumption `A`. -/
def api : Machine.Assumptions (walletApi P config) := ⟨fun call => call.isApi, A⟩

variable (P config) in
/-- The calls from outside, in any order and with any faults. -/
def requests : Machine.Assumptions (walletApi P config) := api P config fun _ _ _ _ _ => True

instance : DecidablePred (api P config A).admits :=
  fun call => inferInstanceAs (Decidable (call.isApi = true))

instance [h : ∀ call i c ch s, Decidable (A call i c ch s)] :
    ∀ call i c ch s, Decidable ((api P config A).allows call i c ch s) :=
  h

instance : DecidablePred (requests P config).admits :=
  fun call => inferInstanceAs (Decidable (call.isApi = true))

instance : ∀ call i c ch s, Decidable ((requests P config).allows call i c ch s) :=
  fun _ _ _ _ _ => .isTrue trivial

variable {G : JwtPayloadUser → String → CreateWithdrawalDto → World → Prop}

theorem postWithdrawals_answered (hG : Guarded P config A G) {actor : JwtPayloadUser}
    {header : Option String} {dto : CreateWithdrawalDto} :
    ((bookkeeping A).discipline P config).wp (.postWithdrawals actor header dto) i
      (program P config (.postWithdrawals actor header dto))
      (Answered P config A i (.postWithdrawals actor header dto))
      (Failed P config A G (.postWithdrawals actor header dto)) s := by
  refine RelyGuarantee.wp_bind (wp_ofExcept ?_)
  cases hkey : requireIdempotencyKey header with
  | error e =>
      intro key hkey'
      cases hkey.symm.trans hkey'
  | ok key =>
      refine wp_map (RelyGuarantee.wp_mono ?_ ?_ _ (WithdrawalsService.wp_create hG hkey))
      · exact fun response u h => ⟨key, response, hkey, rfl, h⟩
      · intro e u h key' hkey'
        cases hkey.symm.trans hkey'
        exact h

/-- Every other call of the API. -/
theorem program_keepsBooks {call : Call} (hcall : call.isApi = true)
    (hne : call.isWithdrawalRequest = false) :
    KeepsBooks P config A call i (program P config call) s := by
  cases call with
  | register dto =>
      exact KeepsBooks.map (AuthService.wp_register grantsUsers (fun _ _ => trivial)
        fun _ _ => trivial)
  | login dto =>
      exact KeepsBooks.map (AuthService.wp_login grantsUsers (fun _ _ => trivial)
        fun _ _ => trivial)
  | createPin actor dto =>
      exact KeepsBooks.map (AuthService.wp_createPin grantsUsers (fun _ _ => trivial)
        fun _ _ => trivial)
  | getWallet actor => exact getMe_keepsBooks.map
  | listWalletTransactions actor query => exact listMyTransactions_keepsBooks.map
  | postTransfers actor header dto =>
      refine RelyGuarantee.wp_bind (wp_ofExcept ?_)
      cases hkey : requireIdempotencyKey header with
      | error e => trivial
      | ok key =>
          exact KeepsBooks.map (TransferCreateService.create_keepsBooks
            (isUuid4_of_requireIdempotencyKey hkey))
  | getTransfer actor id => exact getTransfer_keepsBooks.map
  | postWithdrawals actor header dto => cases hne
  | listWithdrawals actor => exact listWithdrawals_keepsBooks.map
  | getWithdrawal actor id => exact getWithdrawal_keepsBooks.map
  | flutterwaveWebhook verifHash body =>
      exact KeepsBooks.map TransferWebhookService.handle_keepsBooks
  | transferCompleteWorker =>
      exact KeepsBooks.map (work_keepsBooks fun _ _ =>
        TransferCompleteService.completeFromWebhook_keepsBooks)
  | withdrawalPayoutWorker =>
      exact KeepsBooks.map (work_keepsBooks fun _ _ =>
        WithdrawalPayoutService.processPayout_keepsBooks)
  | withdrawalSettleWorker =>
      exact KeepsBooks.map (work_keepsBooks fun _ _ =>
        WithdrawalSettleService.processSettle_keepsBooks)
  | providerFinish transferId state => exact finishBankTransfer_keepsBooks.map
  | _ => cases hcall

theorem bookkeeping_initial : (bookkeeping A).Inv World.initial where
  left := List.nodup_nil
  right := ⟨.empty, fun _ he => absurd he List.not_mem_nil,
    fun _ hw => absurd hw List.not_mem_nil, fun _ hr => absurd hr List.not_mem_nil⟩

variable (P config A) in
/-- Every call of the API keeps the books. -/
theorem api_certified (hG : Guarded P config A G) :
    Certified (walletApi P config) (api P config A) World.initial
      ((bookkeeping A).discipline P config) (fun call i => Answered P config A i call)
      (fun call _ => Failed P config A G call) := by
  refine Policy.certified bookkeeping_initial (fun _ _ _ _ _ h => h) fun call i s hcall => ?_
  cases hrequest : call.isWithdrawalRequest with
  | true =>
      cases call with
      | postWithdrawals actor header dto => exact postWithdrawals_answered hG
      | _ => cases hrequest
  | false =>
      refine RelyGuarantee.wp_mono ?_ ?_ _ (program_keepsBooks hcall hrequest)
      · intro r u _
        cases call with
        | postWithdrawals actor header dto => cases hrequest
        | _ => trivial
      · intro e u _
        cases call with
        | postWithdrawals actor header dto => cases hrequest
        | _ => trivial

/-- The books in every state that a run reaches. -/
theorem books_of_reachable {cfg : Machine.Config (walletApi P config)}
    (h : Machine.Reachable (requests P config) World.initial cfg) :
    cfg.state.db.Unique ∧ cfg.state.db.Books ∧ cfg.state.Recorded :=
  ((api_certified P config _ .true).inv h).2.2

end WalletApi
