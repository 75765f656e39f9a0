import WalletApi.Concurrency.Progress
import WalletApi.Safety.Amounts
import WalletApi.Safety.Deadlock
import WalletApi.Safety.Spending

/-!
Every call comes to its end, and takes nothing with it.

The programs of the API keep their statements in order: a transaction is begun
where none is open, statements of a transaction are made inside it, and what has
been begun is committed or rolled back, whatever fails on the way. So a call that
has ended holds nothing that others would have to wait for; and a call that
nobody disturbs can always take its next step.
-/

namespace WalletApi

open Concurrency ReadCommitted Machine World WithdrawalRepository WalletLedgerService

variable {P : Platform} {config : Config} {i : ℕ} {α β : Type} {c : Cmd}

/-! ### The order of statements -/

/-- Where a command belongs. -/
inductive Scope
  | anywhere | outside | inside | begin | commit | rollback | take
  deriving DecidableEq

def Cmd.scope : Cmd → Scope
  | write .pool _ => .outside
  | select .tx _ | write .tx _ | lockWalletRow _ => .inside
  | begin => .begin
  | commit => .commit
  | rollback => .rollback
  | takeJob _ => .take
  | _ => .anywhere

/-- Where a thread is. It is `unsure` when the answer to a `BEGIN` or a `COMMIT`
has been lost, and `wrong` after a command that is out of order. -/
inductive Phase
  | fresh | outside | inside | unsure | wrong
  deriving DecidableEq

namespace Phase

def next : Phase → Scope → Bool → Phase
  | fresh, .take, _ => outside
  | fresh, .anywhere, _ | fresh, .outside, _ => outside
  | outside, .anywhere, _ | outside, .outside, _ => outside
  | fresh, .begin, ok | outside, .begin, ok => if ok then inside else unsure
  | inside, .anywhere, _ | inside, .inside, _ => inside
  | inside, .commit, ok => if ok then outside else unsure
  | inside, .rollback, _ | unsure, .rollback, _ => outside
  | _, _, _ => wrong

def after (o : Phase) (c : Cmd) (r : Except Err c.Resp) : Phase := o.next c.scope r.isOk

/-- No transaction is open. -/
def Closed (o : Phase) : Prop := o = fresh ∨ o = outside

theorem next_wrong (s : Scope) (ok : Bool) : next wrong s ok = wrong := by
  cases s <;> rfl

theorem next_ne_fresh (o : Phase) (s : Scope) (ok : Bool) : o.next s ok ≠ fresh := by
  cases o <;> cases s <;> cases ok <;> nofun

theorem after_ne_fresh {o : Phase} {r : Except Err c.Resp} : after o c r ≠ fresh :=
  next_ne_fresh _ _ _

theorem after_fresh {r : Except Err c.Resp} :
    after fresh c r = after outside c r ∨ after outside c r = wrong := by
  unfold after
  cases c.scope with
  | take => exact .inr rfl
  | _ => exact .inl rfl

end Phase

/-- The program keeps its statements in order. -/
abbrev Orderly (p : Program α) : Prop :=
  p.Tracks (S := signature) Phase.after .outside (· = .outside) (· = .outside)

/-- The command may stand between the beginning and the end of a transaction. -/
abbrev Inner (c : signature.Cmd) : Prop := ∀ r, Phase.after .inside c r = .inside

theorem tracks_inner {p : Program α} (hp : p.Within Inner) :
    p.Tracks (S := signature) Phase.after .inside (· = .inside) (· = .inside) := by
  induction p with
  | ret a => rfl
  | fail e => rfl
  | op c k ih =>
      intro r
      rw [hp.1 r]
      exact ih r (hp.2 r)

namespace Orderly

theorem ret {a : α} : Orderly (.ret a) := rfl

theorem fail {e : Err} : Orderly (.fail e : Program α) := rfl

theorem perform (hc : ∀ ok, Phase.next .outside c.scope ok = .outside) :
    Orderly (perform c) :=
  Prog.Tracks.perform (fun _ => hc _) fun _ => hc _

theorem bind {p : Program β} {f : β → Program α} (hp : Orderly p) (hf : ∀ b, Orderly (f b)) :
    Orderly (p >>= f) := by
  refine Prog.Tracks.bind (hp.mono (fun o ho b => ?_) fun _ h => h)
  subst ho
  exact hf b

theorem map {f : β → α} {p : Program β} (hp : Orderly p) : Orderly (f <$> p) :=
  hp.bind fun _ => ret

theorem tryCatch {p : Program α} {h : Err → Program α} (hp : Orderly p) (hh : ∀ e, Orderly (h e)) :
    Orderly (tryCatch p h) := by
  refine Prog.Tracks.tryCatch (hp.mono (fun _ h => h) fun o ho e => ?_)
  subst ho
  exact hh e

theorem ite {b : Prop} [Decidable b] {p p' : Program α} (hp : Orderly p) (hp' : Orderly p') :
    Orderly (if b then p else p') := by
  split
  · exact hp
  · exact hp'

theorem throwIf {b : Prop} [Decidable b] {e : Err} : Orderly (throwIf b e) := .ite .fail .ret

theorem orThrow {found : Option α} {e : Err} : Orderly (orThrow found e) := by
  cases found with
  | none => exact .fail
  | some a => exact .ret

theorem select {q : Query} : Orderly (select .pool q) := .perform fun _ => rfl

theorem write {w : Write} : Orderly (write .pool w) := .perform fun _ => rfl

/-- What has been begun is committed or undone. -/
theorem transaction {body : Program α} (hbody : body.Within Inner) :
    Orderly (transaction body) := by
  -- Wherever the body or the commit has left it, the rollback ends it.
  have undo {o : Phase} (e : Err) (ho : o = .inside ∨ o = .unsure) :
      Prog.Tracks (S := signature) Phase.after o
        (WalletApi.perform .rollback >>= fun _ => (throw e : Program α)) (· = .outside) (· = .outside) := by
    rcases ho with rfl | rfl
    · exact .bind (.perform (fun _ _ => rfl) fun _ => rfl)
    · exact .bind (.perform (fun _ _ => rfl) fun _ => rfl)
  refine Prog.Tracks.tryCatch (.bind (.perform (fun _ _ => ?_) fun _ e => undo e (.inr rfl)))
  refine Prog.Tracks.bind (tracks_inner hbody |>.mono (fun o ho a => ?_) fun o ho e => undo e (.inl ho))
  subst ho
  exact .bind (.perform (fun _ _ => rfl) fun _ e => undo e (.inr rfl))

end Orderly

/-! ### The bodies of the transactions -/

theorem inner_lookup {client : Client} {q : Query} : (select client q).Within Inner :=
  .perform fun _ => by cases client <;> rfl

theorem inner_lockWalletRow {walletId : String} : (lockWalletRow walletId).Within Inner :=
  .bind (.perform fun _ => rfl) fun _ => within_throwIf

theorem inner_lockWalletRows {ids : List String} : (lockWalletRows ids).Within Inner := by
  induction ids with
  | nil => exact .ret
  | cons id ids ih => exact .bind inner_lockWalletRow fun _ => ih

theorem inner_write {w : Write} : (write .tx w).Within Inner := .perform fun _ => rfl

theorem inner_defaults : (perform .defaults).Within Inner := .perform fun _ => rfl

theorem inner_insert {data : WalletTransactionRepository.CreateWalletTransactionData} :
    (WalletTransactionRepository.insert data).Within Inner :=
  .bind inner_defaults fun _ => inner_write

theorem inner_pendingTransaction {input : PostCreditPendingInput} :
    (pendingTransaction input).Within Inner := by
  refine .bind inner_lockWalletRow fun _ => .bind inner_lookup fun again => ?_
  cases again with
  | some r => exact .ret
  | none => exact .bind inner_insert fun _ => .ret

theorem inner_completeTransaction {input : CompleteCreditInput} :
    (completeTransaction input).Within Inner := by
  refine .bind inner_lookup fun _ => .bind within_orThrow fun _ => .bind within_throwIf fun _ => ?_
  refine .bind inner_lockWalletRow fun _ => .bind inner_lookup fun _ => .bind within_orThrow fun _ => ?_
  refine .ite (fun _ => .bind inner_lookup fun _ => .ret) fun _ => ?_
  exact .bind within_throwIf fun _ => .bind inner_write fun _ => .bind inner_lookup fun _ => .ret

theorem inner_reversalTransaction {input : PostReversalInput} :
    (reversalTransaction input).Within Inner := by
  refine .bind inner_lockWalletRow fun _ => .bind inner_lookup fun again => ?_
  cases again with
  | some r => exact .ret
  | none => exact .bind inner_insert fun _ => .bind inner_lookup fun _ => .ret

theorem inner_p2pTransaction {data : ExecuteP2pWithdrawalData} :
    (p2pTransaction data).Within Inner := by
  refine .bind inner_lookup fun again => ?_
  cases again with
  | some w => exact .ret
  | none =>
      refine .bind inner_lockWalletRows fun _ => .bind inner_lookup fun _ => ?_
      refine .bind within_throwIf fun _ => .bind inner_defaults fun _ => .bind inner_write fun _ => ?_
      exact .bind inner_insert fun _ => .bind inner_insert fun _ => .bind inner_write fun _ => .ret

theorem inner_bankTransaction {data : ExecuteBankWithdrawalData} :
    (bankTransaction data).Within Inner := by
  refine .bind inner_lookup fun again => ?_
  cases again with
  | some w => exact .ret
  | none =>
      refine .bind inner_lockWalletRow fun _ => .bind inner_lookup fun _ => ?_
      refine .bind within_throwIf fun _ => .bind inner_defaults fun _ => .bind inner_write fun _ => ?_
      exact .bind inner_insert fun _ => .bind inner_write fun _ => .ret

/-! ### The services -/

theorem orderly_postCreditPending {input : PostCreditPendingInput} :
    Orderly (postCreditPending input) := by
  refine .bind .throwIf fun _ => .bind .select fun existing => ?_
  cases existing with
  | some r => exact .ret
  | none => exact .transaction inner_pendingTransaction

theorem orderly_postReversalCredit {input : PostReversalInput} :
    Orderly (postReversalCredit input) := by
  refine .bind .throwIf fun _ => .bind .select fun existing => ?_
  cases existing with
  | some r => exact .ret
  | none =>
      refine .bind .select fun _ => .bind .orThrow fun _ => ?_
      refine .bind (.bind .throwIf fun _ => .bind .throwIf fun _ => .throwIf) fun _ => ?_
      exact .tryCatch (.transaction inner_reversalTransaction) fun _ => .ite .fail .fail

theorem orderly_replay {w : Withdrawal} {hash : String} :
    Orderly (WithdrawalRepository.replay w hash) :=
  .bind .throwIf fun _ => .ret

theorem orderly_executeP2p {data : ExecuteP2pWithdrawalData} : Orderly (executeP2p data) := by
  refine .bind .select fun existing => ?_
  cases existing with
  | some w => exact orderly_replay
  | none => exact .tryCatch (.transaction inner_p2pTransaction) fun _ => .ite .fail .fail

theorem orderly_executeBankAccept {data : ExecuteBankWithdrawalData} :
    Orderly (executeBankAccept data) := by
  refine .bind .select fun existing => ?_
  cases existing with
  | some w => exact orderly_replay
  | none => exact .tryCatch (.transaction inner_bankTransaction) fun _ => .ite .fail .fail

theorem orderly_now : Orderly (perform .now) := .perform fun _ => rfl

theorem orderly_checkSecret {secret hash message : String} {tryCount : ℕ} {lockedUntil : Option ℕ}
    {reset : Program User} {record : ℕ → Option ℕ → Program User} (hreset : Orderly reset)
    (hrecord : ∀ n l, Orderly (record n l)) :
    Orderly (AuthCredentialService.checkSecret secret hash tryCount lockedUntil reset record
      message) := by
  have hcompare (n : ℕ) (l : Option ℕ) :
      Orderly (AuthCredentialService.checkSecret.compare secret hash reset record message n l) := by
    refine .bind ?_ fun _ => .bind (.perform fun _ => rfl) fun _ => .ite ?_ ?_
    · cases l with
      | none => exact .ret
      | some l => exact .bind orderly_now fun _ => .ite (.bind orderly_now fun _ => .fail) .ret
    · exact .ite (.bind hreset fun _ => .ret) .ret
    · exact .bind (.ite (.bind orderly_now fun _ => .ret) .ret) fun _ =>
        .bind (hrecord _ _) fun _ => .fail
  refine .bind ?_ fun _ => .ite (.bind hreset fun _ => hcompare _ _) (hcompare _ _)
  cases lockedUntil with
  | none => exact .ret
  | some l => exact .bind orderly_now fun _ => .ret

theorem orderly_verifyPin {userId pin : String} : Orderly (AuthService.verifyPin userId pin) :=
  .bind .select fun _ => .bind .orThrow fun _ => .bind .throwIf fun _ =>
    orderly_checkSecret .write fun _ _ => .write

theorem orderly_verifyPassword {user : User} {password message : String} :
    Orderly (AuthCredentialService.verifyPasswordOrThrow user password message) :=
  orderly_checkSecret .write fun _ _ => .write

theorem orderly_register {dto : RegisterDto} : Orderly (AuthService.register P dto) := by
  refine .bind .throwIf fun _ => .bind .throwIf fun _ => .bind .select fun _ => ?_
  refine .bind .throwIf fun _ => .bind .select fun _ => .bind .throwIf fun _ => ?_
  refine .bind (.perform fun _ => rfl) fun _ => .bind ?_ fun _ => .ret
  exact .bind (.perform fun _ => rfl) fun _ => .bind (.perform fun _ => rfl) fun _ => .write

theorem orderly_login {dto : LoginDto} : Orderly (AuthService.login P dto) :=
  .bind .select fun _ => .bind .orThrow fun _ => .bind orderly_verifyPassword fun _ =>
    .bind .select fun _ => .bind .orThrow fun _ => .ret

theorem orderly_createPin {actor : JwtPayloadUser} {dto : CreatePinDto} :
    Orderly (AuthService.createPin actor dto) :=
  .bind .throwIf fun _ => .bind .select fun _ => .bind .orThrow fun _ => .bind .throwIf fun _ =>
    .bind orderly_verifyPassword fun _ => .bind (.perform fun _ => rfl) fun _ =>
      .bind .write fun _ => .ret

theorem orderly_requireNgn {currency : Option String} : Orderly (requireNgn P currency) :=
  .bind .throwIf fun _ => .ret

theorem orderly_createTransfer {actor : JwtPayloadUser} {dto : CreateTransferDto} {key : String} :
    Orderly (TransferCreateService.create P config actor dto key) := by
  refine .bind orderly_verifyPin fun _ => .bind orderly_requireNgn fun _ => .bind .select fun existing => ?_
  cases existing with
  | some t => exact .bind .throwIf fun _ => .ret
  | none =>
      refine .bind .select fun _ => .bind .orThrow fun _ => .bind .select fun _ => .bind .orThrow fun _ => ?_
      refine .bind (.bind (.perform fun _ => rfl) fun _ => .ret) fun _ => ?_
      refine .bind (.bind (.perform fun _ => rfl) fun _ => .write) fun _ => ?_
      exact .bind orderly_postCreditPending fun _ => .bind (.perform fun _ => rfl) fun _ =>
        .bind .orThrow fun _ => .bind .write fun _ => .ret

theorem orderly_createP2p {actor : JwtPayloadUser} {dto : CreateWithdrawalDto} {key : String} :
    Orderly (WithdrawalP2pService.create P actor dto key) :=
  .bind orderly_requireNgn fun _ => .bind .throwIf fun _ => .bind .select fun _ =>
    .bind .orThrow fun _ => .bind .select fun _ => .bind .orThrow fun _ => .bind .throwIf fun _ =>
      .bind .select fun _ => .bind .orThrow fun _ => .bind .throwIf fun _ =>
        .bind orderly_executeP2p fun _ => .ret

theorem orderly_queueAdd {job : Job} : Orderly (perform (.queueAdd job)) := .perform fun _ => rfl

theorem orderly_createBank {actor : JwtPayloadUser} {dto : CreateWithdrawalDto} {key : String} :
    Orderly (WithdrawalBankService.create P actor dto key) :=
  .bind orderly_requireNgn fun _ => .bind .throwIf fun _ => .bind .select fun _ =>
    .bind .orThrow fun _ => .bind .throwIf fun _ => .bind (.perform fun _ => rfl) fun _ =>
      .bind orderly_executeBankAccept fun _ => .ite (.bind orderly_queueAdd fun _ => .ret) .ret

theorem orderly_reverseAndFail {withdrawalId walletId debitId : String} {amount : ℤ} :
    Orderly (reverseAndFail withdrawalId walletId amount debitId) :=
  .bind orderly_postReversalCredit fun _ => .bind .write fun _ => .ret

theorem orderly_processPayout {withdrawalId : String} :
    Orderly (WithdrawalPayoutService.processPayout withdrawalId) := by
  refine .bind .select fun found => ?_
  cases found with
  | none => exact .ret
  | some w =>
      refine .ite .ret (.ite .ret (.bind (.perform fun _ => rfl) fun _ => .ite orderly_reverseAndFail ?_))
      exact .bind .write fun _ => .ite .ret (.bind orderly_queueAdd fun _ => .ret)

theorem orderly_processSettle {withdrawalId : String} :
    Orderly (WithdrawalSettleService.processSettle withdrawalId) := by
  refine .bind .select fun found => ?_
  cases found with
  | none => exact .ret
  | some w =>
      refine .ite .ret ?_
      split
      · exact .ret
      · refine .ite .ret (.bind (.perform fun _ => rfl) fun status => ?_)
        show Orderly (WithdrawalSettleService.handleStatus w status.status)
        cases status.status with
        | successful => exact .bind .write fun _ => .ret
        | failed => exact .ite orderly_reverseAndFail .ret
        | pending => exact .fail
        | unknown => exact .fail

theorem orderly_mark {id : String} {status : WebhookEventStatus} :
    Orderly (WebhookEventRepository.mark id status) :=
  .bind orderly_now fun _ => .write

theorem orderly_handleFlutterwaveWebhook {verifHash : Option String} {body : Json} :
    Orderly (TransferWebhookService.handleFlutterwaveWebhook config verifHash body) := by
  refine .bind .throwIf fun _ => .bind .orThrow fun _ => .bind .select fun existing => ?_
  cases existing with
  | some e => exact .ite (.bind orderly_queueAdd fun _ => .ret) .ret
  | none =>
      refine .bind (.bind (.perform fun _ => rfl) fun _ => .write) fun _ => ?_
      exact .bind orderly_queueAdd fun _ => .ret

theorem orderly_credit {event : WebhookEvent} {transfer : Transfer} :
    Orderly (TransferCompleteService.credit event transfer) := by
  refine .bind .select fun credits => ?_
  dsimp only
  split
  · exact .ret
  · split
    · exact .bind orderly_mark fun _ => .fail
    · exact .bind (.transaction inner_completeTransaction) fun _ => .ret

theorem orderly_completeFromWebhook {webhookEventId : String} :
    Orderly (TransferCompleteService.completeFromWebhook webhookEventId) := by
  refine .bind .select fun found => ?_
  cases found with
  | none => exact .ret
  | some event =>
      refine .ite .ret ?_
      split
      · exact .bind orderly_mark fun _ => .fail
      · refine .bind .select fun found => ?_
        cases found with
        | none => exact .bind orderly_mark fun _ => .ret
        | some transfer =>
            refine .ite (.bind orderly_mark fun _ => .ret) (.bind (.perform fun _ => rfl) fun _ => ?_)
            refine .ite (.ite (.bind .write fun _ => .bind orderly_mark fun _ => .ret) .ret) ?_
            refine .ite (.bind orderly_mark fun _ => .fail) (.bind orderly_credit fun _ => ?_)
            exact .bind .write fun _ => .bind orderly_mark fun _ => .ret

/-- The part of a worker that follows once it has a job. -/
theorem tracks_work {queue : QueueName} {name : String} {handler : String → Program Unit}
    (h : ∀ id, Orderly (handler id)) :
    (work queue name handler).Tracks (S := signature) Phase.after .fresh (· = .outside)
      (· = .outside) := by
  have done (job : Job) : Orderly (perform (.completeJob queue job.jobId) >>= fun _ => pure () :
      Program Unit) := .bind (.perform fun _ => rfl) fun _ => .ret
  refine Prog.Tracks.bind (.perform (fun _ job => ?_) fun _ => rfl)
  exact Orderly.tryCatch (.ite (done job) (.bind (h _) fun _ => done job)) fun _ =>
    .bind (.perform fun _ => rfl) fun _ => .ret

instance : Nonempty signature.Err := ⟨Err.network⟩

theorem not_tracks_wrong {p : Program α} (h : p.Tracks (S := signature) Phase.after .wrong
    (· = .outside) (· = .outside)) : False := by
  cases h.absorbed fun c r => Phase.next_wrong _ _

/-- A call that takes no job may begin anywhere outside of a transaction. -/
theorem Orderly.fresh {p : Program α} (h : Orderly p) :
    p.Tracks (S := signature) Phase.after .fresh Phase.Closed Phase.Closed := by
  cases p with
  | ret a => exact .inl rfl
  | fail e => exact .inl rfl
  | op c k =>
      intro r
      have hk := h r
      have hnext : Phase.after .fresh c r = Phase.after .outside c r := by
        rcases Phase.after_fresh (c := c) (r := r) with hnext | hwrong
        · exact hnext
        · rw [hwrong] at hk
          exact (not_tracks_wrong hk).elim
      rw [hnext]
      exact hk.mono (fun _ => .inr) fun _ => .inr

/-- Every call of the API keeps its statements in order. -/
theorem tracks_program {call : Call} (hcall : call.isApi = true) :
    (program P config call).Tracks (S := signature) Phase.after .fresh Phase.Closed Phase.Closed := by
  have worker {queue : QueueName} {name : String} {handler : String → Program Unit}
      (h : ∀ id, Orderly (handler id)) : ((fun _ => Response.done) <$> work queue name handler).Tracks
        (S := signature) Phase.after .fresh Phase.Closed Phase.Closed :=
    .bind ((tracks_work h).mono (fun _ ho _ => .inr ho) fun _ => .inr)
  cases call with
  | register dto => exact (Orderly.map orderly_register).fresh
  | login dto => exact (Orderly.map orderly_login).fresh
  | createPin actor dto => exact (Orderly.map orderly_createPin).fresh
  | getWallet actor =>
      exact (Orderly.map (.bind .select fun _ => .bind .orThrow fun _ => .bind .select fun _ =>
        .ret)).fresh
  | listWalletTransactions actor query =>
      exact (Orderly.map (.bind .select fun _ => .bind .orThrow fun _ => .bind .select fun _ =>
        .ret)).fresh
  | postTransfers actor header dto =>
      refine (Orderly.bind ?_ fun _ => .map orderly_createTransfer).fresh
      cases requireIdempotencyKey header with
      | error e => exact .fail
      | ok key => exact .ret
  | getTransfer actor id =>
      exact (Orderly.map (.bind .select fun _ => .bind .orThrow fun _ => .ret)).fresh
  | postWithdrawals actor header dto =>
      refine (Orderly.bind ?_ fun _ => .map (.bind orderly_verifyPin fun _ => ?_)).fresh
      · cases requireIdempotencyKey header with
        | error e => exact .fail
        | ok key => exact .ret
      · split
        · exact orderly_createP2p
        · exact orderly_createBank
  | listWithdrawals actor => exact (Orderly.map (.bind .select fun _ => .ret)).fresh
  | getWithdrawal actor id =>
      exact (Orderly.map (.bind .select fun _ => .bind .orThrow fun _ => .ret)).fresh
  | flutterwaveWebhook verifHash body =>
      exact (Orderly.map orderly_handleFlutterwaveWebhook).fresh
  | transferCompleteWorker => exact worker fun _ => orderly_completeFromWebhook
  | withdrawalPayoutWorker => exact worker fun _ => orderly_processPayout
  | withdrawalSettleWorker => exact worker fun _ => orderly_processSettle
  | providerFinish transferId state => exact (Orderly.map (.perform fun _ => rfl)).fresh
  | _ => cases hcall

/-! ### What the phase of a thread tells about the store -/

def Phase.Tells (i : ℕ) (s : World) : Phase → Prop
  | fresh | outside => s.store.opened i = none
  | inside => (s.store.opened i).isSome
  | unsure | wrong => True

theorem opened_of_begin {ch : Choice} {s t : World} {r : Except Err Unit} (hr : r.isOk = true)
    (h : World.exec P config i .begin ch s = some (r, t)) : (t.store.opened i).isSome := by
  obtain ⟨a, rfl⟩ := exists_of_isOk hr
  rcases exec_eq_some h with ⟨-, -, hr, -⟩ | ⟨r', s', hp, -, rfl⟩
  · cases hr
  · obtain ⟨store, hs, he⟩ := Option.map_eq_some_iff.mp hp
    cases he
    obtain ⟨-, rfl⟩ := Store.begin_eq_some hs
    simp

/-- A command that neither begins nor ends a transaction. -/
theorem isSome_opened {ch : Choice} {s t : World} {r : Except Err c.Resp}
    (h : World.exec P config i c ch s = some (r, t)) (hbegin : c ≠ .begin) (hcommit : c ≠ .commit)
    (hrollback : c ≠ .rollback) : (t.store.opened i).isSome = (s.store.opened i).isSome := by
  rcases exec_buffers h with ht | ⟨rfl, -, -⟩ | ⟨ws, w, rfl, hws, ht⟩ | ⟨hc, -⟩
  · rw [ht]
  · exact absurd rfl hbegin
  · rw [ht, hws, Function.update_self]
    rfl
  · rcases hc with hc | ⟨hc, -⟩
    · exact absurd hc hrollback
    · exact absurd hc hcommit

/-- The step lemma: a thread is in the phase that its own answers tell. -/
theorem tells_after {ch : Choice} {s t : World} {r : Except Err c.Resp} {o : Phase}
    (he : World.exec P config i c ch s = some (r, t)) (h : o.Tells i s) :
    (Phase.after o c r).Tells i t := by
  have same {b : Option (List Write)} (hsame : (t.store.opened i).isSome = b.isSome) :
      t.store.opened i = none ↔ b = none := by
    rw [← Option.isNone_iff_eq_none, ← Option.isNone_iff_eq_none, ← Option.not_isSome,
      ← Option.not_isSome, hsame]
  cases c with
  | begin =>
      cases o with
      | fresh | outside =>
          cases r with
          | ok a => exact opened_of_begin rfl he
          | error e => trivial
      | _ => trivial
  | commit =>
      cases o with
      | inside =>
          cases r with
          | ok a =>
              obtain ⟨ws, -, -, hnone⟩ := committed_of_exec rfl he
              exact hnone
          | error e => trivial
      | _ => trivial
  | rollback =>
      cases o with
      | inside | unsure => exact closed_of_rollback he
      | _ => trivial
  | write client w =>
      have hsame := isSome_opened he nofun nofun nofun
      cases o <;> cases client <;>
        first | trivial | exact (same hsame).mpr h | exact hsame.trans h
  | select client q =>
      have hsame := isSome_opened he nofun nofun nofun
      cases o <;> cases client <;>
        first | trivial | exact (same hsame).mpr h | exact hsame.trans h
  | _ =>
      have hsame := isSome_opened he nofun nofun nofun
      cases o <;> first | trivial | exact (same hsame).mpr h | exact hsame.trans h

theorem Phase.Tells.of_opened {s t : World} {o : Phase} (h : o.Tells i s)
    (ht : t.store.opened i = s.store.opened i) : o.Tells i t := by
  cases o with
  | fresh | outside => exact ht.trans h
  | inside => exact (congrArg Option.isSome ht).trans h
  | _ => trivial

/-- The phase of each thread, in every run. -/
theorem tracked_of_reachable {A : Assumptions (walletApi P config)}
    (hA : ∀ call, A.admits call →
      (program P config call).Tracks (S := signature) Phase.after .fresh Phase.Closed Phase.Closed)
    {cfg : Machine.Config (walletApi P config)} (h : Reachable A World.initial cfg) (i : ℕ) :
    Machine.Tracked Phase.after .fresh Phase.Closed (fun o => o.Tells i cfg.state) (cfg.threads i) := by
  refine h.threadwise (J := fun th s => Machine.Tracked Phase.after .fresh Phase.Closed
    (fun o => o.Tells i s) th) ?_ ?_ ?_ ?_ ?_ ?_
  · exact (rfl : World.initial.store.opened i = none)
  · exact fun hcall hs => ⟨.fresh, hA _ hcall, hs⟩
  · rintro call c k ch s r t he ⟨o, htracks, hs⟩
    exact ⟨_, htracks r, tells_after he hs⟩
  · intro call p s _
    show (World.crash i s).store.opened i = none
    simp [World.crash, Store.rollback, Store.release]
  · intro j c ch s r t th hj he hth
    have he : World.exec P config j c ch s = some (r, t) := he
    exact hth.mono fun o ho => ho.of_opened ((exec_store he).owned.opened fun heq => hj heq.symm)
  · intro j s th hj hth
    refine hth.mono fun o ho => ho.of_opened ?_
    simp [walletApi, World.crash, Store.rollback, Store.release,
      Function.update_of_ne fun heq : i = j => hj heq.symm]

/-! ### Nothing to wait for -/

section Unhindered

variable {s t : World} {o : Phase}

/-- No other thread has a transaction open. -/
structure Unhindered (i : ℕ) (s : World) : Prop where
  coherent : s.store.Coherent
  others : ∀ j, j ≠ i → s.store.opened j = none

theorem Unhindered.step {ch : Choice} {r : Except Err c.Resp} (h : Unhindered i s)
    (he : World.exec P config i c ch s = some (r, t)) : Unhindered i t where
  coherent := (exec_store he).coherent h.coherent
  others j hj := ((exec_store he).owned.opened hj).trans (h.others j hj)

/-- Whoever holds an entry of an index is the thread itself. -/
theorem Unhindered.claimant (h : Unhindered i s) {k : Key} {j : ℕ} (hk : s.store.claims k = some j) : j = i := by
  by_contra hj
  obtain ⟨ws, hopen, -⟩ := h.coherent.claimed.mp hk
  cases (h.others j hj).symm.trans hopen

/-- Nobody else holds what the command needs: the row lock, or an entry of an index. -/
structure Clear (i : ℕ) (c : Cmd) (s : World) : Prop where
  lock : ∀ walletId j, c = .lockWalletRow walletId → s.store.locks walletId = some j → j = i
  claim : ∀ client w k j, c = .write client w → k ∈ w.keys → s.store.claims k = some j → j = i

theorem Unhindered.clear (h : Unhindered i s) : Clear i c s where
  lock walletId j _ hlock := by
    by_contra hj
    have hopen := h.coherent.locked hlock
    rw [h.others j hj] at hopen
    cases hopen
  claim _ _ _ _ _ _ hk := h.claimant hk

theorem Clear.isSome_lock {walletId : schema.Row} (h : Clear i (.lockWalletRow walletId) s)
    (hopen : (s.store.opened i).isSome) : (s.store.lock i walletId).isSome := by
  obtain ⟨ws, hws⟩ := Option.isSome_iff_exists.mp hopen
  rw [Store.lock, hws]
  cases hlock : s.store.locks walletId with
  | none => rfl
  | some j => simp [h.lock walletId j rfl hlock]

theorem Clear.stage {w : Write} (h : Clear i (.write .tx w) s) (hopen : (s.store.opened i).isSome) :
    s.store.stage i w ≠ .blocked := by
  obtain ⟨ws, hws⟩ := Option.isSome_iff_exists.mp hopen
  intro hblocked
  simp only [Store.stage, hws] at hblocked
  split at hblocked
  · cases hblocked
  · rename_i hconflict
    split at hblocked
    · rename_i hclaimed
      obtain ⟨k, hk, hsome⟩ := List.any_eq_true.mp hclaimed
      obtain ⟨j, hj⟩ := Option.isSome_iff_exists.mp hsome
      refine hconflict (List.any_eq_true.mpr ⟨k, hk, ?_⟩)
      rw [hj, h.claim _ w k j rfl hk hj]
      simp
    · cases hblocked

theorem Clear.write {w : Write} (h : Clear i (.write .pool w) s) (hs : s.store.Coherent)
    (hopen : s.store.opened i = none) : s.store.write w ≠ .blocked := by
  intro hblocked
  obtain ⟨k, hk, hsome⟩ := Store.write_eq_blocked hblocked
  obtain ⟨j, hj⟩ := Option.isSome_iff_exists.mp hsome
  obtain ⟨ws, hws, -⟩ := hs.claimed.mp hj
  rw [h.claim _ w k j rfl hk hj, hopen] at hws
  cases hws

/-- A command that is in order, and that need not wait, can be executed. -/
theorem isSome_perform (hs : s.store.Coherent) (h : Clear i c s) (htake : o = .fresh → c.scope ≠ .take)
    (ht : o.Tells i s) (hc : ∀ r, Phase.after o c r ≠ .wrong) :
    (World.perform P config i c {} s).isSome := by
  have hwrong := hc (.error .network)
  cases c with
  | begin =>
      have hbegin (hnone : s.store.opened i = none) :
          (World.perform P config i .begin {} s).isSome := by
        simp [World.perform, Store.begin, hnone]
      cases o with
      | fresh | outside => exact hbegin ht
      | _ => exact absurd rfl hwrong
  | commit =>
      cases o with
      | inside =>
          obtain ⟨ws, hws⟩ := Option.isSome_iff_exists.mp ht
          simp [World.perform, Store.commit, hws]
      | _ => exact absurd rfl hwrong
  | lockWalletRow walletId =>
      cases o with
      | inside =>
          simp only [World.perform, World.lockWalletRow]
          split
          · exact Option.isSome_map.trans (h.isSome_lock ht)
          · rfl
      | _ => exact absurd rfl hwrong
  | write client w =>
      refine isSome_write ?_
      cases client with
      | pool =>
          cases o with
          | fresh | outside => exact h.write hs ht
          | _ => exact absurd rfl hwrong
      | tx =>
          cases o with
          | inside => exact h.stage ht
          | _ => exact absurd rfl hwrong
  | takeJob queue =>
      cases o with
      | fresh => exact absurd rfl (htake rfl)
      | _ => exact absurd rfl hwrong
  | initiatePayment params =>
      simp only [World.perform]
      split <;> rfl
  | verifyByTxRef txRef =>
      simp only [World.perform]
      split <;> rfl
  | initiateBankTransfer params =>
      simp only [World.perform]
      split <;> rfl
  | getBankTransferStatus transferId =>
      simp only [World.perform]
      split <;> rfl
  | _ => rfl

theorem exists_of_scope (hc : c.scope = .take) : ∃ queue, c = .takeJob queue := by
  cases c with
  | takeJob queue => exact ⟨queue, rfl⟩
  | select client q => cases client <;> cases hc
  | write client w => cases client <;> cases hc
  | _ => cases hc

theorem isSome_takeJob {job : Job} {queue : QueueName} (hmem : job ∈ s.jobs)
    (hqueue : job.queue = queue) (hstate : job.state ≠ .failed) :
    (World.perform P config i (.takeJob queue) { text := job.jobId } s).isSome := by
  have hfind : (s.jobs.find? fun j =>
      j.queue = queue ∧ j.jobId = job.jobId ∧ j.state ≠ .failed).isSome :=
    List.find?_isSome.mpr ⟨job, hmem, decide_eq_true ⟨hqueue, rfl, hstate⟩⟩
  exact Option.isSome_map.trans hfind

/-- If no connection fails, what can be carried out can be executed. -/
theorem exec_of_perform (ch : Choice) (hfault : ch.fault = .none)
    (h : (World.perform P config i c ch s).isSome) : ∃ r t, World.exec P config i c ch s = some (r, t) := by
  obtain ⟨⟨r, t⟩, hp⟩ := Option.isSome_iff_exists.mp h
  have hcalm : World.exec P config i c ch s =
      (World.perform P config i c ch s).map fun rt => (rt.1, rt.2.record ⟨i, c, rt.1, rt.1.isOk⟩) := by
    simp [World.exec, hfault]
  exact ⟨r, _, hcalm.trans (by rw [hp]; rfl)⟩

/-- A command that could be executed can be executed whatever fails elsewhere. -/
theorem enabled_of_perform {call : Call} (ch : Choice) (hfault : ch.fault = .none)
    (h : (World.perform P config i c ch s).isSome) :
    Enabled (requests P config) call i c s := by
  obtain ⟨r, t, he⟩ := exec_of_perform ch hfault h
  exact ⟨ch, r, t, trivial, he⟩

end Unhindered

/-! ### The results -/

section Results

variable {cfg : Machine.Config (walletApi P config)}

theorem coherent_of_reachable (h : Reachable (requests P config) World.initial cfg) :
    (World.store cfg.state).Coherent :=
  ((api_certified P config _ .true).inv h).1

theorem Phase.Closed.opened {o : Phase} {s : World} (ho : o.Closed) (ht : o.Tells i s) :
    s.store.opened i = none := by
  rcases ho with rfl | rfl
  · exact ht
  · exact ht

/-- A thread that is not on its way has no transaction open. -/
theorem opened_of_ended {A : Assumptions (walletApi P config)}
    (hA : ∀ call, A.admits call →
      (program P config call).Tracks (S := signature) Phase.after .fresh Phase.Closed Phase.Closed)
    (h : Reachable A World.initial cfg) {i : ℕ} (hend : ¬Unfinished cfg i) :
    (World.store cfg.state).opened i = none := by
  have htracked := tracked_of_reachable hA h i
  cases hth : cfg.threads i with
  | none =>
      rw [hth] at htracked
      exact htracked
  | some th =>
      rw [hth] at htracked
      cases th with
      | crashed call => exact htracked
      | running call p =>
          obtain ⟨o, htracks, ht⟩ := htracked
          cases p with
          | ret a => exact Phase.Closed.opened htracks ht
          | fail e => exact Phase.Closed.opened htracks ht
          | op c k => exact absurd ⟨call, c, k, hth⟩ hend

/-- The thread holds nothing that others might have to wait for. -/
structure Unburdened (i : ℕ) (s : World) : Prop where
  opened : s.store.opened i = none
  locks : ∀ walletId, s.store.locks walletId ≠ some i
  claims : ∀ k, s.store.claims k ≠ some i

theorem Unburdened.of_opened {s : World} (hs : s.store.Coherent) (h : s.store.opened i = none) :
    Unburdened i s where
  opened := h
  locks walletId hlock := by
    have hopen := hs.locked hlock
    rw [h] at hopen
    cases hopen
  claims k hk := by
    obtain ⟨ws, hws, -⟩ := hs.claimed.mp hk
    cases h.symm.trans hws

/-- Whatever has failed, in any interleaving: a call that has come to its end, or
has stopped, or has not begun, has no transaction open, and holds no lock and no
entry of an index. -/
theorem nothing_leaks (h : Reachable (requests P config) World.initial cfg) {i : ℕ}
    (hend : ¬Unfinished cfg i) : Unburdened i cfg.state :=
  .of_opened (coherent_of_reachable h) (opened_of_ended (fun _ hcall => tracks_program hcall) h hend)

/-- What is known of a thread that has begun and that nobody hinders. -/
def Underway (i : ℕ) (o : Phase) (s : World) : Prop :=
  o ≠ .fresh ∧ o.Tells i s ∧ Unhindered i s

theorem Unhindered.step_of {ch : Choice} {s t : World} {o : Phase} {r : Except Err c.Resp}
    (hs : Unhindered i s) (he : World.exec P config i c ch s = some (r, t)) (ht : o.Tells i s) :
    Underway i (Phase.after o c r) t :=
  ⟨Phase.after_ne_fresh, tells_after he ht, hs.step he⟩

theorem in_order {o : Phase} {k : Except Err c.Resp → Program Response}
    (h : (Prog.op c k : Prog signature Response).Tracks Phase.after o Phase.Closed Phase.Closed)
    (r : Except Err c.Resp) : Phase.after o c r ≠ .wrong := by
  refine h.ne_of_absorbing (fun c r => Phase.next_wrong _ _) ?_ r
  rintro (hclosed | hclosed) <;> cases hclosed

/-- From its second step on, a call needs nobody's help. -/
theorem Underway.finishes {i : ℕ} {call : Call} {o : Phase} {p : Program Response}
    (h : Underway i o cfg.state)
    (htracks : p.Tracks (S := signature) Phase.after o Phase.Closed Phase.Closed)
    (hth : cfg.threads i = some (.running call p)) :
    Finishes (requests P config) i (fun _ s => Unburdened i s) cfg := by
  refine (finishes_of_tracks (M := walletApi P config) (I := Underway i)
    (fun he hI => hI.2.2.step_of he hI.2.1) ?_ htracks h hth).mono ?_
  · rintro c k s o htracks ⟨ho, ht, hs⟩
    exact enabled_of_perform {} rfl
      (isSome_perform hs.coherent hs.clear (fun hfresh => absurd hfresh ho) ht (in_order htracks))
  · rintro r s ⟨o, ho, -, ht, hs⟩
    exact .of_opened hs.coherent (Phase.Closed.opened ho ht)

/-- A call that nobody hinders comes to its end, whatever fails on its way, and
leaves nothing behind. Only a worker without a job has to wait. -/
theorem comes_to_an_end (h : Reachable (requests P config) World.initial cfg) {i : ℕ} {call : Call}
    {p : Program Response} (hth : cfg.threads i = some (.running call p))
    (hothers : ∀ j, j ≠ i → Unfinished cfg j → (World.store cfg.state).opened j = none)
    (hjob : ∀ queue k, p = .op (.takeJob queue) k →
      ∃ job ∈ World.jobs cfg.state, job.queue = queue ∧ job.state ≠ .failed) :
    Finishes (requests P config) i (fun _ s => Unburdened i s) cfg := by
  have hs : Unhindered i cfg.state := by
    refine ⟨coherent_of_reachable h, fun j hj => ?_⟩
    by_cases hunfinished : Unfinished cfg j
    · exact hothers j hj hunfinished
    · exact opened_of_ended (fun _ hcall => tracks_program hcall) h hunfinished
  have htracked := tracked_of_reachable (fun _ hcall => tracks_program hcall) h i
  rw [hth] at htracked
  obtain ⟨o, htracks, ht⟩ := htracked
  by_cases ho : o = .fresh
  · subst ho
    cases p with
    | ret a => exact .returned hth (.of_opened hs.coherent (Phase.Closed.opened htracks ht))
    | fail e => exact .thrown hth (.of_opened hs.coherent (Phase.Closed.opened htracks ht))
    | op c k =>
        refine .step ?_ fun ch cfg' hp hn => ?_
        · obtain ⟨ch, r, t, ha, he⟩ : Enabled (requests P config) call i c cfg.state := by
            by_cases htake : Cmd.scope c = .take
            · obtain ⟨queue, rfl⟩ := exists_of_scope htake
              obtain ⟨job, hmem, hqueue, hstate⟩ := hjob queue k rfl
              exact enabled_of_perform { text := job.jobId } rfl
                (isSome_takeJob hmem hqueue hstate)
            · exact enabled_of_perform {} rfl
                (isSome_perform hs.coherent hs.clear (fun _ => htake) ht (in_order htracks))
          refine ⟨ch, _, fun call' c' k' hth' => ?_, next_step_iff.mpr ⟨_, _, _, _, _, hth, he, rfl⟩⟩
          cases hth.symm.trans hth'
          exact ha
        · obtain ⟨call', c', k', r, t, hth', he, rfl⟩ := next_step_iff.mp hn
          cases hth.symm.trans hth'
          exact Underway.finishes (hs.step_of he ht) (htracks r) (Config.threads_set_self ..)
  · exact Underway.finishes ⟨ho, ht, hs⟩ htracks hth

end Results

/-! ### Runs -/

section Schedules

open Schedule

/-- The thread is about to commit. -/
def committing (cfg : Machine.Config (walletApi P config)) (i : ℕ) : Bool :=
  match cfg.threads i with
  | some (.running _ (.op .commit _)) => true
  | _ => false

theorem threads_of_committing {cfg : Machine.Config (walletApi P config)} {i : ℕ}
    (h : committing cfg i = true) :
    ∃ call k, cfg.threads i = some (.running call (.op .commit k)) := by
  unfold committing at h
  split at h
  · rename_i call k hth
    exact ⟨call, k, hth⟩
  · cases h

/-- The answer to the commit is lost, and so is what it was to say. -/
theorem nothing_leaks_schedule :
    ∃ cfg call e, Machine.replayUnder (requests platform mockConfig) (.initial World.initial)
        (beforeCommit ++ steps 6 [{ fault := .lost }, {}]) = some cfg ∧
      ended cfg 6 = some (call, .error e) ∧ Unburdened 6 cfg.state := by
  have hrun : (Machine.replayUnder (requests platform mockConfig) (.initial World.initial)
      (beforeCommit ++ steps 6 [{ fault := .lost }, {}])).any fun cfg =>
        (ended cfg 6).any fun r => !r.2.isOk := by decide +kernel
  obtain ⟨cfg, hcfg, h⟩ := (Option.any_eq_true ..).mp hrun
  obtain ⟨⟨call, r⟩, hended, herror⟩ := (Option.any_eq_true ..).mp h
  cases r with
  | ok a => cases herror
  | error e =>
      refine ⟨cfg, call, e, hcfg, hended, nothing_leaks (.replayUnder hcfg) ?_⟩
      rintro ⟨call', c, k, hth⟩
      cases (threads_of_ended hended).symm.trans hth

/-- Ada's request is about to commit; all the others have ended. -/
theorem comes_to_an_end_schedule :
    ∃ cfg, Machine.replayUnder (requests platform mockConfig) (.initial World.initial)
        beforeCommit = some cfg ∧ committing cfg 6 = true ∧
      Finishes (requests platform mockConfig) 6 (fun _ s => Unburdened 6 s) cfg := by
  have hrun : (Machine.replayUnder (requests platform mockConfig) (.initial World.initial)
      beforeCommit).any fun cfg => committing cfg 6 ∧
        ((List.range 6).all fun j => ((World.store cfg.state).opened j).isNone) ∧
        beforeCommit.all (actingThread · < 7) := by decide +kernel
  obtain ⟨cfg, hcfg, h⟩ := (Option.any_eq_true ..).mp hrun
  obtain ⟨hcommitting, hopened, hactors⟩ := of_decide_eq_true h
  obtain ⟨call, k, hth⟩ := threads_of_committing hcommitting
  refine ⟨cfg, hcfg, hcommitting, comes_to_an_end (.replayUnder hcfg) hth (fun j hj _ => ?_) nofun⟩
  by_cases hlt : j < 6
  · exact Option.isNone_iff_eq_none.mp (List.all_eq_true.mp hopened j (List.mem_range.mpr hlt))
  · refine opened_of_replay hcfg fun a ha heq => ?_
    have hactor := of_decide_eq_true (List.all_eq_true.mp hactors a ha)
    omega

end Schedules

end WalletApi
