import WalletApi.Safety.Refinement
import WalletApi.Safety.Spending
import WalletApi.Safety.Verification

/-!
Where money comes from.

Of all that the API does to the journal only three things put money into a wallet:
another wallet has sent it, the provider has confirmed that it was paid, or a
withdrawal has come back because the provider said that it failed. Each is the
commit of one thread, and what the thread goes by is among its own exchanges.
-/

namespace WalletApi

open Concurrency ReadCommitted Machine World Schedule

variable {P : Platform} {config : Config} {A : Assumptions (walletApi P config)} {q : Call} {i : ℕ}
  {tr : Trace} {d d' : Db} {walletId : String}

/-! ### What raises a balance -/

/-- The amount is put into the wallet. -/
inductive Earns (d d' : Db) (walletId : String) : ℤ → Prop
  | sent (w : Withdrawal) (sender : String) (hspends : Spends d d' sender w)
      (howner : ∃ x ∈ d.wallets, x.id = sender ∧ x.userId = w.userId)
      (hdest : w.destinationWalletId = some walletId) (hne : sender ≠ walletId) :
      Earns d d' walletId w.amount
  | returned (w : Withdrawal) (hw : w ∈ d.withdrawals) (hbank : w.destinationType = .bank)
      (hwallet : w.walletId = walletId) (stamp : String × ℕ)
      (hd : d' = (Write.createWalletTransaction (w.reversalData.row stamp.1 stamp.2)).apply d) :
      Earns d d' walletId w.amount
  | collected (r : WalletTransaction) (hr : r ∈ d.walletTransactions) (hpending : r.status = .pending)
      (hwallet : r.walletId = walletId)
      (hd : d' = (Write.updateWalletTransactionStatus r.id .successful).apply d) :
      Earns d d' walletId r.amount

/-- What is raised by a credit that may be for another wallet. -/
theorem raised_of_ite {b b' n : ℤ} {p : Prop} [Decidable p] (h : b' = b + if p then n else 0)
    (hrise : b < b') : p ∧ b' = b + n := by
  split at h
  · exact ⟨by assumption, h⟩
  · omega

/-- An effect that raises the balance of a wallet puts an amount into it, and the
balance rises by just that. -/
theorem Db.Effect.earns (h : d.Effect d') (hu : d.Unique) (hb : d.Books)
    (hrise : sumSuccessfulBalance d walletId < sumSuccessfulBalance d' walletId) :
    ∃ n, Earns d d' walletId n ∧
      sumSuccessfulBalance d' walletId = sumSuccessfulBalance d walletId + n := by
  have append {rows : List WalletTransaction}
      (hrows : d'.walletTransactions = d.walletTransactions ++ rows) :
      sumSuccessfulBalance d' walletId =
        sumSuccessfulBalance d walletId + (rows.map (·.effect walletId)).sum :=
    sumSuccessfulBalance_append hrows walletId
  have same (hrows : d'.walletTransactions = d.walletTransactions) :
      sumSuccessfulBalance d' walletId = sumSuccessfulBalance d walletId := by
    have hjournal : d'.journalOf walletId = d.journalOf walletId := congrArg _ hrows
    exact sumSuccessfulBalance_congr hjournal
  cases h with
  | aside _ _ hr _ => exact absurd (same hr) hrise.ne'
  | createTransfer t _ => exact absurd (same rfl) hrise.ne'
  | updateTransfer id data => exact absurd (same rfl) hrise.ne'
  | updateWithdrawal id data _ _ => exact absurd (same rfl) hrise.ne'
  | pendingCredit t ht stamp =>
      have hbalance := append rfl
      rw [List.map_singleton, List.sum_singleton,
        WalletTransaction.effect_of_status (by nofun)] at hbalance
      omega
  | reversal w hw hbank stamp =>
      have hbalance := append rfl
      rw [List.map_singleton, List.sum_singleton, WalletTransaction.effect_credit rfl rfl] at hbalance
      obtain ⟨hwallet, hraised⟩ := raised_of_ite hbalance hrise
      exact ⟨w.amount, .returned w hw hbank hwallet stamp rfl, hraised⟩
  | completeCredit r hr hs =>
      obtain ⟨ht, hamount⟩ := hb.solvent.pending r hr hs
      have hbefore : r.effect walletId = 0 :=
        WalletTransaction.effect_of_status (by rw [hs]; nofun) walletId
      have hafter := WalletTransaction.effect_credit (r := { r with status := .successful }) ht rfl walletId
      have hbalance : sumSuccessfulBalance _ walletId = _ :=
        sumSuccessfulBalance_update hu hr (rfl : _ = (Write.updateWalletTransactionStatus r.id .successful).apply d)
          walletId
      rw [hbefore, hafter, sub_zero] at hbalance
      obtain ⟨hwallet, hraised⟩ := raised_of_ite hbalance hrise
      exact ⟨r.amount, .collected r hr hs hwallet rfl, hraised⟩
  | p2p data a b c _ _ howner _ _ =>
      have hbalance := append rfl
      rw [List.map_cons, List.map_singleton, List.sum_cons, List.sum_singleton,
        WalletTransaction.effect_debit rfl rfl, WalletTransaction.effect_credit rfl rfl] at hbalance
      have hdebit : ((data.debit a.1).row b.1 b.2).walletId = data.senderWalletId := rfl
      have hdebit' : ((data.debit a.1).row b.1 b.2).amount = data.amount := rfl
      have hcredit : ((data.credit a.1).row c.1 c.2).walletId = data.destinationWalletId := rfl
      have hcredit' : ((data.credit a.1).row c.1 c.2).amount = data.amount := rfl
      rw [hdebit, hdebit', hcredit, hcredit'] at hbalance
      have hdest : data.destinationWalletId = walletId := by
        by_contra hne
        rw [if_neg hne] at hbalance
        split at hbalance <;> omega
      have hsender : data.senderWalletId ≠ walletId := by
        intro hsame
        rw [if_pos hsame, if_pos hdest] at hbalance
        omega
      rw [if_neg hsender, if_pos hdest, zero_add] at hbalance
      exact ⟨data.amount, .sent (data.final a b c) data.senderWalletId (.p2p data a b c rfl rfl rfl)
        howner (congrArg some hdest) hsender, hbalance⟩
  | bankAccept data a b hamount _ _ _ =>
      have hbalance := append rfl
      rw [List.map_singleton, List.sum_singleton, WalletTransaction.effect_debit rfl rfl] at hbalance
      have hdebit' : ((data.debit a.1).row b.1 b.2).amount = data.amount := rfl
      rw [hdebit'] at hbalance
      split at hbalance <;> omega

/-! ### What comes before a reversal -/

/-- The provider has said that the transfer of the withdrawal has failed, when it was
asked for the transfer or for its status. -/
inductive SaidFailed (w : Withdrawal) (tr : Trace) : Prop
  | initiate (result : InitiateBankTransferResult)
      (hx : ⟨.initiateBankTransfer (WithdrawalPayoutService.bankTransferParams w), .ok result⟩ ∈ tr)
      (hs : result.status = .failed)
  | status (transferId : String) (result : BankTransferStatusResult)
      (hid : w.providerTransferId = some transferId)
      (hx : ⟨.getBankTransferStatus transferId, .ok result⟩ ∈ tr) (hs : result.status = .failed)

theorem SaidFailed.append {w : Withdrawal} (h : SaidFailed w tr) (new : Trace) :
    SaidFailed w (new ++ tr) := by
  cases h with
  | initiate result hx hs => exact .initiate result (List.mem_append_right _ hx) hs
  | status transferId result hid hx hs =>
      exact .status transferId result hid (List.mem_append_right _ hx) hs

/-- The withdrawal has been read, and its transfer has failed. -/
structure Declined (w : Withdrawal) (tr : Trace) : Prop where
  lookup : ⟨.select .pool (.withdrawalById w.id), .ok (some w)⟩ ∈ tr
  said : SaidFailed w tr

theorem Declined.append {w : Withdrawal} (h : Declined w tr) (new : Trace) :
    Declined w (new ++ tr) where
  lookup := List.mem_append_right _ h.lookup
  said := h.said.append new

/-- Only a withdrawal that is declined is given back. -/
def refundDemand (tr : Trace) : Cmd → Prop
  | .write .tx (.createWalletTransaction row) => row.status = .successful → row.purpose = .reversal →
      ∃ w, Declined w tr ∧ row.withdrawalId = some w.id
  | _ => True

theorem refundDemand_of_common (c : Cmd) (hc : c.common = true) : refundDemand tr c := by
  unfold refundDemand
  split
  · cases hc
  · trivial

theorem find?_withdrawalById {d : Db} {id : String} {w : Withdrawal}
    (h : (Query.withdrawalById id).run d = some w) : w.id = id := by
  have hp := List.find?_some h
  exact of_decide_eq_true hp

/-- What the command inserts belongs to the withdrawal. -/
def Cmd.InsertsFor (withdrawalId : String) (c : Cmd) : Prop :=
  ∀ row, c = .write .tx (.createWalletTransaction row) → row.withdrawalId = some withdrawalId

theorem reverseAndFail_insertsFor {withdrawalId walletId debitId : String} {amount : ℤ} :
    (reverseAndFail withdrawalId walletId amount debitId).Within (Cmd.InsertsFor withdrawalId) := by
  refine within_reverseAndFail (fun c hc row heq => ?_) (fun _ _ row heq => ?_)
    fun _ _ _ heq => nomatch heq
  · rw [heq] at hc
    cases hc
  · cases heq
    rfl

theorem alone_reverseAndFail {w : Withdrawal} {debitId : String} (h : Declined w tr) :
    Alone P config A refundDemand q i (reverseAndFail w.id w.walletId w.amount debitId)
      (fun _ _ => True) tr := by
  refine .within reverseAndFail_insertsFor (fun c new hc => ?_) fun _ _ _ => trivial
  unfold refundDemand
  split
  · exact fun _ _ => ⟨w, h.append new, hc _ rfl⟩
  · trivial

theorem alone_processPayout {withdrawalId : String} :
    Alone P config A refundDemand q i (WithdrawalPayoutService.processPayout withdrawalId)
      (fun _ _ => True) tr := by
  refine .bind (.select (refundDemand_of_common _ rfl) fun d => ?_)
  cases hfound : Query.run (.withdrawalById withdrawalId) d with
  | none => exact .ret trivial
  | some w =>
      have hid : w.id = withdrawalId := find?_withdrawalById hfound
      subst hid
      show Alone P config A _ q i (if _ then _ else _) _ _
      split
      · exact .ret trivial
      · show Alone P config A _ q i (if _ then _ else _) _ _
        split
        · exact .ret trivial
        · refine .bind (.command trivial
            fun _ _ _ (result : InitiateBankTransferResult) _ _ => ?_)
          show Alone P config A _ q i (if _ then _ else _) _ _
          split
          · rename_i hfailed
            exact alone_reverseAndFail ⟨.tail _ (.head _), .initiate result (.head _) hfailed⟩
          · refine .bind (.command trivial fun _ _ _ _ _ _ => ?_)
            show Alone P config A _ q i (if _ then _ else _) _ _
            split
            · exact .ret trivial
            · exact .bind (.command trivial fun _ _ _ _ _ _ => .ret trivial)

theorem alone_processSettle {withdrawalId : String} :
    Alone P config A refundDemand q i (WithdrawalSettleService.processSettle withdrawalId)
      (fun _ _ => True) tr := by
  refine .bind (.select (refundDemand_of_common _ rfl) fun d => ?_)
  cases hfound : Query.run (.withdrawalById withdrawalId) d with
  | none => exact .ret trivial
  | some w =>
      have hid : w.id = withdrawalId := find?_withdrawalById hfound
      subst hid
      show Alone P config A _ q i (if _ then _ else _) _ _
      split
      · exact .ret trivial
      · split
        · exact .ret trivial
        · rename_i transferId htransfer
          show Alone P config A _ q i (if _ then _ else _) _ _
          split
          · exact .ret trivial
          · refine .bind (.command trivial
              fun _ _ _ (result : BankTransferStatusResult) _ _ => ?_)
            show Alone P config A _ q i (WithdrawalSettleService.handleStatus w result.status) _ _
            cases hstatus : result.status with
            | successful => exact .bind (.command trivial fun _ _ _ _ _ _ => .ret trivial)
            | failed =>
                show Alone P config A _ q i (if _ then _ else _) _ _
                split
                · exact alone_reverseAndFail
                    ⟨.tail _ (.head _), .status transferId result htransfer (.head _) hstatus⟩
                · exact .ret trivial
            | pending => exact .fail
            | unknown => exact .fail

/-- The calls that give withdrawals back. -/
def Call.refunds : Call → Bool
  | withdrawalPayoutWorker | withdrawalSettleWorker => true
  | _ => false

theorem refundDemand_of_footprint {call : Call} (hcall : call.refunds = false) {c : Cmd}
    (hc : call.footprint c) : refundDemand tr c := by
  unfold refundDemand
  split
  · rename_i row
    intro hs hpurpose
    cases call with
    | postTransfers actor header dto => cases hs.symm.trans hc
    | postWithdrawals actor header dto => exact absurd hpurpose hc.2
    | withdrawalPayoutWorker => cases hcall
    | withdrawalSettleWorker => cases hcall
    | _ => exact hc.elim
  · trivial

theorem refund_justified (hA : ∀ call, A.admits call → Call.isApi call = true) :
    Justified P config A (fun _ => refundDemand) fun _ _ _ => True := by
  intro call i hcall
  cases hrefunds : call.refunds with
  | false =>
      have hwithin : (program P config call).Within call.footprint := program_within (hA call hcall)
      exact .within hwithin (fun c new hc => refundDemand_of_footprint hrefunds hc) fun _ _ _ => trivial
  | true =>
      cases call with
      | withdrawalPayoutWorker =>
          exact .map (.work (fun _ c hc => refundDemand_of_common c hc) fun _ => alone_processPayout)
      | withdrawalSettleWorker =>
          exact .map (.work (fun _ c hc => refundDemand_of_common c hc) fun _ => alone_processSettle)
      | _ => cases hrefunds

/-! ### Every step of every run -/

variable {cfg cfg' : Machine.Config (walletApi P config)} {a : Action (walletApi P config)}

/-- No statement by itself touches the journal. -/
theorem Write.rows_apply_pool {call : Call} {w : Write} (h : call.writes .pool w) (d : Db) :
    (w.apply d).walletTransactions = d.walletTransactions := by
  cases w with
  | createWalletTransaction row => cases call <;> exact h.elim
  | updateWalletTransactionStatus id status => cases call <;> exact h.elim
  | _ => rfl

/-- A step after which a wallet has another balance is a commit. -/
theorem commit_of_balance (h : Reachable (requests P config) World.initial cfg)
    (hn : Machine.next cfg a = some cfg')
    (hne : sumSuccessfulBalance cfg'.state.db walletId ≠ sumSuccessfulBalance cfg.state.db walletId) :
    ∃ i ch call k ws, a = .step i ch ∧ cfg.threads i = some (.running call (.op .commit k)) ∧
      (World.store cfg.state).opened i = some ws ∧ (∀ w ∈ ws, call.writes .tx w) ∧
      World.db cfg'.state = schema.applyAll ws (World.db cfg.state) := by
  have same {t : World} (hrows : t.db.walletTransactions = (World.db cfg.state).walletTransactions) :
      sumSuccessfulBalance t.db walletId = sumSuccessfulBalance cfg.state.db walletId := by
    have hjournal : t.db.journalOf walletId = (World.db cfg.state).journalOf walletId :=
      congrArg _ hrows
    exact sumSuccessfulBalance_congr hjournal
  cases a with
  | spawn i call =>
      obtain ⟨-, rfl⟩ := next_spawn_iff.mp hn
      exact absurd rfl hne
  | crash i =>
      obtain ⟨call, p, -, rfl⟩ := next_crash_iff.mp hn
      exact absurd (same rfl) hne
  | step i ch =>
      obtain ⟨call, c, k, r, t, hth, he, rfl⟩ := next_step_iff.mp hn
      rw [Config.state_set] at hne ⊢
      rcases World.exec_db he with heq | ⟨w, rfl, heq, -⟩ | ⟨rfl, ws, hopen, heq⟩
      · exact absurd (same (congrArg Db.walletTransactions heq)) hne
      · have hwrites : call.writes .pool w := footprint_of_thread (fun _ h => h) h hth
        exact absurd (same ((congrArg Db.walletTransactions heq).trans
          (w.rows_apply_pool hwrites _))) hne
      · refine ⟨i, ch, call, k, ws, rfl, hth, hopen, fun w hw => ?_, heq⟩
        obtain ⟨th, hth', hissues⟩ := (issues_of_reachable (fun _ h => h) h).2 i ws hopen w hw
        cases hth.symm.trans hth'
        exact hissues

/-- Where the money of a step comes from that thread `i` takes on behalf of the call. -/
inductive Source (cfg cfg' : Machine.Config (walletApi P config)) (i : ℕ) (call : Call)
    (walletId : String) : ℤ → Prop
  /-- The owner of another wallet has sent it. -/
  | sent (actor : JwtPayloadUser) (header : Option String) (dto : CreateWithdrawalDto)
      (hcall : call = .postWithdrawals actor header dto)
      (hverified : PinVerified actor.userId dto.pin (own i (World.log cfg.state)))
      (w : Withdrawal) (sender : String) (hne : sender ≠ walletId)
      (howner : ∃ x ∈ cfg.state.db.wallets, x.id = sender ∧ x.userId = actor.userId)
      (hspends : Spends cfg.state.db cfg'.state.db sender w) (huser : w.userId = actor.userId)
      (hdest : w.destinationWalletId = some walletId) (hamount : w.amount = dto.amount) :
      Source cfg cfg' i call walletId w.amount
  /-- A withdrawal to a bank has failed. -/
  | returned (hcall : call.refunds = true) (w w₀ : Withdrawal)
      (hw : w ∈ cfg.state.db.withdrawals) (hbank : w.destinationType = .bank)
      (hwallet : w.walletId = walletId) (hcore : w.core = w₀.core)
      (hdeclined : Declined w₀ (own i (World.log cfg.state))) :
      Source cfg cfg' i call walletId w.amount
  /-- A transfer has been paid. -/
  | collected (hcall : call = .transferCompleteWorker) (t t₀ : Transfer) (r : WalletTransaction)
      (verified : VerifyPaymentResult) (ht : t ∈ cfg.state.db.transfers)
      (hr : r ∈ cfg.state.db.walletTransactions) (hpending : r.status = .pending)
      (hlinked : r.transferId = some t.id) (hwallet : t.walletId = walletId)
      (hcore : t.core = t₀.core)
      (hconfirmed : Confirmed r.id (own i (World.log cfg.state)) t₀ verified) :
      Source cfg cfg' i call walletId t.amount

/-- The rows behind a confirmation are still there. -/
theorem transfer_of_confirmed (h : Reachable (requests P config) World.initial cfg)
    {r : WalletTransaction} (hr : r ∈ (World.db cfg.state).walletTransactions) {t₀ : Transfer}
    {verified : VerifyPaymentResult}
    (hconfirmed : Confirmed r.id (own i (World.log cfg.state)) t₀ verified) :
    ∃ t ∈ (World.db cfg.state).transfers, t.core = t₀.core ∧ r.transferId = some t.id := by
  obtain ⟨hu, -, -⟩ := books_of_reachable h
  obtain ⟨d₀, hfound, hgrows⟩ := found_of_log h hconfirmed.lookup
  obtain ⟨t, ht, hcore⟩ := hgrows.transfers t₀ (List.mem_of_find?_eq_some hfound)
  obtain ⟨credits, hlookup, r₀, hr₀, hid₀, hlinked⟩ := hconfirmed.row
  obtain ⟨d₁, hcredits, hgrows₁⟩ := found_of_log h hlookup
  obtain ⟨r₁, hr₁, hcore₁⟩ := hgrows₁.walletTransactions r₀
    ((mem_walletTransactionsByTransferId hcredits).mp hr₀).1
  have hid : r₁.core.id = r₀.core.id := by rw [hcore₁]
  have hid' : r₁.id = r₀.id := hid
  have hsame : r₁ = r := hu.row_ext hr₁ hr (hid'.trans hid₀)
  subst hsame
  have htransferId : r₁.core.transferId = r₀.core.transferId := by rw [hcore₁]
  have htransferId' : r₁.transferId = r₀.transferId := htransferId
  have htid : t.core.id = t₀.core.id := by rw [hcore]
  refine ⟨t, ht, hcore, ?_⟩
  rw [htransferId', hlinked]
  exact congrArg some htid.symm

section Commit

variable {ws : List Write} {call : Call} {k : Except Err Unit → Program Response} {ch : Choice}

theorem source_of_returned (h : Reachable (requests P config) World.initial cfg)
    (hth : cfg.threads i = some (.running call (.op .commit k)))
    (hopen : (World.store cfg.state).opened i = some ws) (hws : ∀ w ∈ ws, call.writes .tx w)
    (hdb : World.db cfg'.state = schema.applyAll ws (World.db cfg.state))
    (hu' : (World.db cfg'.state).Unique) {w : Withdrawal}
    (hw : w ∈ (World.db cfg.state).withdrawals) (hbank : w.destinationType = .bank)
    (hwallet : w.walletId = walletId) {stamp : String × ℕ}
    (hd : World.db cfg'.state = (Write.createWalletTransaction
      (w.reversalData.row stamp.1 stamp.2)).apply (World.db cfg.state)) :
    Source cfg cfg' i call walletId w.amount := by
  have hrows : (World.db cfg'.state).walletTransactions =
      (World.db cfg.state).walletTransactions ++ [w.reversalData.row stamp.1 stamp.2] := by
    rw [hd]
    rfl
  have hmem : Write.createWalletTransaction (w.reversalData.row stamp.1 stamp.2) ∈ ws := by
    refine mem_of_fresh hws ?_ (rowId_fresh hu' hrows (.head _))
    rw [← hdb, hrows]
    exact List.mem_append_right _ (.head _)
  have hcall : call.refunds = true := by
    have hwrites := hws _ hmem
    cases call with
    | postTransfers actor header dto => cases hwrites
    | postWithdrawals actor header dto => exact absurd rfl hwrites.2
    | withdrawalPayoutWorker => rfl
    | withdrawalSettleWorker => rfl
    | _ => exact hwrites.elim
  obtain ⟨th, new, tr, -, htrace, hdemand⟩ :=
    justifiedIn_of_staged (followed_of_reachable (refund_justified fun _ h => h) h) h i ws hopen _ hmem
  obtain ⟨w₀, hdeclined, hid⟩ := hdemand rfl rfl
  have hdeclined' : Declined w₀ (own i (World.log cfg.state)) := htrace ▸ hdeclined.append new
  -- The withdrawal that the thread has read is the one whose row it inserts.
  obtain ⟨hu, -, -⟩ := books_of_reachable h
  obtain ⟨d₀, hfound, hgrows⟩ := found_of_log h hdeclined'.lookup
  obtain ⟨w₁, hw₁, hcore⟩ := hgrows.withdrawals w₀ (List.mem_of_find?_eq_some hfound)
  have hid₁ : w₁.core.id = w₀.core.id := by rw [hcore]
  have hid₁' : w₁.id = w₀.id := hid₁
  have hsame : w₁ = w := hu.withdrawal_ext hw₁ hw (hid₁'.trans (Option.some.inj hid).symm)
  subst hsame
  exact .returned hcall w₁ w₀ hw₁ hbank hwallet hcore hdeclined'

end Commit

/-- Whatever the API does, in any interleaving: if a step leaves a wallet with more
than before, it is a commit, the money has one of three sources, and what has been
added is the amount of that source. -/
theorem every_gain_has_a_source (h : Reachable (requests P config) World.initial cfg)
    (hp : (requests P config).Permits cfg a) (hn : Machine.next cfg a = some cfg')
    (walletId : String)
    (hrise : sumSuccessfulBalance cfg.state.db walletId < sumSuccessfulBalance cfg'.state.db walletId) :
    ∃ i ch call k n, a = .step i ch ∧ cfg.threads i = some (.running call (.op .commit k)) ∧
      Source cfg cfg' i call walletId n ∧
      sumSuccessfulBalance cfg'.state.db walletId = sumSuccessfulBalance cfg.state.db walletId + n := by
  have h' := Reachable.next a h hp hn
  obtain ⟨hu, hb, -⟩ := books_of_reachable h
  obtain ⟨hu', -, -⟩ := books_of_reachable h'
  obtain ⟨i, ch, call, k, ws, rfl, hth, hopen, hws, hdb⟩ := commit_of_balance h hn hrise.ne'
  have heffect : Db.Effect cfg.state.db cfg'.state.db := by
    rcases (api_certified P config (fun _ _ _ _ _ => True) .true).guar_of_next h hp hn with
      heq | ⟨j, hg⟩
    · rw [heq] at hrise
      exact absurd hrise (lt_irrefl _)
    · refine hg.2.2.db.resolve_left fun heq => ?_
      rw [heq] at hrise
      exact absurd hrise (lt_irrefl _)
  obtain ⟨n, hearns, hbalance⟩ := heffect.earns hu hb hrise
  refine ⟨i, ch, call, k, n, rfl, hth, ?_, hbalance⟩
  cases hearns with
  | sent w sender hspends howner hdest hne =>
      have hw : w ∈ (World.db cfg'.state).withdrawals := by
        rw [hspends.withdrawals]
        exact List.mem_append_right _ (.head _)
      rw [hdb] at hw
      obtain ⟨row, hrow, hcore⟩ :=
        (withdrawal_of_applyAll hw).resolve_left (hspends.fresh hu')
      obtain ⟨actor, header, dto, hcall, huser, hamount, hverified⟩ :=
        request_of_created h hth hopen hrow
      have huser' : w.core.userId = row.core.userId := by rw [hcore]
      have hamount' : w.core.amount = row.core.amount := by rw [hcore]
      have hwuser : w.userId = actor.userId := huser'.trans huser
      exact .sent actor header dto hcall hverified w sender hne (hwuser ▸ howner) hspends hwuser hdest
        (hamount'.trans hamount)
  | returned w hw hbank hwallet stamp hd =>
      exact source_of_returned h hth hopen hws hdb hu' hw hbank hwallet hd
  | collected r hr hpending hwallet hd =>
      have hr' : ({ r with status := .successful } : WalletTransaction) ∈
          (World.db cfg'.state).walletTransactions := by
        rw [hd]
        exact List.mem_map.mpr ⟨r, hr, if_pos rfl⟩
      obtain ⟨j, ch', t₀, verified, heq, hconfirmed⟩ :=
        confirmed_of_credited h hp hn hr hpending hr' rfl rfl
      cases heq
      obtain ⟨t, ht, hcore, hlinked⟩ := transfer_of_confirmed h hr hconfirmed
      have hmade := (madeFrom_of_transferId hu hb ht hr hlinked).1
      have hwallet' : r.core.walletId = t.walletId := by rw [hmade]; rfl
      have hamount : r.core.amount = t.amount := by rw [hmade]; rfl
      have hcall : call = .transferCompleteWorker := by
        have hgone : r ∉ Db.walletTransactions (schema.applyAll ws (World.db cfg.state)) := by
          rw [← hdb]
          intro hmem
          have hsame := hu'.row_ext hr' hmem rfl
          rw [← hsame] at hpending
          cases hpending
        obtain ⟨status, hupdate⟩ := (row_applyAll hr).resolve_left hgone
        have hwrites := hws _ hupdate
        cases call with
        | transferCompleteWorker => rfl
        | _ => exact hwrites.elim
      have hsource : Source cfg cfg' i call walletId t.amount :=
        .collected hcall t t₀ r verified ht hr hpending hlinked (hwallet'.symm.trans hwallet) hcore
          hconfirmed
      rw [← hamount] at hsource
      exact hsource

/-- Ada has 400 sent to Bob: Bob's wallet earns what hers has spent. -/
theorem every_gain_has_a_source_schedule :
    ∃ cfg cfg', Machine.replayUnder (requests platform mockConfig) (.initial World.initial)
        beforeCommit = some cfg ∧
      Machine.replayUnder (requests platform mockConfig) cfg [.step 6 {}] = some cfg' ∧
      ∃ call k n, cfg.threads 6 = some (.running call (.op .commit k)) ∧
        Source cfg cfg' 6 call "w2" n ∧
        sumSuccessfulBalance cfg'.state.db "w2" = sumSuccessfulBalance cfg.state.db "w2" + n := by
  have hrun : (Machine.replayUnder (requests platform mockConfig) (.initial World.initial)
      beforeCommit).any fun cfg =>
        (Machine.replayUnder (requests platform mockConfig) cfg [.step 6 {}]).any fun cfg' =>
          sumSuccessfulBalance cfg.state.db "w2" < sumSuccessfulBalance cfg'.state.db "w2" := by
    decide +kernel
  obtain ⟨cfg, hcfg, h⟩ := (Option.any_eq_true ..).mp hrun
  obtain ⟨cfg', hcfg', hrise⟩ := (Option.any_eq_true ..).mp h
  obtain ⟨hp, hn⟩ := replayUnder_single hcfg'
  obtain ⟨i, ch, call, k, n, ha, hth, hsource, hbalance⟩ :=
    every_gain_has_a_source (.replayUnder hcfg) hp hn "w2" (of_decide_eq_true hrise)
  cases ha
  exact ⟨cfg, cfg', hcfg, hcfg', call, k, n, hth, hsource, hbalance⟩

end WalletApi
