import Mathlib.Algebra.Order.BigOperators.Group.List
import WalletApi.Runs.Solo
import WalletApi.Safety.Api

/-!
Only the owner can spend.

Of all that the API does to the journal only two things take money out of a
wallet: the commit of `executeP2p` and the commit of `executeBankAccept`. Both
belong to a request for a withdrawal, whose user owns the wallet. That the
request has checked the PIN of its user before is a matter of its own exchanges:
the program of the request begins with that check and goes on only if it returns.
-/

namespace WalletApi

open Concurrency ReadCommitted Machine WithdrawalRepository Schedule

variable {P : Platform} {config : Config} {d d' : Db} {walletId : String}

/-! ### What lowers a balance -/

/-- The withdrawal is taken out of the wallet, by the commit of `executeP2p` or by
that of `executeBankAccept`. -/
inductive Spends (d d' : Db) (walletId : String) (w : Withdrawal) : Prop
  | p2p (data : ExecuteP2pWithdrawalData) (a b c : String × ℕ)
      (hsender : data.senderWalletId = walletId) (hw : w = data.final a b c)
      (hd : d' = { d with
        withdrawals := d.withdrawals ++ [w]
        walletTransactions := d.walletTransactions ++
          [(data.debit w.id).row b.1 b.2, (data.credit w.id).row c.1 c.2] })
  | bank (data : ExecuteBankWithdrawalData) (a b : String × ℕ)
      (hwallet : data.walletId = walletId) (hw : w = data.final a b)
      (hd : d' = { d with
        withdrawals := d.withdrawals ++ [w]
        walletTransactions := d.walletTransactions ++ [(data.debit w.id).row b.1 b.2] })

theorem Spends.withdrawals {w : Withdrawal} (h : Spends d d' walletId w) :
    d'.withdrawals = d.withdrawals ++ [w] := by
  cases h with
  | p2p data a b c _ _ hd => rw [hd]
  | bank data a b _ _ hd => rw [hd]

/-- The withdrawal was not there before. -/
theorem Spends.fresh {w : Withdrawal} (h : Spends d d' walletId w) (hu : d'.Unique) :
    ¬∃ y ∈ d.withdrawals, w.core = y.core := by
  rintro ⟨y, hy, hcore⟩
  have hids := hu.withdrawalIds_nodup
  rw [h.withdrawals, List.map_append, List.map_singleton, List.nodup_append'] at hids
  have hid : w.core.id = y.core.id := by rw [hcore]
  have hid' : w.id = y.id := hid
  exact hids.2.2 (List.mem_map_of_mem hy) (hid' ▸ .head _)

/-- A credit adds its amount to its own wallet, and nothing to the others. -/
theorem WalletTransaction.effect_credit {r : WalletTransaction} (h : r.type = .credit)
    (hs : r.status = .successful) (walletId : String) :
    r.effect walletId = if r.walletId = walletId then r.amount else 0 := by
  rw [effect, signed, if_pos hs, if_pos h]

/-- New rows that take nothing away. -/
theorem le_balance_append {rows : List WalletTransaction}
    (h : d'.walletTransactions = d.walletTransactions ++ rows)
    (hrows : ∀ r ∈ rows, 0 ≤ r.effect walletId) :
    sumSuccessfulBalance d walletId ≤ sumSuccessfulBalance d' walletId := by
  rw [sumSuccessfulBalance_append h]
  have hsum : 0 ≤ (rows.map (·.effect walletId)).sum := by
    refine List.sum_nonneg fun x hx => ?_
    obtain ⟨r, hr, rfl⟩ := List.mem_map.mp hx
    exact hrows r hr
  omega

/-- An effect that lowers the balance of a wallet takes out a withdrawal of the
wallet's owner, and exactly the amount of it. -/
theorem Db.Effect.spends (h : d.Effect d') (hu : d.Unique) (hb : d.Books)
    (hdrop : sumSuccessfulBalance d' walletId < sumSuccessfulBalance d walletId) :
    ∃ w x, Spends d d' walletId w ∧ x ∈ d.wallets ∧ x.id = walletId ∧ x.userId = w.userId ∧
      sumSuccessfulBalance d walletId = sumSuccessfulBalance d' walletId + w.amount := by
  have append {rows : List WalletTransaction}
      (hrows : d'.walletTransactions = d.walletTransactions ++ rows) :
      sumSuccessfulBalance d' walletId =
        sumSuccessfulBalance d walletId + (rows.map (·.effect walletId)).sum :=
    sumSuccessfulBalance_append hrows walletId
  have same (hrows : d'.walletTransactions = d.walletTransactions) :
      sumSuccessfulBalance d' walletId = sumSuccessfulBalance d walletId := by
    have hjournal : d'.journalOf walletId = d.journalOf walletId := congrArg _ hrows
    exact sumSuccessfulBalance_congr hjournal
  cases h with
  | aside _ _ hr _ => exact absurd (same hr) hdrop.ne
  | createTransfer t _ => exact absurd (same rfl) hdrop.ne
  | updateTransfer id data => exact absurd (same rfl) hdrop.ne
  | updateWithdrawal id data _ _ => exact absurd (same rfl) hdrop.ne
  | pendingCredit t ht stamp =>
      refine absurd hdrop (not_lt.mpr (le_balance_append rfl fun r hr => ?_))
      rw [List.mem_singleton.mp hr, WalletTransaction.effect_of_status (by nofun)]
  | reversal w hw _ stamp =>
      refine absurd hdrop (not_lt.mpr (le_balance_append rfl fun r hr => ?_))
      rw [List.mem_singleton.mp hr]
      exact WalletTransaction.effect_credit_nonneg _ rfl (hb.withdrawal w hw).amount.le walletId
  | completeCredit r hr hs =>
      obtain ⟨ht, hamount⟩ := hb.solvent.pending r hr hs
      have hbefore : r.effect walletId = 0 :=
        WalletTransaction.effect_of_status (by rw [hs]; nofun) walletId
      have hafter : 0 ≤ ({ r with status := .successful } : WalletTransaction).effect walletId :=
        WalletTransaction.effect_credit_nonneg { r with status := .successful } ht hamount walletId
      rw [sumSuccessfulBalance_update hu hr rfl, hbefore] at hdrop
      omega
  | p2p data a b c _ _ hx _ _ =>
      obtain ⟨x, hx, hid, huser⟩ := hx
      have hbalance := append rfl
      rw [List.map_cons, List.map_singleton, List.sum_cons, List.sum_singleton,
        WalletTransaction.effect_debit rfl rfl, WalletTransaction.effect_credit rfl rfl] at hbalance
      have hdebit : ((data.debit a.1).row b.1 b.2).walletId = data.senderWalletId := rfl
      have hdebit' : ((data.debit a.1).row b.1 b.2).amount = data.amount := rfl
      have hcredit' : ((data.credit a.1).row c.1 c.2).amount = data.amount := rfl
      rw [hdebit, hdebit', hcredit'] at hbalance
      have hsender : data.senderWalletId = walletId := by
        by_contra hne
        rw [if_neg hne] at hbalance
        split at hbalance <;> omega
      refine ⟨data.final a b c, x, .p2p data a b c hsender rfl rfl, hx, hid.trans hsender, huser, ?_⟩
      show _ = _ + data.amount
      rw [if_pos hsender] at hbalance
      split at hbalance <;> omega
  | bankAccept data a b _ _ hx _ =>
      obtain ⟨x, hx, hid, huser⟩ := hx
      have hbalance := append rfl
      rw [List.map_singleton, List.sum_singleton, WalletTransaction.effect_debit rfl rfl] at hbalance
      have hdebit : ((data.debit a.1).row b.1 b.2).walletId = data.walletId := rfl
      have hdebit' : ((data.debit a.1).row b.1 b.2).amount = data.amount := rfl
      rw [hdebit, hdebit'] at hbalance
      have hwallet : data.walletId = walletId := by
        by_contra hne
        rw [if_neg hne] at hbalance
        omega
      refine ⟨data.final a b, x, .bank data a b hwallet rfl rfl, hx, hid.trans hwallet, huser, ?_⟩
      show _ = _ + data.amount
      rw [if_pos hwallet] at hbalance
      omega

/-! ### The check of the PIN -/

/-- The exchanges begin with those of a check of the PIN that has succeeded. -/
def PinVerified (userId pin : String) (tr : Trace) : Prop :=
  ∃ new old, tr = new ++ List.reverse old ∧ (AuthService.verifyPin userId pin).Returns old ()

theorem PinVerified.append {userId pin : String} {tr : Trace} (h : PinVerified userId pin tr)
    (new : Trace) : PinVerified userId pin (new ++ tr) := by
  obtain ⟨new', old, rfl, hreturns⟩ := h
  exact ⟨new ++ new', old, (List.append_assoc ..).symm, hreturns⟩

/-- A withdrawal is created by a request that has verified the PIN. -/
def spendingDemand (call : Call) (tr : Trace) : Cmd → Prop
  | .write .tx (.createWithdrawal _) => ∃ actor header dto,
      call = .postWithdrawals actor header dto ∧ PinVerified actor.userId dto.pin tr
  | _ => True

/-- The command creates no withdrawal. -/
def Cmd.CreatesNone (c : Cmd) : Prop := ∀ row, c ≠ .write .tx (.createWithdrawal row)

theorem spendingDemand_of_createsNone {call : Call} {tr : Trace} {c : Cmd} (hc : c.CreatesNone) :
    spendingDemand call tr c := by
  unfold spendingDemand
  split
  · exact absurd rfl (hc _)
  · trivial

theorem spendingDemand_of_verified {actor : JwtPayloadUser} {header : Option String}
    {dto : CreateWithdrawalDto} {tr : Trace} (h : PinVerified actor.userId dto.pin tr) (c : Cmd) :
    spendingDemand (.postWithdrawals actor header dto) tr c := by
  unfold spendingDemand
  split
  · exact ⟨actor, header, dto, rfl, h⟩
  · trivial

theorem createsNone_of_common (c : Cmd) (hc : c.common = true) : c.CreatesNone := by
  rintro row rfl
  cases hc

theorem verifyPin_createsNone {userId pin : String} :
    (AuthService.verifyPin userId pin).Within Cmd.CreatesNone := by
  refine AuthCredentialService.within_verifyPinOrThrow createsNone_of_common ?_ ?_
  · intro hash row h
    cases h
  · intro id data _ row h
    cases h

theorem footprint_createsNone {call : Call} (hne : call.isWithdrawalRequest = false) {c : Cmd}
    (hc : call.footprint c) : c.CreatesNone := by
  rintro row rfl
  cases call with
  | postWithdrawals actor header dto => cases hne
  | _ => exact hc

theorem spending_justified :
    Justified P config (requests P config) spendingDemand fun _ _ _ => True := by
  intro call i hcall
  have hcall : call.isApi = true := hcall
  cases hrequest : call.isWithdrawalRequest with
  | false =>
      exact Alone.within (program_within hcall)
        (fun c _ hc => spendingDemand_of_createsNone (footprint_createsNone hrequest hc)) fun _ _ _ => trivial
  | true =>
      cases call with
      | postWithdrawals actor header dto =>
          refine Alone.bind ?_
          cases requireIdempotencyKey header with
          | error e => exact Alone.fail
          | ok key =>
              refine Alone.ret (Alone.map (Alone.bind (Alone.within verifyPin_createsNone
                (fun c _ hc => spendingDemand_of_createsNone hc) fun _ old hreturns => ?_)))
              have hverified : PinVerified actor.userId dto.pin (old.reverse ++ []) :=
                ⟨[], old, List.append_nil _, hreturns⟩
              exact Alone.within (.all fun _ => trivial)
                (fun c new (_ : True) => spendingDemand_of_verified (hverified.append new) c)
                fun _ _ _ => trivial
      | _ => cases hrequest

/-! ### Every step of every run -/

variable {cfg cfg' : Machine.Config (walletApi P config)}

/-- A thread that creates a withdrawal serves a request of its user. -/
theorem request_of_created (h : Reachable (requests P config) World.initial cfg) {i : ℕ} {th : Thread (walletApi P config)}
    {ws : List Write} {row : Withdrawal} (hth : cfg.threads i = some th)
    (hopen : (World.store cfg.state).opened i = some ws) (hrow : Write.createWithdrawal row ∈ ws) :
    ∃ actor header dto, th.call = Call.postWithdrawals actor header dto ∧
      row.userId = actor.userId ∧ row.amount = dto.amount ∧
      PinVerified actor.userId dto.pin (own i (World.log cfg.state)) := by
  obtain ⟨th₁, hth₁, hissues⟩ :=
    (issues_of_reachable (fun _ h => h) h).2 i ws hopen _ hrow
  obtain ⟨th₂, new, tr, hth₂, htrace, actor, header, dto, hcall, hverified⟩ :=
    justifiedIn_of_staged (followed_of_reachable spending_justified h) h i ws hopen _ hrow
  cases hth.symm.trans hth₁
  cases hth.symm.trans hth₂
  rw [hcall] at hissues
  exact ⟨actor, header, dto, hcall, hissues.1, hissues.2.1, htrace ▸ hverified.append new⟩

/-- Whatever the API does, in any interleaving: if a step leaves a wallet with less
than before, it is the commit of a withdrawal, which a request of the wallet's
owner has asked for after it has verified the PIN, and what is missing is the
amount of that withdrawal. -/
theorem only_owner_spends {a : Action (walletApi P config)}
    (h : Reachable (requests P config) World.initial cfg) (hp : (requests P config).Permits cfg a)
    (hn : Machine.next cfg a = some cfg') (walletId : String)
    (hdrop : sumSuccessfulBalance cfg'.state.db walletId <
      sumSuccessfulBalance cfg.state.db walletId) :
    ∃ i ch actor header dto k w, a = .step i ch ∧
      cfg.threads i = some (.running (.postWithdrawals actor header dto) (.op .commit k)) ∧
      PinVerified actor.userId dto.pin (own i (World.log cfg.state)) ∧
      Spends cfg.state.db cfg'.state.db walletId w ∧
      w.userId = actor.userId ∧ w.amount = dto.amount ∧
      (∃ x ∈ cfg.state.db.wallets, x.id = walletId ∧ x.userId = actor.userId) ∧
      sumSuccessfulBalance cfg.state.db walletId =
        sumSuccessfulBalance cfg'.state.db walletId + w.amount := by
  have C := api_certified P config (fun _ _ _ _ _ => True) .true
  have hinv := C.inv h
  have hinv' := C.inv (.next a h hp hn)
  have hne : cfg'.state.db ≠ cfg.state.db := by
    intro heq
    rw [heq] at hdrop
    exact lt_irrefl _ hdrop
  -- The step is an effect, which takes a withdrawal out of the wallet.
  have heffect : Db.Effect cfg.state.db cfg'.state.db := by
    rcases C.guar_of_next h hp hn with heq | ⟨i, hg⟩
    · exact absurd (congrArg World.db heq) hne
    · exact hg.2.2.db.resolve_left hne
  obtain ⟨w, x, hspends, hx, hxid, hxuser, hbalance⟩ :=
    heffect.spends hinv.2.1 hinv.2.2.2.1 hdrop
  have hw : w ∈ cfg'.state.db.withdrawals := by
    rw [hspends.withdrawals]
    exact List.mem_append_right _ (.head _)
  cases a with
  | spawn i call =>
      obtain ⟨-, rfl⟩ := next_spawn_iff.mp hn
      exact absurd rfl hne
  | crash i =>
      obtain ⟨call, p, -, rfl⟩ := next_crash_iff.mp hn
      exact absurd rfl hne
  | step i ch =>
      obtain ⟨call, c, k, r, t, hth, he, rfl⟩ := next_step_iff.mp hn
      rcases World.exec_db he with heq | ⟨w', rfl, heq, -⟩ | ⟨rfl, ws, hopen, heq⟩
      · exact absurd heq hne
      · -- A statement by itself creates no withdrawal.
        rw [Config.state_set, heq] at hw
        rcases Write.withdrawal_of_apply hw with hold | rfl
        · exact absurd hold (hspends.fresh hinv'.2.1)
        · have hwrites : Call.writes call .pool (.createWithdrawal w) :=
            footprint_of_thread (fun _ h => h) h hth
          cases call <;> exact hwrites.elim
      · rw [Config.state_set, heq] at hw
        rcases withdrawal_of_applyAll hw with hold | ⟨row, hrow, hcore⟩
        · exact absurd hold (hspends.fresh hinv'.2.1)
        · obtain ⟨actor, header, dto, rfl, huser, hamount, hverified⟩ :=
            request_of_created h hth hopen hrow
          have huser' : w.core.userId = row.core.userId := by rw [hcore]
          have hamount' : w.core.amount = row.core.amount := by rw [hcore]
          have hwuser : w.userId = actor.userId := huser'.trans huser
          exact ⟨i, ch, actor, header, dto, k, w, rfl, hth, hverified, hspends, hwuser,
            hamount'.trans hamount, ⟨x, hx, hxid, hxuser.trans hwuser⟩, hbalance⟩

/-- Ada has asked for 400 to be sent to Bob, and everything but the commit is done. -/
def beforeCommit : List (Action (walletApi platform mockConfig)) :=
  fundedAda ++ (sendToBob 6 idempotencyKey "x1" "r2" "r3").dropLast

theorem only_owner_spends_schedule :
    ∃ cfg cfg', Machine.replayUnder (requests platform mockConfig) (.initial World.initial)
        beforeCommit = some cfg ∧
      Machine.replayUnder (requests platform mockConfig) cfg [.step 6 {}] = some cfg' ∧
      ∃ actor header dto k w,
        cfg.threads 6 = some (.running (.postWithdrawals actor header dto) (.op .commit k)) ∧
        Spends cfg.state.db cfg'.state.db "w1" w ∧ w.amount = dto.amount := by
  have hrun : (Machine.replayUnder (requests platform mockConfig) (.initial World.initial)
      beforeCommit).any fun cfg =>
        (Machine.replayUnder (requests platform mockConfig) cfg [.step 6 {}]).any fun cfg' =>
          sumSuccessfulBalance cfg'.state.db "w1" < sumSuccessfulBalance cfg.state.db "w1" := by
    decide +kernel
  obtain ⟨cfg, hcfg, h⟩ := (Option.any_eq_true ..).mp hrun
  obtain ⟨cfg', hcfg', hdrop⟩ := (Option.any_eq_true ..).mp h
  obtain ⟨hp, hn⟩ := replayUnder_single hcfg'
  obtain ⟨i, ch, actor, header, dto, k, w, ha, hth, -, hspends, -, hamount, -⟩ :=
    only_owner_spends (.replayUnder hcfg) hp hn "w1" (of_decide_eq_true hdrop)
  cases ha
  exact ⟨cfg, cfg', hcfg, hcfg', actor, header, dto, k, w, hth, hspends, hamount⟩

end WalletApi
