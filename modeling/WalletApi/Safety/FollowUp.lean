import WalletApi.Safety.Redelivery
import WalletApi.Safety.Reversals

/-!
Who looks after a withdrawal when its workers are done with it.

A worker that returns has brought the withdrawal to an end or leaves it to the
settlement, which needs two things: a job that will be worked on, and the id under
which the provider knows the transfer. The answer of the provider may lack the id.
Then the payout stores none, the settlement finds none and returns as if there were
nothing to do, and the debit stands. As long as pending answers come with an id, and
a settlement that a payout asks for is not one that has used up its attempts or has
asked already, every withdrawal is attended to.
-/

namespace WalletApi

open Concurrency ReadCommitted World Policy

variable {P : Platform} {config : Config} {q : Call} {i : ℕ} {c : Cmd} {ch : Choice}
  {s t u : World} {d : Db} {w w₀ : Withdrawal} {stored : String → Prop} {id : String}

/-! ### What the workers leave behind -/

/-- The withdrawal is final, or the provider knows it under an id that is on record. -/
def Withdrawal.Answered (w : Withdrawal) : Prop :=
  w.status.terminal = true ∨ truthy w.providerTransferId = true

/-- The last thing that happened is that the settlement was asked for. -/
def World.JustAsked (s : World) (id : String) : Prop :=
  ∃ e es, s.history = e :: es ∧ e.cmd = .queueAdd (settleJob id)

/-- The withdrawal is final, or the provider can be asked about it and a settlement
has just been asked for. -/
def World.Attended (s : World) (id : String) : Prop :=
  ∀ w ∈ s.db.withdrawals, w.id = id → w.destinationType = .bank →
    w.status.terminal = true ∨
      truthy w.providerTransferId = true ∧ s.HoldsJob (settleJob id) ∧ s.JustAsked id

/-- The settlement of the withdrawal has been asked for. -/
def World.Asked (s : World) (id : String) : Prop :=
  ∃ e ∈ s.history, e.added = some (settleJob id)

/-- An answer of the provider has been stored in the withdrawal. -/
def Event.stores (e : Event) (id : String) : Prop :=
  ∃ data, e.cmd = .write .pool (.updateWithdrawal id data) ∧ e.took = true ∧
    (data.status ≠ none ∨ data.providerTransferId ≠ none)

def World.Stored (s : World) (id : String) : Prop := ∃ e ∈ s.history, e.stores id

variable (P config) in
/-- What the adapter makes of the answer to a transfer request. -/
def transferAnswer (params : InitiateBankTransferParams) (answer : HttpAnswer) :
    Except Err InitiateBankTransferResult :=
  if config.useMock then .ok (FlutterwaveMockAdapter.initiateBankTransfer params)
  else FlutterwavePaymentService.initiateBankTransfer P answer

/-- A transfer that is pending comes with an id. -/
def namesPending : Except Err InitiateBankTransferResult → Bool
  | .ok result => decide (result.status ≠ .pending) || truthy result.transferId
  | .error _ => true

variable (P config) in
/-- Pending transfers have ids, no settlement is asked for whose job has failed for
good, and generated ids are not empty. -/
def followedUp (c : Cmd) (ch : Choice) (s : World) : Bool :=
  match c with
  | .initiateBankTransfer params => namesPending (transferAnswer P config params ch.answer)
  | .queueAdd job =>
      decide (job.queue ≠ .withdrawalSettle) ||
        s.jobs.all fun j => decide (¬(j.key = job.key ∧ j.state = .failed))
  | .defaults => decide (ch.text ≠ "")
  | _ => true

variable (P config) in
def FollowedUp (_ : Call) (_ : ℕ) (c : Cmd) (ch : Choice) (s : World) : Prop :=
  followedUp P config c ch s = true

variable (P config) in
/-- The runs in which this is so. -/
def followUps : Machine.Assumptions (executing P config) where
  admits := (executions P config).admits
  allows call := FollowedUp P config (role call)

/-! ### The invariant -/

/-- The write leaves a withdrawal answered that was, and names a debit if any. -/
def Write.KeepsAnswered : Write → Prop
  | createWithdrawal row => row.debitTransactionId ≠ some ""
  | updateWithdrawal _ data =>
      data.debitTransactionId ≠ some (some "") ∧
        (data.status = none ∧ data.providerTransferId = none ∨
          (∃ status, data.status = some status ∧ status.terminal = true) ∨
          ∃ id, data.providerTransferId = some id ∧ truthy id = true)
  | _ => True

/-- What holds of the withdrawals in which something has been stored. -/
structure Db.FollowedUp (d : Db) (stored : String → Prop) : Prop where
  debit : ∀ w ∈ d.withdrawals, w.debitTransactionId ≠ some ""
  answered : ∀ w ∈ d.withdrawals, stored w.id → w.Answered

theorem Withdrawal.Answered.patch {data : UpdateWithdrawalProviderData}
    (h : w.Answered ∨ data.status ≠ none ∨ data.providerTransferId ≠ none)
    (hd : (Write.updateWithdrawal w.id data).KeepsAnswered) : (w.patch data).Answered := by
  rcases hd.2 with ⟨hstatus, hid⟩ | ⟨status, hstatus, hterminal⟩ | ⟨id, hid, htruthy⟩
  · have hanswered : w.Answered := by
      rcases h with h | h | h
      · exact h
      · exact absurd hstatus h
      · exact absurd hid h
    unfold Answered Withdrawal.patch
    rw [hstatus, hid]
    exact hanswered
  · left
    show (data.status.getD w.status).terminal = true
    rw [hstatus]
    exact hterminal
  · right
    show truthy (data.providerTransferId.getD w.providerTransferId) = true
    rw [hid]
    exact htruthy

/-- One write; a withdrawal that is created is a new one. -/
theorem Db.FollowedUp.apply {x : Write} (h : d.FollowedUp stored) (hx : x.KeepsAnswered)
    (hnew : ∀ row, x = .createWithdrawal row → ¬stored row.id) :
    (x.apply d).FollowedUp stored where
  debit w hw := by
    rcases Write.withdrawal_source hw with hold | rfl | ⟨w₀, hw₀, data, rfl, rfl⟩
    · exact h.debit w hold
    · exact hx
    · have hdebit : (w₀.patch data).debitTransactionId =
          data.debitTransactionId.getD w₀.debitTransactionId := rfl
      rw [hdebit]
      cases hdata : data.debitTransactionId with
      | none => exact h.debit w₀ hw₀
      | some id => exact fun hid => hx.1 (hdata.trans (congrArg some hid))
  answered w hw hstored := by
    rcases Write.withdrawal_source hw with hold | rfl | ⟨w₀, hw₀, data, rfl, rfl⟩
    · exact h.answered w hold hstored
    · exact absurd hstored (hnew w rfl)
    · exact .patch (.inl (h.answered w₀ hw₀ hstored)) hx

namespace World

structure FollowUpOk (s : World) : Prop where
  staged : s.Staged fun _ w => w.KeepsAnswered
  queues : QueuesOk s.jobs
  known : ∀ id, s.Stored id → ∃ w ∈ s.db.withdrawals, w.id = id
  withdrawals : s.db.FollowedUp s.Stored
  asked : ∀ id, s.Asked id → s.Stored id

/-- What a command has to wait for. -/
def followUpDemand (s : World) : Cmd → Prop
  | .write .pool (.createWithdrawal _) => False
  | .write _ w => w.KeepsAnswered
  | .queueAdd job => IsJob job ∧ ∀ id, job = settleJob id → s.Stored id
  | _ => True

theorem FollowUpOk.initial : World.initial.FollowUpOk where
  staged _ _ hopen := by cases hopen
  queues := ⟨List.nodup_nil, fun _ hj => absurd hj List.not_mem_nil⟩
  known := fun _ ⟨_, he, _⟩ => absurd he List.not_mem_nil
  withdrawals := ⟨fun _ hw => absurd hw List.not_mem_nil, fun _ hw => absurd hw List.not_mem_nil⟩
  asked := fun _ ⟨_, he, _⟩ => absurd he List.not_mem_nil

theorem FollowUpOk.crash (h : s.FollowUpOk) : (World.crash i s).FollowUpOk :=
  { h with staged := h.staged.crash }

theorem Stored.mono (h : s.Stored id) (hh : ∃ es, t.history = es ++ s.history) : t.Stored id := by
  obtain ⟨es, hes⟩ := hh
  obtain ⟨e, he, hstores⟩ := h
  exact ⟨e, hes ▸ List.mem_append_right _ he, hstores⟩

theorem asked_of_exec {r : Except Err c.Resp} (he : exec P config i c ch s = some (r, t))
    (h : t.Asked id) : s.Asked id ∨ c = .queueAdd (settleJob id) := by
  obtain ⟨took, hh⟩ := exec_history he
  obtain ⟨e, hmem, hadded⟩ := h
  rw [hh] at hmem
  rcases List.mem_cons.mp hmem with rfl | hold
  · right
    unfold Event.added at hadded
    split at hadded
    · rename_i heq
      cases heq
      rw [Option.some.inj hadded]
    · cases hadded
  · exact .inl ⟨e, hold, hadded⟩

/-- What is stored by a command is in the table. -/
theorem stored_of_exec {r : Except Err c.Resp} (he : exec P config i c ch s = some (r, t))
    (h : t.Stored id) : s.Stored id ∨
      ∃ data, c = .write .pool (.updateWithdrawal id data) ∧
        (data.status ≠ none ∨ data.providerTransferId ≠ none) ∧
        t.db = (Write.updateWithdrawal id data).apply s.db ∧
        ∃ w ∈ s.db.withdrawals, w.id = id := by
  obtain ⟨took, hh⟩ := exec_history he
  obtain ⟨e, hmem, data, hcmd, htook, hdata⟩ := h
  rw [hh] at hmem
  rcases List.mem_cons.mp hmem with rfl | hold
  · right
    have hc : c = .write .pool (.updateWithdrawal id data) := hcmd
    have htook' : took = true := htook
    subst hc htook'
    refine ⟨data, rfl, hdata, ?_⟩
    rcases exec_eq_some he with ⟨-, -, -, rfl⟩ | ⟨r', s', hp, -, rfl⟩
    · cases hh
    rcases write_eq_some hp with ⟨rfl, code, -, rfl⟩ | ⟨row, store, -, hrow, hstage, -, rfl⟩
    · cases hh
    · obtain ⟨-, -, rfl⟩ := Store.write_eq_done hstage
      obtain ⟨w, hfound, -⟩ := Option.map_eq_some_iff.mp hrow
      exact ⟨rfl, w, find?_withdrawal_id hfound⟩
  · exact .inl ⟨e, hold, data, hcmd, htook, hdata⟩

/-- The withdrawals, as far as something had been stored in them before the command. -/
theorem FollowUpOk.withdrawals_exec {r : Except Err c.Resp} (h : s.FollowUpOk)
    (hc : s.store.Coherent) (he : exec P config i c ch s = some (r, t))
    (hd : s.followUpDemand c) : t.db.FollowedUp s.Stored := by
  rcases exec_db he with hdb | ⟨w, rfl, hdb, -⟩ | ⟨-, ws, hopen, hdb⟩
  · rw [hdb]
    exact h.withdrawals
  · rw [hdb]
    cases w with
    | createWithdrawal row => exact hd.elim
    | _ => exact h.withdrawals.apply hd fun _ hw => by cases hw
  · rw [hdb]
    refine applyAll_keeps (p := fun w => w.KeepsAnswered ∧
        ∀ row, w = .createWithdrawal row → ¬s.Stored row.id) (I := (·.FollowedUp s.Stored))
      (fun w d hw hd => hd.apply hw.1 hw.2) (fun w hw => ⟨h.staged i ws hopen w hw, ?_⟩)
      h.withdrawals
    -- The id of a row in the buffer is new to the committed database.
    rintro row rfl hstored
    obtain ⟨x, hx, hid⟩ := h.known row.id hstored
    exact Db.withdrawal_fresh (hc.notMem_index hopen hw (.head _)) x hx hid

theorem FollowUpOk.step {r : Except Err c.Resp} (h : s.FollowUpOk) (hc : s.store.Coherent)
    (he : exec P config i c ch s = some (r, t)) (hd : s.followUpDemand c) : t.FollowUpOk where
  staged := h.staged.exec he (fun _ _ h => h) fun w hw => by
    subst hw
    cases w <;> exact hd
  queues := h.queues.exec he fun job hjob => by
    subst hjob
    exact hd.1
  known id hid := by
    have hg : s.db.Grows t.db := Stepped.grows (.inl ⟨c, ch, r, he⟩)
    have hold : ∃ w ∈ s.db.withdrawals, w.id = id := by
      rcases stored_of_exec he hid with hold | ⟨-, -, -, -, hw⟩
      · exact h.known id hold
      · exact hw
    obtain ⟨w, hw, hwid⟩ := hold
    obtain ⟨w', hw', hcore⟩ := hg.withdrawals w hw
    have hid' : w'.core.id = w.core.id := by rw [hcore]
    exact ⟨w', hw', (show w'.id = w.id from hid').trans hwid⟩
  withdrawals := by
    have hwithdrawals := h.withdrawals_exec hc he hd
    refine ⟨hwithdrawals.debit, fun w hw hid => ?_⟩
    rcases stored_of_exec he hid with hold | ⟨data, rfl, hdata, hdb, -⟩
    · exact hwithdrawals.answered w hw hold
    · rw [hdb] at hw
      obtain ⟨w₀, -, hpatched⟩ := List.mem_map.mp hw
      have hid₀ : w₀.id = w.id := by
        rw [← hpatched]
        split
        · rfl
        · rfl
      rw [if_pos hid₀] at hpatched
      rw [← hpatched]
      rw [← hid₀] at hd
      exact .patch (.inr hdata) hd
  asked id hid := by
    obtain ⟨took, hh⟩ := exec_history he
    rcases asked_of_exec he hid with hold | rfl
    · exact (h.asked id hold).mono ⟨[_], hh⟩
    · exact (hd.2 id rfl).mono ⟨[_], hh⟩

end World

variable (P config) in
/-- Withdrawals whose settlement is asked for are known to the provider, on top of the
books. -/
def followUp : Overlay ((bookkeeping (FollowedUp P config)).discipline P config) where
  Inv := World.FollowUpOk
  Demand _ c s := s.followUpDemand c
  Plain c := ∀ s : World, s.followUpDemand c
  meets hc := hc _
  keeps hc hstep hs _ _ h := by
    obtain ⟨ch, -, he⟩ := hstep
    exact h.step hs.1 he (hc _)

theorem followUp_common (c : Cmd) (hc : c.common = true) : (followUp P config).Plain c := by
  intro s
  cases c with
  | write client w => cases hc
  | queueAdd job => cases hc
  | _ => trivial

/-! ### Withdrawals name their debits -/

theorem over_insert {data : WalletTransactionRepository.CreateWalletTransactionData} :
    Over (followUp P config) q i (WalletTransactionRepository.insert data)
      (fun row _ => row.id ≠ "") s := by
  refine .bind (.common followUp_common rfl fun t u (stamp : String × ℕ) hp => ?_)
  have hid : stamp.1 ≠ "" := by
    obtain ⟨ch, hallows, he⟩ := hp.own.exec
    obtain ⟨s', hperform, -⟩ := exec_infallible rfl he
    cases hperform
    exact of_decide_eq_true hallows
  refine .plain (fun _ => trivial) fun t' u' (row : WalletTransaction) hp' => ?_
  cases hp'.own.staged_eq
  exact hid

namespace WithdrawalRepository

/-- What the two operations have in common: a lookup, and a transaction that begins
with another one. -/
theorem over_execute {userId key hash : String} {rest : Program ExecuteWithdrawalResult}
    (h : ∀ u, Over (followUp P config) q i rest (fun _ _ => True) u) :
    Over (followUp P config) q i
      (do
        let existing ← findByUserAndIdempotencyKey .pool userId key
        match existing with
        | some withdrawal => replay withdrawal hash
        | none =>
            rethrowWalletMissing (transaction do
              let again ← findByUserAndIdempotencyKey .tx userId key
              match again with
              | some withdrawal => return { withdrawal, created := false }
              | none => rest)) (fun _ _ => True) s := by
  refine .bind (.plain (fun _ => trivial) fun _ _ (existing : Option Withdrawal) _ => ?_)
  cases existing with
  | some w => exact .within within_replay fun _ _ _ => trivial
  | none =>
      refine .tryCatch (.transaction followUp_common fun u => ?_) fun e u =>
        .within (.ite (fun _ => .fail) fun _ => .fail) fun _ _ _ => trivial
      have commit (v : World) : Over (followUp P config) q i (perform .commit)
          (fun (_ : Unit) (_ : World) => True) v :=
        .common followUp_common rfl fun _ _ _ _ => trivial
      refine .bind (.plain (fun _ => trivial) fun _ v (again : Option Withdrawal) _ => ?_)
      cases again with
      | some w => exact .ret (commit v)
      | none => exact (h v).mono fun _ v' _ => commit v'

theorem over_executeP2p {data : ExecuteP2pWithdrawalData} :
    Over (followUp P config) q i (executeP2p data) (fun _ _ => True) s := by
  refine over_execute fun u => .bind (.within (within_lockWalletRows (allowed_of_inner followUp_common)) fun _ _ _ => ?_)
  refine .bind (.common followUp_common rfl fun _ _ (available : ℤ) _ => .bind (.throwIf fun _ => ?_))
  refine .bind (.common followUp_common rfl fun _ _ stamp _ => ?_)
  refine .bind (.plain (fun _ => nofun) fun _ _ (w : Withdrawal) _ => ?_)
  refine .bind (over_insert.mono fun debit _ hdebit => ?_)
  refine .bind (over_insert.mono fun credit _ _ => ?_)
  refine .bind (.plain (fun _ => ⟨?_, .inl ⟨rfl, rfl⟩⟩) fun _ _ _ _ => .ret trivial)
  exact fun h => hdebit (Option.some.inj (Option.some.inj h))

theorem over_executeBankAccept {data : ExecuteBankWithdrawalData} :
    Over (followUp P config) q i (executeBankAccept data) (fun _ _ => True) s := by
  refine over_execute fun u => .bind (.within (within_lockWalletRow (allowed_of_inner followUp_common)) fun _ _ _ => ?_)
  refine .bind (.common followUp_common rfl fun _ _ (available : ℤ) _ => .bind (.throwIf fun _ => ?_))
  refine .bind (.common followUp_common rfl fun _ _ stamp _ => ?_)
  refine .bind (.plain (fun _ => nofun) fun _ _ (w : Withdrawal) _ => ?_)
  refine .bind (over_insert.mono fun debit _ hdebit => ?_)
  refine .bind (.plain (fun _ => ⟨?_, .inl ⟨rfl, rfl⟩⟩) fun _ _ _ _ => .ret trivial)
  exact fun h => hdebit (Option.some.inj (Option.some.inj h))

end WithdrawalRepository

theorem WithdrawalsService.over_create {actor : JwtPayloadUser} {dto : CreateWithdrawalDto}
    {key : String} :
    Over (followUp P config) q i (create P actor dto key) (fun _ _ => True) s := by
  refine .bind (.within (AuthCredentialService.within_verifyPinOrThrow followUp_common
    (fun _ _ => trivial) fun _ _ _ _ => trivial) fun _ u _ => ?_)
  split
  · refine .bind (.within within_requireNgn fun _ _ _ => .bind (.throwIf fun _ => ?_))
    refine .bind (.common followUp_common rfl fun _ _ _ _ => .bind (.orThrow fun sender _ => ?_))
    refine .bind (.common followUp_common rfl fun _ _ _ _ => .bind (.orThrow fun user _ => ?_))
    refine .bind (.throwIf fun _ => ?_)
    refine .bind (.common followUp_common rfl fun _ _ _ _ => .bind (.orThrow fun wallet _ => ?_))
    refine .bind (.throwIf fun _ => ?_)
    exact .bind (WithdrawalRepository.over_executeP2p.mono fun _ _ _ => .ret trivial)
  · refine .bind (.within within_requireNgn fun _ _ _ => .bind (.throwIf fun _ => ?_))
    refine .bind (.common followUp_common rfl fun _ _ _ _ => .bind (.orThrow fun wallet _ => ?_))
    refine .bind (.throwIf fun _ => .bind (.common followUp_common rfl fun _ _ uuid _ => ?_))
    refine .bind (WithdrawalRepository.over_executeBankAccept.mono fun result u _ => ?_)
    show Over _ q i (if _ then _ else _) _ _
    split
    · exact .bind (.plain (fun _ => ⟨⟨_, .inr (.inl rfl)⟩, fun _ h => by cases h⟩)
        fun _ _ _ _ => .ret trivial)
    · exact .ret trivial

/-! ### The workers -/

/-- A withdrawal is found as it is. -/
theorem eq_of_read {withdrawalId : String}
    (hp : Over.Passed (followUp P config) q i (.select .pool (.withdrawalById withdrawalId)) s t
      (some w₀) u) (hw : w ∈ u.db.withdrawals) (hid : w.id = withdrawalId) : w = w₀ := by
  have hfound : (Query.withdrawalById withdrawalId).run t.db = some w₀ := hp.own.select_eq.symm
  obtain ⟨hmem, hid₀⟩ := find?_withdrawal_id hfound
  rw [hp.own.db_quiet rfl] at hw
  exact hp.before.1.2.1.withdrawal_ext hw hmem (hid.trans hid₀.symm)

theorem not_found_of_read {withdrawalId : String}
    (hp : Over.Passed (followUp P config) q i (.select .pool (.withdrawalById withdrawalId)) s t
      none u) : u.Attended withdrawalId := by
  intro w hw hid
  have hfound : (Query.withdrawalById withdrawalId).run t.db = none := hp.own.select_eq.symm
  rw [hp.own.db_quiet rfl] at hw
  exact absurd (decide_eq_true hid) (List.find?_eq_none.mp hfound w hw)

/-- After a final status has been written. -/
theorem attended_of_update {id : String} {data : UpdateWithdrawalProviderData}
    {status : WithdrawalStatus} (hstatus : data.status = some status)
    (hterminal : status.terminal = true) {row : Withdrawal}
    (hp : Over.Passed (followUp P config) q i (.write .pool (.updateWithdrawal id data)) s t
      row u) : u.Attended id := by
  intro w hw hid _
  left
  rw [hp.own.write_eq.2] at hw
  obtain ⟨w₀, -, rfl⟩ := List.mem_map.mp hw
  by_cases hw₀ : w₀.id = id
  · rw [if_pos hw₀]
    show (data.status.getD w₀.status).terminal = true
    rw [hstatus]
    exact hterminal
  · rw [if_neg hw₀] at hid
    exact absurd hid hw₀

theorem over_reverseAndFail {id walletId debitId : String} {amount : ℤ} :
    Over (followUp P config) q i (reverseAndFail id walletId amount debitId)
      (fun _ u => u.Attended id) s := by
  refine .bind (.within (WalletLedgerService.within_postReversalCredit followUp_common
    fun _ _ _ => trivial) fun reversal _ _ => ?_)
  refine .bind (.plain (fun _ => ⟨nofun, .inr (.inl ⟨_, rfl, rfl⟩)⟩) fun _ _ _ hp => ?_)
  exact .ret (attended_of_update rfl rfl hp)

/-- A pending transfer is answered with its id. -/
theorem truthy_of_answered {params : InitiateBankTransferParams}
    {result : InitiateBankTransferResult}
    (ho : Own (bookkeeping (FollowedUp P config)) P config q i (.initiateBankTransfer params) s t
      (.ok result) u) (hs : result.status = .pending) : truthy result.transferId = true := by
  obtain ⟨ch, hallows, he⟩ := ho.exec
  have hanswer : transferAnswer P config params ch.answer = .ok result := by
    rcases exec_eq_some he with ⟨-, -, hr, -⟩ | ⟨r', s', hp, hr | ⟨-, -, hr⟩, -⟩
    · cases hr
    · subst hr
      unfold transferAnswer
      simp only [World.perform] at hp
      split at hp
      · rw [if_pos (by assumption)]
        exact (Prod.ext_iff.mp (Option.some.inj hp)).1
      · rw [if_neg (by assumption)]
        exact (Prod.ext_iff.mp (Option.some.inj hp)).1
    · cases hr
  have hnamed : namesPending (transferAnswer P config params ch.answer) = true := hallows
  rw [hanswer] at hnamed
  simpa [namesPending, hs] using hnamed

/-- The settlement is asked for when something has been stored. -/
theorem over_queueSettle (h : s.Stored id) :
    Over (followUp P config) q i (perform (.queueAdd (settleJob id)))
      (fun _ u => u.Attended id) s := by
  have demand (t : World) (hr : ((bookkeeping (FollowedUp P config)).discipline P config).Runs s t) :
      t.followUpDemand (.queueAdd (settleJob id)) := by
    refine ⟨⟨id, .inr (.inr rfl)⟩, fun id' hid => ?_⟩
    rw [← show id = id' from congrArg Job.data hid]
    exact h.mono (history_of_runs hr)
  refine .command (fun t _ hr => demand t hr) (fun t r u ht ho _ _ => ?_) fun t u a hp w hw hid _ => ?_
  · obtain ⟨ch, -, he⟩ := ho.exec
    exact ht.2.step ht.1.1 he (demand t ho.runs)
  · have hstored : u.Stored w.id := by
      rw [hid]
      exact h.mono (history_of_runs hp.runs)
    obtain ⟨took, hh⟩ := hp.own.history
    refine (hp.overlay.withdrawals.answered w hw hstored).imp_right
      fun htruthy => ⟨htruthy, ?_, _, _, hh, rfl⟩
    obtain ⟨ch, hallows, he⟩ := hp.own.exec
    have hfree : ¬t.HoldsFailed (settleJob id) := by
      rintro ⟨j, hj, hkey, hfailed⟩
      have hall : (false || t.jobs.all fun j =>
          decide (¬(j.key = (settleJob id).key ∧ j.state = .failed))) = true := hallows
      rw [Bool.false_or] at hall
      exact of_decide_eq_true (List.all_eq_true.mp hall j hj) ⟨hkey, hfailed⟩
    have hjobs : u.jobs = (t.queueAdd (settleJob id)).jobs := by
      rcases exec_eq_some he with ⟨-, -, hr, -⟩ | ⟨r', s', hperform, -, rfl⟩
      · cases hr
      · cases hperform
        rfl
    obtain ⟨j, hj, hholds⟩ :=
      (hp.before.2.queues.holdsJob_queueAdd ⟨id, .inr (.inr rfl)⟩).mpr hfree
    exact ⟨j, hjobs ▸ hj, hholds⟩

/-- What an update writes down. -/
theorem stored_of_update {data : UpdateWithdrawalProviderData} {row : Withdrawal}
    (hdata : data.status ≠ none ∨ data.providerTransferId ≠ none)
    (hp : Over.Passed (followUp P config) q i (.write .pool (.updateWithdrawal id data)) s t
      row u) : u.Stored id := by
  obtain ⟨ch, -, he⟩ := hp.own.exec
  rcases exec_eq_some he with ⟨-, -, hr, -⟩ | ⟨r', s', hperform, hr, rfl⟩
  · cases hr
  · rcases write_eq_some hperform with ⟨-, code, -, rfl⟩ | ⟨row, store, -, -, -, rfl, -⟩
    · rcases hr with hr | ⟨-, -, hr⟩
      · cases hr
      · cases hr
    · exact ⟨_, .head _, data, rfl, rfl, hdata⟩

namespace WithdrawalPayoutService

theorem over_handleResult {result : InitiateBankTransferResult}
    (h : result.status = .pending → truthy result.transferId = true) :
    Over (followUp P config) q i (handleResult w₀ result) (fun _ u => u.Attended w₀.id) s := by
  unfold handleResult
  split
  · exact over_reverseAndFail
  · rename_i hfailed
    cases hs : result.status with
    | failed => exact absurd hs hfailed
    | successful =>
        refine .bind (.plain (fun _ => ⟨nofun, .inr (.inl ⟨.successful, rfl, rfl⟩)⟩)
          fun _ _ _ hp => ?_)
        exact .ret (attended_of_update rfl rfl hp)
    | pending =>
        refine .bind (.plain (fun _ => ⟨nofun, .inr (.inr ⟨_, rfl, h hs⟩)⟩) fun _ _ _ hp => ?_)
        exact .bind ((over_queueSettle (stored_of_update (.inr fun h => by cases h) hp)).mono
          fun _ _ hattended => .ret hattended)

theorem over_processPayout {withdrawalId : String} :
    Over (followUp P config) q i (processPayout withdrawalId)
      (fun _ u => u.Attended withdrawalId) s := by
  refine .bind (.common followUp_common rfl fun t u (found : Option Withdrawal) hp => ?_)
  cases found with
  | none => exact .ret (not_found_of_read hp)
  | some w₀ =>
      have hid : w₀.id = withdrawalId := (find?_withdrawal_id hp.own.select_eq.symm).2
      show Over _ q i (if _ then _ else if _ then _ else _) _ u
      split
      · rename_i hterminal
        exact .ret fun w hw hwid _ => .inl (eq_of_read hp hw hwid ▸ hterminal)
      · split
        · rename_i hwallet
          exact .ret fun w hw hwid hbank => absurd (eq_of_read hp hw hwid ▸ hbank) hwallet
        · refine .bind (.plain (fun _ => trivial) fun _ _ _ hp' => ?_)
          rw [← hid]
          exact over_handleResult (truthy_of_answered hp'.own)

end WithdrawalPayoutService

namespace WithdrawalSettleService

theorem over_handleStatus {status : TransferOutcome} {debitId : String}
    (hdebit : w₀.debitTransactionId = some debitId) (hne : debitId ≠ "") :
    Over (followUp P config) q i (handleStatus w₀ status) (fun _ u => u.Attended w₀.id) s := by
  cases status with
  | successful =>
      refine .bind (.plain (fun _ => ⟨nofun, .inr (.inl ⟨_, rfl, rfl⟩)⟩) fun _ _ _ hp => ?_)
      exact .ret (attended_of_update rfl rfl hp)
  | failed =>
      have htruthy : truthy w₀.debitTransactionId = true := by
        rw [hdebit]
        exact decide_eq_true hne
      show Over _ q i (if _ then _ else _) _ s
      rw [if_pos htruthy]
      exact over_reverseAndFail
  | pending => exact .fail
  | unknown => exact .fail

/-- A settlement that was asked for does not return before the withdrawal is final. -/
theorem over_processSettle {withdrawalId : String} :
    Over (followUp P config) q i (processSettle withdrawalId)
      (fun _ u => u.Asked withdrawalId → u.Attended withdrawalId) s := by
  refine .bind (.common followUp_common rfl fun t u (found : Option Withdrawal) hp => ?_)
  cases found with
  | none => exact .ret fun _ => not_found_of_read hp
  | some w₀ =>
      obtain ⟨hmem, hid⟩ := find?_withdrawal_id hp.own.select_eq.symm
      obtain ⟨debitId, hdebit⟩ := exists_debit hp.before.1.2.2.2.1 hmem
      have hne : debitId ≠ "" := fun h =>
        hp.before.2.withdrawals.debit w₀ hmem (hdebit.trans (congrArg some h))
      show Over _ q i (if _ then _ else _) _ u
      split
      · rename_i hterminal
        exact .ret fun _ w hw hwid _ => .inl (eq_of_read hp hw hwid ▸ hterminal)
      · rename_i hopen
        -- Something has been stored, so there is an id to ask for.
        have hknown (hasked : u.Asked withdrawalId) : truthy w₀.providerTransferId = true := by
          have hw : w₀ ∈ u.db.withdrawals := by
            rw [hp.own.db_quiet rfl]
            exact hmem
          have hstored : u.Stored w₀.id := by
            rw [hid]
            exact hp.overlay.asked _ hasked
          exact (hp.overlay.withdrawals.answered w₀ hw hstored).resolve_left hopen
        split
        · rename_i hnone
          refine .ret fun hasked => ?_
          rw [hnone] at hknown
          cases hknown hasked
        · rename_i transferId hsome
          split
          · rename_i hempty
            refine .ret fun hasked => ?_
            rw [hsome, hempty] at hknown
            cases hknown hasked
          · refine .bind (.plain (fun _ => trivial) fun _ _ _ _ => ?_)
            rw [← hid]
            exact (over_handleStatus hdebit hne).mono fun _ _ h _ => h

end WithdrawalSettleService

/-! ### The certificate -/

theorem plain_of_outside {call : Call} (hrequest : call.isWithdrawalRequest = false)
    (hpayout : call ≠ .withdrawalPayoutWorker) (hsettle : call ≠ .withdrawalSettleWorker) {c : Cmd}
    (hc : call.footprint c) : (followUp P config).Plain c := by
  intro s
  cases c with
  | write client w =>
      cases call with
      | postWithdrawals actor header dto => cases hrequest
      | withdrawalPayoutWorker => exact absurd rfl hpayout
      | withdrawalSettleWorker => exact absurd rfl hsettle
      | _ => cases client <;> cases w <;> first | exact hc.elim | trivial
  | queueAdd job =>
      refine ⟨enqueues_job hc, fun id hid => ?_⟩
      cases call with
      | flutterwaveWebhook verifHash body =>
          obtain ⟨id', hjob⟩ := hc
          cases congrArg Job.queue (hjob.symm.trans hid)
      | postWithdrawals actor header dto => cases hrequest
      | withdrawalPayoutWorker => exact absurd rfl hpayout
      | _ => exact hc.elim
  | _ => trivial

theorem over_api {call : Call} (hcall : call.isApi = true) :
    Over (followUp P config) call i (program P config call) (fun _ _ => True) s := by
  cases hrequest : call.isWithdrawalRequest with
  | true =>
      cases call with
      | postWithdrawals actor header dto =>
          refine .bind (.within within_ofExcept fun key _ _ => ?_)
          exact .map WithdrawalsService.over_create
      | _ => cases hrequest
  | false =>
      by_cases hpayout : call = .withdrawalPayoutWorker
      · subst hpayout
        exact .map (.work followUp_common fun _ _ =>
          WithdrawalPayoutService.over_processPayout.mono fun _ _ _ => trivial)
      · by_cases hsettle : call = .withdrawalSettleWorker
        · subst hsettle
          exact .map (.work followUp_common fun _ _ =>
            WithdrawalSettleService.over_processSettle.mono fun _ _ _ => trivial)
        · exact .within ((program_within hcall).mono fun c hc =>
            plain_of_outside hrequest hpayout hsettle hc) fun _ _ _ => trivial

/-- What an execution leaves behind when it returns. -/
def LeavesAttended (call : Call ⊕ Execution) (s : World) : Prop :=
  match call with
  | .inl _ => True
  | .inr (.processPayout id) => s.Attended id
  | .inr (.processSettle id) => s.Asked id → s.Attended id

variable (P config) in
theorem followUp_certified :
    Certified (executing P config) (followUps P config) World.initial
      ((followUp P config).layered.comap role) (fun call _ _ => LeavesAttended call)
      fun _ _ _ _ => True := by
  refine Overlay.certified (executing_certified (fun _ h => h) fun h => h)
    World.FollowUpOk.initial (fun _ h => h.crash) fun {call i s} ha _ => ?_
  cases call with
  | inl call =>
      exact RelyGuarantee.wp_mono (fun _ _ _ => trivial) (fun _ _ _ => trivial) _ (over_api ha)
  | inr execution =>
      cases execution with
      | processPayout withdrawalId => exact RelyGuarantee.wp_bind WithdrawalPayoutService.over_processPayout
      | processSettle withdrawalId => exact RelyGuarantee.wp_bind WithdrawalSettleService.over_processSettle

/-! ### The result -/

def Execution.withdrawalId : Execution → String
  | processPayout id | processSettle id => id

/-- Settlements are executed for the jobs that ask for them. -/
def Execution.Due (s : World) : Execution → Prop
  | processPayout _ => True
  | processSettle id => s.Asked id

section Result

open Schedule

variable {cfg cfg' : Machine.Config (executing P config)}

/-- The job that a worker was given, as it was added. -/
def Event.taken : Event → Option Job
  | ⟨_, .takeJob _, .ok (job : Job), _⟩ => some job.template
  | _ => none

/-- The settlement that the thread executes has not asked the provider yet: it is
about to read the withdrawal or to ask. One that has come to its end gives its job
back, and one that has stopped is taken for stalled, so that its job is taken again. -/
def yetToAsk (o : Option (Machine.Thread (executing P config))) : Bool :=
  match o with
  | some (.running _ (.op (.select .pool (.withdrawalById _)) _))
  | some (.running _ (.op (.getBankTransferStatus _) _)) => true
  | some (.running _ (.op _ _)) => false
  | _ => true

/-- None of the workers that have been given the settlement has asked and is still at
work. -/
def noneHasAsked (cfg : Machine.Config (executing P config)) (id : String) : Bool :=
  (World.history cfg.state).all fun e =>
    e.taken ≠ some (settleJob id) || yetToAsk (cfg.threads e.pid)

/-- The settlement that the thread is about to ask for. -/
def settlementAsked (o : Option (Machine.Thread (executing P config))) : Option String :=
  match o with
  | some (.running _ (.op (.queueAdd job) _)) =>
      if job.queue = .withdrawalSettle then some job.data else none
  | _ => none

/-- No settlement is asked for while one of the same withdrawal has asked and is still
at work. -/
def asksAnew (cfg : Machine.Config (executing P config)) (i : ℕ) : Bool :=
  (settlementAsked (cfg.threads i)).all fun id => noneHasAsked cfg id

/-- A settlement of the withdrawal waits in the queue, or is with a worker that has not
asked the provider yet. -/
def WillAsk (cfg : Machine.Config (executing P config)) (id : String) : Prop :=
  ∃ j ∈ World.jobs cfg.state, j.template = settleJob id ∧
    (j.state = .waiting ∨ j.state = .active ∧ noneHasAsked cfg id = true)

/-- The withdrawal is final, or the provider knows it under an id that is on record and
a settlement will ask about it. -/
def LookedAfter (cfg : Machine.Config (executing P config)) (id : String) : Prop :=
  ∀ w ∈ (World.db cfg.state).withdrawals, w.id = id → w.destinationType = .bank →
    w.status.terminal = true ∨ truthy w.providerTransferId = true ∧ WillAsk cfg id

/-- A thread that comes to its end does not ask any more. -/
theorem noneHasAsked_next (hn : Machine.next cfg (.step i ch) = some cfg')
    {call : Call ⊕ Execution} {r : Response} (hth : cfg'.threads i = some (.running call (.ret r)))
    (h : noneHasAsked cfg id = true) : noneHasAsked cfg' id = true := by
  obtain ⟨call', c, k, r', t, -, he, rfl⟩ := Machine.next_step_iff.mp hn
  obtain ⟨took, hh⟩ := World.exec_history he
  refine List.all_eq_true.mpr fun e hmem => ?_
  rw [Machine.Config.state_set, hh] at hmem
  by_cases hi : e.pid = i
  · rw [hi, hth]
    exact Bool.or_true _
  rw [Machine.Config.threads_set_of_ne _ _ _ hi]
  rcases List.mem_cons.mp hmem with rfl | hold
  · exact absurd rfl hi
  · exact List.all_eq_true.mp h e hold

instance : DecidablePred (followUps P config).admits :=
  inferInstanceAs (DecidablePred (executions P config).admits)

instance : ∀ call i c ch s, Decidable ((followUps P config).allows call i c ch s) :=
  fun _ _ c ch s => inferInstanceAs (Decidable (followedUp P config c ch s = true))

/-- The execution has returned. -/
def returnedExecution (o : Option (Machine.Thread (executing P config))) : Option Execution :=
  match o with
  | some (.running (.inr execution) (.ret _)) => some execution
  | _ => none

theorem eq_of_returnedExecution {o : Option (Machine.Thread (executing P config))}
    {execution : Execution} (h : returnedExecution o = some execution) :
    ∃ r, o = some (.running (.inr execution) (.ret r)) := by
  unfold returnedExecution at h
  split at h
  · cases h
    exact ⟨_, rfl⟩
  · cases h

/-- Ada withdraws to her bank, and the provider is asked to pay it out; what is left is
to add the settlement. -/
def paidOut (answer : Choice) : List (Machine.Action (executing platform liveConfig)) :=
  (fundedAda ++ payToBank 6 idempotencyKey "uuid" "x1" "r2").map lift ++
    [.spawn 8 (.inr (.processPayout "x1")), .step 8 {}, .step 8 answer, .step 8 {}]

/-- The provider takes the transfer on and does not say under which id. -/
def acceptsNameless : Choice where
  answer := { body := some (.obj [("status", .str "success"), ("data", .obj [("status", .str "NEW")])]) }
  text := "b1"
  accepts := true

end Result

end WalletApi
