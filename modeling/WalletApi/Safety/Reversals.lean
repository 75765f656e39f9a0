import WalletApi.Runs.Failures
import WalletApi.Safety.Completion

/-!
Withdrawals, their debits and their reversals.

Two workers give failed withdrawals back, each by itself and any number of times,
and both put the key of the reversal together from the debit. So there is one
reversal of a debit at most, and whoever posts it finds the debit as it should be.
The status REVERSED is written after the reversal, with its id; it never stands
alone.

To say what a single execution of a handler throws, the API is run together with
handlers that may be started at any time, for any withdrawal.
-/

namespace WalletApi

open Concurrency ReadCommitted World Policy WalletTransactionRepository

variable {P : Platform} {config : Config} {A : Call → ℕ → Cmd → Choice → World → Prop} {q : Call}
  {i : ℕ} {c : Cmd} {ch : Choice} {s t u : World} {d d' : Db} {w w₀ : Withdrawal}
  {r : WalletTransaction} {debitId : String}

/-! ### Executions of the handlers -/

/-- One execution of the handler of a worker. -/
inductive Execution
  | processPayout (withdrawalId : String)
  | processSettle (withdrawalId : String)
  deriving DecidableEq

def Execution.program : Execution → Program Unit
  | processPayout withdrawalId => WithdrawalPayoutService.processPayout withdrawalId
  | processSettle withdrawalId => WithdrawalSettleService.processSettle withdrawalId

variable (P config) in
/-- The API, together with executions of the handlers that anything may start. -/
def executing : Machine where
  sig := signature
  State := World
  Choice := Choice
  Call := Call ⊕ Execution
  Result := Response
  program
    | .inl call => program P config call
    | .inr execution => (fun _ => .done) <$> execution.program
  exec := World.exec P config
  crash := World.crash

/-- The call that an execution is otherwise part of. -/
def role : Call ⊕ Execution → Call
  | .inl call => call
  | .inr (.processPayout _) => .withdrawalPayoutWorker
  | .inr (.processSettle _) => .withdrawalSettleWorker

variable (P config) in
/-- Calls from outside and executions, in any order and with any faults. -/
def executions : Machine.Assumptions (executing P config) where
  admits
    | .inl call => call.isApi = true
    | .inr _ => True
  allows _ _ _ _ _ := True

/-! ### What the reversals rest on -/

/-- The row is a reversal for the withdrawal. -/
def Db.HasReversal (d : Db) (withdrawalId : String) (reversalId : Option String) : Prop :=
  ∃ r ∈ d.walletTransactions, reversalId = some r.id ∧ r.purpose = .reversal ∧
    r.withdrawalId = some withdrawalId

/-- The write has nothing to do with the status REVERSED. -/
def Write.KeepsReversals : Write → Prop
  | createWithdrawal row => row.status ≠ .reversed
  | updateWithdrawal _ data => data.status ≠ some .reversed ∧ data.reversalTransactionId = none
  | _ => True

/-- What a write has to wait for. -/
def Write.reversalDemand (d : Db) : Write → Prop
  | updateWithdrawal id data =>
      (updateWithdrawal id data).KeepsReversals ∨ data.status = some .reversed ∧
        ∃ reversalId, data.reversalTransactionId = some reversalId ∧ d.HasReversal id reversalId
  | w => w.KeepsReversals

/-- A withdrawal that is REVERSED names its reversal. -/
def Db.ReversalsNamed (d : Db) : Prop :=
  ∀ w ∈ d.withdrawals, w.status = .reversed → d.HasReversal w.id w.reversalTransactionId

theorem Db.HasReversal.mono {id : String} {reversalId : Option String}
    (h : d.HasReversal id reversalId) (hg : d.Grows d') : d'.HasReversal id reversalId := by
  obtain ⟨r, hr, hid, hpurpose, hwithdrawal⟩ := h
  obtain ⟨r', hr', hcore⟩ := hg.walletTransactions r hr
  have hid' : r'.core.id = r.core.id := by rw [hcore]
  have hpurpose' : r'.core.purpose = r.core.purpose := by rw [hcore]
  have hwithdrawal' : r'.core.withdrawalId = r.core.withdrawalId := by rw [hcore]
  refine ⟨r', hr', hid.trans (congrArg some hid'.symm), ?_, ?_⟩
  · exact Eq.trans hpurpose' hpurpose
  · exact Eq.trans hwithdrawal' hwithdrawal

theorem Write.reversalDemand_of_keeps {w : Write} (h : w.KeepsReversals) (d : Db) :
    w.reversalDemand d := by
  cases w with
  | updateWithdrawal id data => exact .inl h
  | _ => exact h

/-- One write. -/
theorem Db.ReversalsNamed.apply {w : Write} (h : d.ReversalsNamed) (hd : w.reversalDemand d) :
    (w.apply d).ReversalsNamed := by
  intro x hx hs
  have hg : d.Grows (w.apply d) := .apply w d
  rcases Write.withdrawal_source hx with hold | rfl | ⟨x₀, hx₀, data, rfl, rfl⟩
  · exact (h x hold hs).mono hg
  · exact absurd hs hd
  · rcases hd with ⟨hstatus, hreversal⟩ | ⟨-, reversalId, hreversal, hhas⟩
    · -- Neither the status nor the reversal changes.
      have hs₀ : x₀.status = .reversed := by
        have hs' : data.status.getD x₀.status = .reversed := hs
        cases hdata : data.status with
        | none =>
            rw [hdata] at hs'
            exact hs'
        | some status =>
            rw [hdata] at hs' hstatus
            exact absurd (congrArg some hs') hstatus
      have hsame : (x₀.patch data).reversalTransactionId = x₀.reversalTransactionId := by
        rw [Withdrawal.patch, hreversal]
        rfl
      rw [hsame]
      exact (h x₀ hx₀ hs₀).mono hg
    · have hnew : (x₀.patch data).reversalTransactionId = reversalId := by
        rw [Withdrawal.patch, hreversal]
        rfl
      rw [hnew]
      exact hhas.mono hg

namespace World

structure ReversalsOk (s : World) : Prop where
  staged : s.Staged fun _ w => w.KeepsReversals
  named : s.db.ReversalsNamed

def reversalDemand (s : World) : Cmd → Prop
  | .write .tx w => w.KeepsReversals
  | .write .pool w => w.reversalDemand s.db
  | _ => True

theorem ReversalsOk.initial : World.initial.ReversalsOk where
  staged _ _ hopen := by cases hopen
  named _ hw := absurd hw List.not_mem_nil

theorem ReversalsOk.crash (h : s.ReversalsOk) : (World.crash i s).ReversalsOk :=
  { h with staged := h.staged.crash }

theorem ReversalsOk.step {r : Except Err c.Resp} (h : s.ReversalsOk)
    (he : exec P config i c ch s = some (r, t)) (hd : s.reversalDemand c) : t.ReversalsOk where
  staged := h.staged.exec he (fun _ _ h => h) fun w hw => by
    subst hw
    exact hd
  named := by
    rcases exec_db he with hdb | ⟨w, rfl, hdb, -⟩ | ⟨-, ws, hopen, hdb⟩
    · rw [hdb]
      exact h.named
    · rw [hdb]
      exact h.named.apply hd
    · rw [hdb]
      exact applyAll_keeps (I := Db.ReversalsNamed)
        (fun w d hw hd => hd.apply (Write.reversalDemand_of_keeps hw d))
        (fun w hw => h.staged i ws hopen w hw) h.named

end World

variable (P config A) in
/-- The status REVERSED is never alone, on top of the books. -/
def reversals : Overlay ((bookkeeping A).discipline P config) where
  Inv := World.ReversalsOk
  Demand _ c s := s.reversalDemand c
  Plain c := ∀ s : World, s.reversalDemand c
  meets hc := hc _
  keeps hc hstep _ _ _ h := by
    obtain ⟨ch, -, he⟩ := hstep
    exact h.step he (hc _)

theorem reversals_common (c : Cmd) (hc : c.common = true) : (reversals P config A).Plain c := by
  intro s
  cases c with
  | write client w => cases hc
  | _ => trivial

/-! ### One reversal of a debit -/

/-- The withdrawal that a debit belongs to. -/
theorem withdrawal_of_debit (hu : d.Unique) (hb : d.Books) (hw : w ∈ d.withdrawals)
    (hw₀ : w₀ ∈ d.withdrawals) (hdebit : w.debitTransactionId = some debitId)
    (hdebit₀ : w₀.debitTransactionId = some debitId) : w = w₀ := by
  obtain ⟨r, hr, hid, hmade⟩ := (hb.withdrawal w hw).debit
  obtain ⟨r₀, hr₀, hid₀, hmade₀⟩ := (hb.withdrawal w₀ hw₀).debit
  have hrid : r.id = r₀.id :=
    Option.some.inj ((hid.symm.trans hdebit).trans (hdebit₀.symm.trans hid₀))
  cases hu.row_ext hr hr₀ hrid
  have hwid : r.withdrawalId = some w.id := by rw [hmade]; exact w.debitData_withdrawalId
  have hwid₀ : r.withdrawalId = some w₀.id := by rw [hmade₀]; exact w₀.debitData_withdrawalId
  exact hu.withdrawal_ext hw hw₀ (Option.some.inj (hwid.symm.trans hwid₀))

/-- A row with the key of the reversal of a debit is the reversal. -/
theorem reversal_of_key (hu : d.Unique) (hb : d.Books) (hw : w ∈ d.withdrawals)
    (hdebit : w.debitTransactionId = some debitId) (hr : r ∈ d.walletTransactions)
    (hkey : r.idempotencyKey = "reversal:" ++ debitId) :
    r.purpose = .reversal ∧ r.withdrawalId = some w.id := by
  have different {a y : String} (ha : a ∈ keyStarts) (hne : "reversal:" ≠ a)
      (hra : r.idempotencyKey = a ++ y) : False :=
    ne_of_keyStarts (by decide) ha hne (hkey.symm.trans hra)
  cases hb.origin r hr with
  | funding t ht hmade _ =>
      have hk : r.core.idempotencyKey = t.creditData.idempotencyKey := by rw [hmade]; rfl
      have hk' : r.idempotencyKey = "funding:" ++ (t.userId ++ (":" ++ t.idempotencyKey)) := by
        rw [← String.append_assoc, ← String.append_assoc]
        exact hk
      exact (different (by decide) (by decide) hk').elim
  | debit w' _ hmade =>
      have hk : r.idempotencyKey = w'.debitData.idempotencyKey := by rw [hmade]; rfl
      unfold Withdrawal.debitData at hk
      split at hk
      · rw [String.append_assoc, String.append_assoc] at hk
        exact (different (by decide) (by decide) hk).elim
      · rw [String.append_assoc, String.append_assoc] at hk
        exact (different (by decide) (by decide) hk).elim
  | credit w' _ _ hmade =>
      have hk : r.idempotencyKey =
          "p2p-credit:" ++ w'.userId ++ ":" ++ w'.idempotencyKey := by rw [hmade]; rfl
      rw [String.append_assoc, String.append_assoc] at hk
      exact (different (by decide) (by decide) hk).elim
  | reversal w' hw' _ hmade =>
      have hk : r.idempotencyKey = "reversal:" ++ w'.debitTransactionId.getD "null" := by
        rw [hmade]
        rfl
      obtain ⟨r', -, hid', -⟩ := (hb.withdrawal w' hw').debit
      have hsame : w'.debitTransactionId.getD "null" = debitId :=
        (String.append_right_inj "reversal:").mp (hk.symm.trans hkey)
      have hdebit' : w'.debitTransactionId = some debitId := by
        rw [hid'] at hsame
        rw [hid', ← hsame]
        rfl
      rw [← withdrawal_of_debit hu hb hw' hw hdebit' hdebit]
      exact ⟨by rw [hmade]; rfl, by rw [hmade]; rfl⟩

/-! ### What the handlers throw -/

/-- The errors with which `postReversal` turns a debit down. -/
def reversalChecks : List Err :=
  [customError.badRequest "Original debit transaction not found",
    customError.badRequest "Reversal wallet mismatch",
    customError.badRequest "Reversal amount must match original debit"]

/-- The error is none of them. -/
def Unchecked (e : Err) : Prop := e ∉ reversalChecks

instance (e : Err) : Decidable (Unchecked e) := inferInstanceAs (Decidable (e ∉ reversalChecks))

theorem Unchecked.of_raw {e : Err} (h : e.isApp = false) : Unchecked e := by
  intro he
  cases e with
  | app status message => cases h
  | _ =>
      rcases List.mem_cons.mp he with heq | he
      · cases heq
      · rcases List.mem_cons.mp he with heq | he
        · cases heq
        · cases List.mem_singleton.mp he

/-- The withdrawal that a handler has read, in whatever status. -/
def Db.HasWithdrawal (d : Db) (w₀ : Withdrawal) : Prop :=
  ∃ w ∈ d.withdrawals, w.fixed = w₀.fixed

theorem hasWithdrawal_of_runs (h : s.db.HasWithdrawal w₀)
    (hr : ((bookkeeping A).discipline P config).Runs s t) : t.db.HasWithdrawal w₀ := by
  obtain ⟨w, hw, hfixed⟩ := h
  obtain ⟨w', hw', hfixed'⟩ := (keeps_of_runs hr).withdrawals w hw
  exact ⟨w', hw', hfixed'.trans hfixed⟩

/-- The lookup of the debit finds what has been debited. -/
theorem find_debit (hu : d.Unique) (hb : d.Books) (hw : d.HasWithdrawal w₀)
    (hdebit : w₀.debitTransactionId = some debitId) :
    ∃ original, (Query.walletTransactionById debitId).run d = some original ∧
      original.type = .debit ∧ original.walletId = w₀.walletId ∧ original.amount = w₀.amount := by
  obtain ⟨w, hmem, hfixed⟩ := hw
  obtain ⟨r, hr, hid, hmade⟩ := (hb.withdrawal w hmem).debit
  have hdebit' : w.fixed.debitTransactionId = w₀.fixed.debitTransactionId := by rw [hfixed]
  have hrid : r.id = debitId :=
    Option.some.inj (hid.symm.trans ((show w.debitTransactionId = _ from hdebit').trans hdebit))
  have hfound : ∃ x ∈ d.walletTransactions, decide (x.id = debitId) = true :=
    ⟨r, hr, decide_eq_true hrid⟩
  obtain ⟨original, horiginal⟩ := Option.isSome_iff_exists.mp (List.find?_isSome.mpr hfound)
  have hrow : (Query.walletTransactionById debitId).run d = some original := horiginal
  obtain ⟨hmem', hid'⟩ := find?_row_of_id hrow
  have hsame : original = r := hu.row_ext hmem' hr (hid'.trans hrid.symm)
  rw [Withdrawal.debitData_congr hfixed] at hmade
  refine ⟨original, horiginal, ?_, ?_, ?_⟩
  · rw [hsame, hmade]
    exact w₀.debitData_type
  · rw [hsame, hmade]
    exact w₀.debitData_walletId
  · rw [hsame, hmade]
    exact w₀.debitData_amount

namespace WalletLedgerService

theorem raw_reversalTransaction {input : PostReversalInput} :
    Raw P config (transaction (reversalTransaction input)) := by
  refine .transaction (.bind .lockWalletRow fun _ => .bind (.perform rfl) fun again => ?_)
  cases again with
  | some r => exact .ret
  | none => exact .bind .insert fun _ => .bind (.perform rfl) fun _ => .ret

/-- The transaction of a reversal fails only with what it meets in the database. -/
theorem throws_reversalTransaction {input : PostReversalInput} :
    OverThrows (reversals P config A) q i
      (rethrowWalletMissing input.walletId (transaction (reversalTransaction input)))
      (fun _ u => ((bookkeeping A).discipline P config).Runs s u) Unchecked s := by
  have hwithin : (transaction (reversalTransaction input)).Within (reversals P config A).Plain :=
    within_transaction reversals_common
      (within_reversalTransaction (allowed_of_inner reversals_common) fun _ _ _ => trivial)
  refine .tryCatch (.within (fun _ h => h) hwithin raw_reversalTransaction fun _ _ hr => hr)
    fun e u he => ?_
  show OverThrows _ q i (if _ then _ else _) _ _ u
  split
  · exact .fail (by decide)
  · exact .fail (.of_raw he)

/-- A handler that gives a debit back finds it as its withdrawal says. -/
theorem throws_postReversalCredit (hw : s.db.HasWithdrawal w₀)
    (hdebit : w₀.debitTransactionId = some debitId) :
    OverThrows (reversals P config A) q i
      (postReversalCredit (reversalInput w₀.id w₀.walletId w₀.amount debitId))
      (fun _ u => ((bookkeeping A).discipline P config).Runs s u) Unchecked s := by
  refine .bind (.throwIf (fun _ => by decide) fun _ => ?_)
  refine .bind (.select (fun _ => .of_raw) (reversals_common _ rfl) fun t u hp => ?_)
  have hrest : OverThrows (reversals P config A) q i (do
      let found ← findById .pool debitId
      let original ← orThrow found (customError.badRequest "Original debit transaction not found")
      checkOriginal (reversalInput w₀.id w₀.walletId w₀.amount debitId) original
      rethrowWalletMissing w₀.walletId
        (transaction (reversalTransaction (reversalInput w₀.id w₀.walletId w₀.amount debitId))))
      (fun _ v => ((bookkeeping A).discipline P config).Runs s v) Unchecked u := by
    refine .bind (.select (fun _ => .of_raw) (reversals_common _ rfl) fun t' u' hp' => ?_)
    have ht' := hp'.before.1
    obtain ⟨original, hfound, htype, hwallet, hamount⟩ := find_debit ht'.2.1 ht'.2.2.2.1
      (hasWithdrawal_of_runs hw (hp.runs.trans hp'.own.runs)) hdebit
    have hfound' : (Query.walletTransactionById debitId).run (t'.view i .pool) = some original :=
      hfound
    rw [hfound']
    refine .bind (.ret (.bind ?_))
    refine .bind (.throwIf (fun h => absurd htype h) fun _ => ?_)
    refine .bind (.throwIf (fun h => absurd hwallet h) fun _ => ?_)
    refine .throwIf (fun h => absurd hamount h) fun _ => ?_
    exact throws_reversalTransaction.mono fun _ _ hr => (hp.runs.trans hp'.runs).trans hr
  generalize Query.run (.walletTransactionByIdempotencyKey _) (t.view i .pool) = existing
  cases existing with
  | some r => exact .ret hp.runs
  | none => exact hrest

end WalletLedgerService

/-- The status REVERSED is written with the id of the reversal. -/
theorem throws_reverseAndFail (hw : s.db.HasWithdrawal w₀)
    (hdebit : w₀.debitTransactionId = some debitId) :
    OverThrows (reversals P config A) q i
      (reverseAndFail w₀.id w₀.walletId w₀.amount debitId) (fun _ _ => True) Unchecked s := by
  refine .bind (((WalletLedgerService.throws_postReversalCredit hw hdebit).and_free
    (WalletLedgerService.wp_postReversalCredit (.any fun _ _ => trivial)
      (fun _ _ _ _ _ _ _ _ => ⟨trivial, trivial⟩) fun _ _ hback => hback)).mono ?_)
  rintro r u ⟨hsu, t, -, htu, hr, hkey⟩
  have demand (v : World) (hv : (reversals P config A).layered.Inv v)
      (huv : ((bookkeeping A).discipline P config).Runs u v) :
      v.reversalDemand (.write .pool (.updateWithdrawal w₀.id
        { status := some .reversed
          reversalTransactionId := some (some r.transaction.id) })) := by
    obtain ⟨w, hmem, hfixed⟩ := hasWithdrawal_of_runs hw (hsu.trans huv)
    have hid : w.fixed.id = w₀.fixed.id := by rw [hfixed]
    have hdebit' : w.fixed.debitTransactionId = w₀.fixed.debitTransactionId := by rw [hfixed]
    have hg : t.db.Grows v.db := (grows_of_runs htu).trans (grows_of_runs huv)
    obtain ⟨x, hx, hcore⟩ := hg.walletTransactions r.transaction hr
    have hxid : x.core.id = r.transaction.core.id := by rw [hcore]
    have hxkey : x.core.idempotencyKey = r.transaction.core.idempotencyKey := by rw [hcore]
    have hkey' : x.idempotencyKey = "reversal:" ++ debitId :=
      (show x.idempotencyKey = r.transaction.idempotencyKey from hxkey).trans hkey
    obtain ⟨hpurpose, hwithdrawal⟩ := reversal_of_key hv.1.2.1 hv.1.2.2.2.1 hmem
      ((show w.debitTransactionId = _ from hdebit').trans hdebit) hx hkey'
    refine .inr ⟨rfl, _, rfl, x, hx, congrArg some hxid.symm, hpurpose, ?_⟩
    rw [hwithdrawal]
    exact congrArg some hid
  refine .bind (.command (fun _ => .of_raw) rfl demand (fun v r' v' hv ho _ _ => ?_)
    fun _ _ _ _ => .ret trivial)
  obtain ⟨ch, -, he⟩ := ho.exec
  exact hv.2.step he (demand v hv ho.runs)

/-- What else the workers write to a withdrawal. -/
theorem throws_updateWithdrawal {id : String} {data : UpdateWithdrawalProviderData}
    (hstatus : data.status ≠ some .reversed) (hreversal : data.reversalTransactionId = none) :
    OverThrows (reversals P config A) q i (WithdrawalRepository.update id data)
      (fun _ _ => True) Unchecked s :=
  .plain (fun _ => .of_raw) (fun _ => .inl ⟨hstatus, hreversal⟩) rfl fun _ _ _ _ => trivial

/-- What a withdrawal that a handler has just read tells. -/
theorem exists_debit_of_read {withdrawalId : String}
    (hp : Over.Passed (reversals P config A) q i (.select .pool (.withdrawalById withdrawalId)) s t
      (some w₀) u) :
    u.db.HasWithdrawal w₀ ∧ ∃ debitId, w₀.debitTransactionId = some debitId := by
  have hfound : (Query.withdrawalById withdrawalId).run t.db = some w₀ := hp.own.select_eq.symm
  obtain ⟨hmem, -⟩ := find?_withdrawal_id hfound
  refine ⟨⟨w₀, ?_, rfl⟩, exists_debit hp.before.1.2.2.2.1 hmem⟩
  rw [hp.own.db_quiet rfl]
  exact hmem

namespace WithdrawalPayoutService

theorem throws_handleResult {r : InitiateBankTransferResult} (hw : s.db.HasWithdrawal w₀)
    (hdebit : w₀.debitTransactionId = some debitId) :
    OverThrows (reversals P config A) q i (handleResult w₀ r) (fun _ _ => True) Unchecked s := by
  unfold handleResult
  split
  · rw [hdebit]
    exact throws_reverseAndFail hw hdebit
  · refine .bind ((throws_updateWithdrawal ?_ rfl).mono fun _ u _ => ?_)
    · split
      · nofun
      · nofun
    · show OverThrows _ q i (if _ then _ else _) _ _ u
      split
      · exact .ret trivial
      · exact .bind (.plain (fun _ => .of_raw) (fun _ => trivial) rfl fun _ _ _ _ => .ret trivial)

theorem throws_processPayout {withdrawalId : String} :
    OverThrows (reversals P config A) q i (processPayout withdrawalId) (fun _ _ => True)
      Unchecked s := by
  refine .bind (.plain (fun _ => .of_raw) (reversals_common _ rfl) rfl
    fun t u (found : Option Withdrawal) hp => ?_)
  cases found with
  | none => exact .ret trivial
  | some w₀ =>
      obtain ⟨hw, debitId, hdebit⟩ := exists_debit_of_read hp
      show OverThrows _ q i (if _ then _ else if _ then _ else _) _ _ u
      split
      · exact .ret trivial
      · split
        · exact .ret trivial
        · refine .bind (.plain (fun _ => .of_raw) (fun _ => trivial) rfl
            fun t' u' r hp' => ?_)
          exact throws_handleResult (hasWithdrawal_of_runs hw hp'.runs) hdebit

end WithdrawalPayoutService

namespace WithdrawalSettleService

theorem throws_handleStatus {status : TransferOutcome} (hw : s.db.HasWithdrawal w₀)
    (hdebit : w₀.debitTransactionId = some debitId) :
    OverThrows (reversals P config A) q i (handleStatus w₀ status) (fun _ _ => True)
      Unchecked s := by
  cases status with
  | successful =>
      exact .bind ((throws_updateWithdrawal (by nofun) rfl).mono fun _ _ _ => .ret trivial)
  | failed =>
      show OverThrows _ q i (if _ then _ else _) _ _ s
      split
      · rw [hdebit]
        exact throws_reverseAndFail hw hdebit
      · exact .ret trivial
  | pending => exact .fail (.of_raw rfl)
  | unknown => exact .fail (.of_raw rfl)

theorem throws_processSettle {withdrawalId : String} :
    OverThrows (reversals P config A) q i (processSettle withdrawalId) (fun _ _ => True)
      Unchecked s := by
  refine .bind (.plain (fun _ => .of_raw) (reversals_common _ rfl) rfl
    fun t u (found : Option Withdrawal) hp => ?_)
  cases found with
  | none => exact .ret trivial
  | some w₀ =>
      obtain ⟨hw, debitId, hdebit⟩ := exists_debit_of_read hp
      show OverThrows _ q i (if _ then _ else _) _ _ u
      split
      · exact .ret trivial
      · split
        · exact .ret trivial
        · split
          · exact .ret trivial
          · refine .bind (.plain (fun _ => .of_raw) (fun _ => trivial) rfl
              fun t' u' status hp' => ?_)
            exact throws_handleStatus (hasWithdrawal_of_runs hw hp'.runs) hdebit

end WithdrawalSettleService

/-! ### The certificate -/

theorem plain_of_writes {call : Call} (hcall : call ≠ .withdrawalPayoutWorker)
    (hcall' : call ≠ .withdrawalSettleWorker) {c : Cmd} (hc : call.footprint c) :
    (reversals P config A).Plain c := by
  intro s
  cases c with
  | write client w =>
      cases call with
      | postWithdrawals actor header dto =>
          cases client with
          | pool => cases w <;> first | exact hc.elim | trivial
          | tx =>
              cases w with
              | createWithdrawal row =>
                  obtain ⟨-, -, -, hstatus | hstatus⟩ := hc
                  · exact fun h => by cases hstatus.symm.trans h
                  · exact fun h => by cases hstatus.symm.trans h
              | updateWithdrawal id data => exact ⟨by rw [hc.1]; nofun, hc.2⟩
              | createWalletTransaction row => trivial
              | _ => exact hc.elim
      | withdrawalPayoutWorker => exact absurd rfl hcall
      | withdrawalSettleWorker => exact absurd rfl hcall'
      | _ => cases client <;> cases w <;> first | exact hc.elim | trivial
  | _ => trivial

theorem over_call {call : Call} (hcall : call.isApi = true) :
    Over (reversals P config A) call i (program P config call) (fun _ _ => True) s := by
  by_cases hpayout : call = .withdrawalPayoutWorker
  · subst hpayout
    exact .map (.work reversals_common fun _ _ => WithdrawalPayoutService.throws_processPayout.forget)
  · by_cases hsettle : call = .withdrawalSettleWorker
    · subst hsettle
      exact .map (.work reversals_common fun _ _ =>
        WithdrawalSettleService.throws_processSettle.forget)
    · exact .within ((program_within hcall).mono fun c hc => plain_of_writes hpayout hsettle hc)
        fun _ _ _ => trivial

theorem throws_execution {execution : Execution} :
    OverThrows (reversals P config A) (role (.inr execution)) i execution.program
      (fun _ _ => True) Unchecked s := by
  cases execution with
  | processPayout withdrawalId => exact WithdrawalPayoutService.throws_processPayout
  | processSettle withdrawalId => exact WithdrawalSettleService.throws_processSettle

theorem keepsBooks_execution {execution : Execution} :
    KeepsBooks P config A (role (.inr execution)) i execution.program s := by
  cases execution with
  | processPayout withdrawalId => exact WithdrawalPayoutService.processPayout_keepsBooks
  | processSettle withdrawalId => exact WithdrawalSettleService.processSettle_keepsBooks

/-- What a call or an execution does not throw. -/
def ThrowsUnchecked (call : Call ⊕ Execution) (e : Err) : Prop :=
  match call with
  | .inl _ => True
  | .inr _ => Unchecked e

/-- The executions keep the books as the API does, whatever is assumed of the steps. -/
theorem executing_certified {B : Machine.Assumptions (executing P config)}
    (hadmits : ∀ call, B.admits call → (executions P config).admits call)
    (hallows : ∀ {call i c ch s}, B.allows call i c ch s → A (role call) i c ch s) :
    Certified (executing P config) B World.initial
      (((bookkeeping A).discipline P config).comap role)
      (fun _ _ _ _ => True) fun _ _ _ _ => True where
  initial := (api_certified P config A .true).initial
  covers := fun _ _ ha he => ⟨_, hallows ha, he⟩
  crash := fun _ hs => Policy.crash_step hs
  call {call i s} ha hs := by
    refine (RelyGuarantee.wp_comap _).mpr ?_
    cases call with
    | inl call =>
        have hcall : call.isApi = true := hadmits _ ha
        exact RelyGuarantee.wp_mono (fun _ _ _ => trivial) (fun _ _ _ => trivial) _
          ((api_certified P config A .true).call hcall hs)
    | inr execution => exact RelyGuarantee.wp_bind keepsBooks_execution

theorem reversals_certified :
    Certified (executing P config) (executions P config) World.initial
      ((reversals P config fun _ _ _ _ _ => True).layered.comap role)
      (fun _ _ _ _ => True) fun call _ e _ => ThrowsUnchecked call e := by
  refine Overlay.certified (executing_certified (fun _ h => h) fun _ => trivial)
    World.ReversalsOk.initial (fun _ h => h.crash) fun {call i s} ha _ => ?_
  cases call with
  | inl call =>
      exact RelyGuarantee.wp_mono (fun _ _ h => h) (fun _ _ _ => trivial) _ (over_call ha)
  | inr execution => exact RelyGuarantee.wp_bind throws_execution

/-! ### The result -/

/-- Withdrawals, debits and reversals belong together one to one. -/
structure Db.ReversalsLinked (d : Db) : Prop where
  debit : ∀ w ∈ d.withdrawals, ∃ r ∈ d.walletTransactions, w.debitTransactionId = some r.id ∧
    r.type = .debit ∧ r.status = .successful ∧ r.walletId = w.walletId ∧ r.amount = w.amount
  unshared : ∀ w ∈ d.withdrawals, ∀ w' ∈ d.withdrawals,
    w.debitTransactionId = w'.debitTransactionId → w = w'
  single : ∀ r ∈ d.walletTransactions, r.type = .debit →
    (d.walletTransactions.filter fun r' =>
      r'.purpose = .reversal ∧ r'.reversesTransactionId = some r.id).length ≤ 1
  reversal : ∀ r' ∈ d.walletTransactions, r'.purpose = .reversal →
    ∃ r ∈ d.walletTransactions, r'.reversesTransactionId = some r.id ∧ r.type = .debit ∧
      r.purpose = .bankPayout ∧ r'.walletId = r.walletId ∧ r'.amount = r.amount ∧
      r'.withdrawalId = r.withdrawalId
  reversed : ∀ w ∈ d.withdrawals, w.status = .reversed →
    ∃ r' ∈ d.walletTransactions, r'.purpose = .reversal ∧ w.reversalTransactionId = some r'.id ∧
      r'.reversesTransactionId = w.debitTransactionId
  p2p : ∀ r ∈ d.walletTransactions, r.type = .debit → r.purpose = .p2p →
    ∀ r' ∈ d.walletTransactions, r'.reversesTransactionId ≠ some r.id

/-- Only a reversal reverses something. -/
theorem origin_of_reversal (hb : d.Books) (hr : r ∈ d.walletTransactions)
    (h : r.purpose = .reversal ∨ r.reversesTransactionId.isSome) :
    ∃ w ∈ d.withdrawals, w.destinationType = .bank ∧ r.MadeFrom w.reversalData := by
  cases hb.origin r hr with
  | funding t _ hmade _ =>
      have hpurpose : r.core.purpose = .flutterwaveFunding := by rw [hmade]; rfl
      have hreverses : r.core.reversesTransactionId = none := by rw [hmade]; rfl
      rcases h with h | h
      · cases h.symm.trans (show r.purpose = _ from hpurpose)
      · rw [show r.reversesTransactionId = none from hreverses] at h
        cases h
  | debit w _ hmade =>
      have hdata : w.debitData.purpose ≠ .reversal ∧ w.debitData.reversesTransactionId = none := by
        unfold Withdrawal.debitData
        split
        · exact ⟨nofun, rfl⟩
        · exact ⟨nofun, rfl⟩
      rcases h with h | h
      · rw [hmade] at h
        exact absurd h hdata.1
      · have hreverses : r.reversesTransactionId = none := by
          rw [hmade]
          exact hdata.2
        rw [hreverses] at h
        cases h
  | credit w _ _ hmade =>
      rcases h with h | h
      · rw [hmade] at h
        cases h
      · rw [hmade] at h
        cases h
  | reversal w hw hd hmade => exact ⟨w, hw, hd, hmade⟩

/-- The debit of a withdrawal to a bank, from the side of the reversal. -/
theorem debit_of_reversal (hb : d.Books) (hw : w ∈ d.withdrawals) (hd : w.destinationType = .bank)
    (hmade : r.MadeFrom w.reversalData) :
    ∃ debit ∈ d.walletTransactions, w.debitTransactionId = some debit.id ∧
      r.reversesTransactionId = some debit.id ∧ debit.type = .debit ∧
      debit.purpose = .bankPayout ∧ r.walletId = debit.walletId ∧ r.amount = debit.amount ∧
      r.withdrawalId = debit.withdrawalId := by
  obtain ⟨debit, hdebit, hid, hmade'⟩ := (hb.withdrawal w hw).debit
  have hdata : w.debitData.purpose = .bankPayout := by
    unfold Withdrawal.debitData
    rw [hd]
  refine ⟨debit, hdebit, hid, ?_, ?_, ?_, ?_, ?_, ?_⟩
  · rw [hmade]
    show some (w.debitTransactionId.getD "null") = some debit.id
    rw [hid]
    rfl
  · rw [hmade']
    exact w.debitData_type
  · rw [hmade']
    exact hdata
  · rw [hmade, hmade']
    exact w.debitData_walletId.symm
  · rw [hmade, hmade']
    exact w.debitData_amount.symm
  · rw [hmade, hmade']
    exact w.debitData_withdrawalId.symm

/-- Two reversals of one debit have the same key. -/
theorem reversal_unique (hu : d.Unique) (hb : d.Books) {r r' : WalletTransaction}
    (hr : r ∈ d.walletTransactions) (hr' : r' ∈ d.walletTransactions)
    (hpurpose : r.purpose = .reversal) (hpurpose' : r'.purpose = .reversal)
    (hsame : r.reversesTransactionId = r'.reversesTransactionId) : r = r' := by
  obtain ⟨w, -, -, hmade⟩ := origin_of_reversal hb hr (.inl hpurpose)
  obtain ⟨w', -, -, hmade'⟩ := origin_of_reversal hb hr' (.inl hpurpose')
  have hdebit : w.debitTransactionId.getD "null" = w'.debitTransactionId.getD "null" := by
    rw [hmade, hmade'] at hsame
    exact Option.some.inj hsame
  refine hu.row_of_idempotencyKey hr hr' ?_
  rw [hmade, hmade']
  exact congrArg ("reversal:" ++ ·) hdebit

theorem reversalsLinked (hu : d.Unique) (hb : d.Books) (hnamed : d.ReversalsNamed) :
    d.ReversalsLinked where
  debit w hw := by
    obtain ⟨r, hr, hid, hmade⟩ := (hb.withdrawal w hw).debit
    refine ⟨r, hr, hid, ?_, hmade.status.trans w.debitData_status, ?_, ?_⟩
    · rw [hmade]
      exact w.debitData_type
    · rw [hmade]
      exact w.debitData_walletId
    · rw [hmade]
      exact w.debitData_amount
  unshared w hw w' hw' hsame := by
    obtain ⟨r, -, hdebit, -⟩ := (hb.withdrawal w hw).debit
    exact withdrawal_of_debit hu hb hw hw' hdebit (hsame ▸ hdebit)
  single r _ _ := by
    have hone : ∀ x ∈ d.walletTransactions, ∀ y ∈ d.walletTransactions,
        (x.purpose = .reversal ∧ x.reversesTransactionId = some r.id) →
        (y.purpose = .reversal ∧ y.reversesTransactionId = some r.id) → x = y :=
      fun x hx y hy hpx hpy => reversal_unique hu hb hx hy hpx.1 hpy.1 (hpx.2.trans hpy.2.symm)
    rcases filter_eq_nil_or_singleton (.of_map _ hu.rowIds_nodup) hone
      with hnone | ⟨x, -, -, hone⟩
    · exact (congrArg List.length hnone).trans_le (Nat.zero_le 1)
    · exact (congrArg List.length hone).le
  reversal r' hr' hpurpose := by
    obtain ⟨w, hw, hd, hmade⟩ := origin_of_reversal hb hr' (.inl hpurpose)
    obtain ⟨r, hr, -, hrest⟩ := debit_of_reversal hb hw hd hmade
    exact ⟨r, hr, hrest⟩
  reversed w hw hs := by
    obtain ⟨r', hr', hid, hpurpose, hwithdrawal⟩ := hnamed w hw hs
    obtain ⟨w', hw', hd, hmade⟩ := origin_of_reversal hb hr' (.inl hpurpose)
    have hwid : r'.withdrawalId = some w'.id := by rw [hmade]; rfl
    have hsame : w = w' :=
      hu.withdrawal_ext hw hw' (Option.some.inj (hwithdrawal.symm.trans hwid))
    obtain ⟨r, -, hdebit, hreverses, -⟩ := debit_of_reversal hb hw' hd hmade
    exact ⟨r', hr', hpurpose, hid, by rw [hsame, hreverses, hdebit]⟩
  p2p r hr _ hp2p r' hr' hreverses := by
    obtain ⟨w, hw, hd, hmade⟩ := origin_of_reversal hb hr' (.inr (by rw [hreverses]; rfl))
    obtain ⟨x, hx, -, hreverses', -, hbank, -⟩ := debit_of_reversal hb hw hd hmade
    have hid : x.id = r.id := Option.some.inj (hreverses'.symm.trans hreverses)
    rw [hu.row_ext hx hr hid] at hbank
    cases hbank.symm.trans hp2p

section Result

open Schedule

variable {cfg : Machine.Config (executing P config)}

/-- In every state that requests, workers and executions of the handlers reach,
withdrawals, debits and reversals belong together one to one; and no execution
fails with one of the errors that turn a reversal down. -/
theorem reversals_linked (h : Machine.Reachable (executions P config) World.initial cfg) :
    cfg.state.db.ReversalsLinked ∧
    ∀ i execution e, cfg.threads i = some (.running (.inr execution) (.fail e)) →
      e ∉ reversalChecks := by
  have hinv : ((bookkeeping _).discipline P config).Inv cfg.state ∧ World.ReversalsOk cfg.state :=
    reversals_certified.inv h
  refine ⟨reversalsLinked hinv.1.2.1 hinv.1.2.2.2.1 hinv.2.named, fun i execution e hth => ?_⟩
  obtain ⟨-, -, -, hunchecked⟩ := reversals_certified.failed h hth
  exact hunchecked

/-- A call of the API as a part of the larger machine. -/
def lift : Machine.Action (walletApi P config) → Machine.Action (executing P config)
  | .spawn i call => .spawn i (.inl call)
  | .step i ch => .step i ch
  | .crash i => .crash i

/-- Ada withdraws twice, and the provider takes both transfers on. -/
def bothAccepted : List (Machine.Action (walletApi platform liveConfig)) :=
  fundedAda ++ payToBank 6 idempotencyKey "uuid" "x1" "r2" ++
    payToBank 7 secondKey "uuid'" "x2" "r3" ++ payout 8 "x1" (accepts "b1") ++
    payout 9 "x2" (accepts "b2")

/-- The first transfer has failed and is reversed; the second is still on its way. -/
def settledBySelf : List (Machine.Action (executing platform liveConfig)) :=
  [.spawn 10 (.inr (.processSettle "x1")), .step 10 {}, .step 10 (reports "FAILED")] ++
    List.replicate 5 (.step 10 {}) ++ [.step 10 { text := "r4" }] ++
    List.replicate 4 (.step 10 {}) ++
    [.spawn 11 (.inr (.processSettle "x2")), .step 11 {}, .step 11 (reports "PENDING")]

instance : DecidablePred (executions P config).admits
  | .inl call => inferInstanceAs (Decidable (call.isApi = true))
  | .inr _ => .isTrue trivial

instance : ∀ call i c ch s, Decidable ((executions P config).allows call i c ch s) :=
  fun _ _ _ _ _ => .isTrue trivial

/-- The execution has failed. -/
def failedExecution (o : Option (Machine.Thread (executing P config))) : Option (Execution × Err) :=
  match o with
  | some (.running (.inr execution) (.fail e)) => some (execution, e)
  | _ => none

theorem eq_of_failedExecution {o : Option (Machine.Thread (executing P config))}
    {execution : Execution} {e : Err} (h : failedExecution o = some (execution, e)) :
    o = some (.running (.inr execution) (.fail e)) := by
  unfold failedExecution at h
  split at h
  · cases h
    rfl
  · cases h

theorem reversals_linked_schedule :
    ∃ cfg, Machine.replayUnder (executions platform liveConfig) (.initial World.initial)
        (bothAccepted.map lift ++ settledBySelf) = some cfg ∧
      (∃ w ∈ cfg.state.db.withdrawals, w.status = .reversed ∧
        ∃ r' ∈ cfg.state.db.walletTransactions, w.reversalTransactionId = some r'.id ∧
          r'.reversesTransactionId = w.debitTransactionId) ∧
      ∃ e, failedExecution (cfg.threads 11) = some (.processSettle "x2", e) ∧
        e ∉ reversalChecks := by
  have hrun : (Machine.replayUnder (executions platform liveConfig) (.initial World.initial)
      (bothAccepted.map lift ++ settledBySelf)).any
        fun cfg : Machine.Config (executing platform liveConfig) =>
        (∃ w ∈ cfg.state.db.withdrawals, w.status = .reversed) ∧
          failedExecution (cfg.threads 11) =
            some (.processSettle "x2", .error "Bank transfer still pending: x2") := by
    decide +kernel
  obtain ⟨cfg, hcfg, hvalues⟩ := (Option.any_eq_true ..).mp hrun
  obtain ⟨⟨w, hw, hs⟩, hfailed⟩ := of_decide_eq_true hvalues
  obtain ⟨hlinked, hunchecked⟩ := reversals_linked (.replayUnder hcfg)
  obtain ⟨r', hr', -, hid, hreverses⟩ := hlinked.reversed w hw hs
  exact ⟨cfg, hcfg, ⟨w, hw, hs, r', hr', hid, hreverses⟩, _, hfailed,
    hunchecked 11 _ _ (eq_of_failedExecution hfailed)⟩

end Result

end WalletApi
