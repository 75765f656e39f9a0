import WalletApi.Runs.AuthOperations
import WalletApi.Runs.Certificate
import WalletApi.Runs.Commits

/-!
Inserting under a key, by several calls at once.

Three operations of the ledger services insert a row under an idempotency key:
`postPending`, `postSuccessful` of the debits, and `postReversal`. All their calls
with one key leave one row behind and hand that row back, whatever they overlap
with, and only the call that has committed it says that it created it.

A call that has passed the first lookup looks the key up again once it holds the
lock of the wallet. If it finds nothing, nobody else can insert the key before
the lock is released, since a key is used with one wallet only. So the insert
never violates a unique index.
-/

namespace WalletApi

open Concurrency ReadCommitted World Policy WithdrawalRepository WalletLedgerService Schedule
open WalletTransactionRepository (CreateWalletTransactionData)

variable {P : Platform} {config : Config} {walletOf : String → String} {q : Call} {i : ℕ}
  {s t u : World} {A : Machine.Assumptions (walletApi P config)}

/-! ### The calls -/

/-- The row that the call inserts under a key. -/
def Call.inserted : Call → Option CreateWalletTransactionData
  | postCreditPending input => some input.data
  | postDebitSuccessful input => some input.data
  | postReversalCredit input => some input.data
  | _ => none

/-- An operation on the journal that uses each of its keys with the wallet that
the key belongs to. -/
def Call.keyed (walletOf : String → String) : Call → Bool
  | executeP2p data =>
      walletOf (data.debit "").idempotencyKey = data.senderWalletId &&
        walletOf (data.credit "").idempotencyKey = data.destinationWalletId
  | executeBankAccept data => walletOf (data.debit "").idempotencyKey = data.walletId
  | postCreditPending input => walletOf input.idempotencyKey = input.walletId
  | postDebitSuccessful input => walletOf input.idempotencyKey = input.walletId
  | postReversalCredit input => walletOf input.idempotencyKey = input.walletId
  | register _ | completeCreditSuccessful _ => true
  | _ => false

/-- The id that `cuid()` has generated for a new row of the journal is not in use. -/
def unusedId : Cmd → World → Bool
  | .write .tx (.createWalletTransaction row), s =>
      s.db.walletTransactions.all fun r => r.id ≠ row.id
  | _, _ => true

variable (P config walletOf) in
/-- The operations on the journal, and the registrations that create the wallets. -/
def insertions : Machine.Assumptions (walletApi P config) :=
  ⟨fun call => call.keyed walletOf, fun _ _ c _ s => unusedId c s⟩

instance : DecidablePred (insertions P config walletOf).admits :=
  fun call => inferInstanceAs (Decidable (call.keyed walletOf = true))

instance : ∀ call i c ch s, Decidable ((insertions P config walletOf).allows call i c ch s) :=
  fun _ _ c _ s => inferInstanceAs (Decidable (unusedId c s = true))

/-! ### The policy -/

variable (walletOf) in
/-- Every row is of the wallet that its key belongs to; a row that does not wait
is never changed. -/
def keyed : Policy where
  Inv s := ∀ r ∈ s.db.walletTransactions, r.walletId = walletOf r.idempotencyKey
  Guar _ s t := ∀ r ∈ s.db.walletTransactions, r.status ≠ .pending → r ∈ t.db.walletTransactions
  Allows _ _ c _ s := unusedId c s
  quiet hq h := by
    rw [hq.db]
    exact ⟨h, fun _ hr _ => hr⟩

/-- New rows under their own keys. -/
theorem keyed_append {rows : List WalletTransaction} (ht : (keyed walletOf).Inv t)
    (hdb : u.db.walletTransactions = t.db.walletTransactions ++ rows)
    (hrows : ∀ r ∈ rows, r.walletId = walletOf r.idempotencyKey) :
    (keyed walletOf).Inv u ∧ (keyed walletOf).Guar i t u := by
  refine ⟨fun r hr => ?_, fun r hr _ => ?_⟩
  · rw [hdb] at hr
    rcases List.mem_append.mp hr with hold | hnew
    · exact ht r hold
    · exact hrows r hnew
  · rw [hdb]
    exact List.mem_append_left _ hr

theorem keyed_congr (ht : (keyed walletOf).Inv t)
    (hdb : u.db.walletTransactions = t.db.walletTransactions) :
    (keyed walletOf).Inv u ∧ (keyed walletOf).Guar i t u := by
  rw [← List.append_nil t.db.walletTransactions] at hdb
  exact keyed_append ht hdb fun r hr => absurd hr List.not_mem_nil

/-- No row of the wallet has the key. -/
def KeyFree (data : CreateWalletTransactionData) (s : World) : Prop :=
  ∀ r ∈ s.db.journalOf data.walletId, r.idempotencyKey ≠ data.idempotencyKey

/-- The row of an operation that has found its key free does not violate an index. -/
theorem KeyFree.not_conflict {data : CreateWalletTransactionData} {id : String} {createdAt : ℕ}
    (hkey : walletOf data.idempotencyKey = data.walletId)
    (hinv : ((keyed walletOf).discipline P config).Inv t) (hfree : KeyFree data t)
    (hopen : t.store.opened i = some [])
    (hid : unusedId (.write .tx (.createWalletTransaction (data.row id createdAt))) t = true) :
    t.stage i (.createWalletTransaction (data.row id createdAt)) .tx ≠ .conflict := by
  intro hconflict
  obtain ⟨k, hk, hused | hclaim⟩ := Store.stage_eq_conflict hconflict
  · rcases List.mem_cons.mp hk with rfl | hk
    · obtain ⟨r, hr, hrid⟩ := mem_keys_walletTransactionId.mp hused
      have hne := List.all_eq_true.mp hid r hr
      exact of_decide_eq_true hne hrid
    · cases List.mem_singleton.mp hk
      obtain ⟨r, hr, hrkey⟩ := mem_keys_walletTransactionIdempotencyKey.mp hused
      -- A row with the key would be of the wallet.
      have hwallet : r.walletId = walletOf r.idempotencyKey := hinv.2.2 r hr
      refine hfree r (List.mem_filter.mpr ⟨hr, decide_eq_true ?_⟩) hrkey
      rw [hwallet, hrkey]
      exact hkey
  · obtain ⟨ws, hopen', w, hw, -⟩ := hinv.1.claimed.mp hclaim
    rw [hopen] at hopen'
    cases hopen'
    exact absurd hw List.not_mem_nil

theorem keyed_throws {data : CreateWalletTransactionData}
    (hkey : walletOf data.idempotencyKey = data.walletId) :
    Throws P config (keyed walletOf) q i data (KeyFree data)
      fun e _ => e ≠ .prisma .uniqueConstraint where
  prot := .journal (.head _) fun rows => ∀ r ∈ rows, r.idempotencyKey ≠ data.idempotencyKey
  free t _ h r hr := h r (List.mem_of_mem_filter hr)
  rejected stamp s t code u hr _ := by
    rintro ⟨⟩
    obtain ⟨ch, hid, -⟩ := hr.own.exec
    exact KeyFree.not_conflict hkey hr.own.inv hr.before.fact hr.before.opened hid hr.reason
  other e he _ := he _

/-! ### The operations keep the policy -/

section Operations

variable (P config walletOf) in
/-- What a call that inserts under the key hands back. -/
def HandsRowBack (key : String) (response : Response) (u : World) : Prop :=
  ∃ s r, response = .ledger r ∧ HandsBack P config (keyed walletOf) s key r u

theorem postCreditPending_keyed {input : PostCreditPendingInput}
    (hkey : walletOf input.idempotencyKey = input.walletId) :
    ((keyed walletOf).discipline P config).wp q i (postCreditPending input)
      (fun r => HandsRowBack P config walletOf input.idempotencyKey (.ledger r))
      (fun e _ => e ≠ .prisma .uniqueConstraint) s := by
  refine wp_postCreditPending (keyed_throws hkey) ?_ fun r u h => ⟨s, r, rfl, h⟩
  intro t u stamp _ hc _
  have hrows : u.db.walletTransactions = t.db.walletTransactions ++
      [input.data.row stamp.1 stamp.2] := by rw [hc.db]; rfl
  refine keyed_append hc.inv.2.2 hrows fun r hr => ?_
  rw [List.mem_singleton.mp hr]
  exact hkey.symm

theorem postDebitSuccessful_keyed {input : PostDebitInput}
    (hkey : walletOf input.idempotencyKey = input.walletId) :
    ((keyed walletOf).discipline P config).wp q i (postDebitSuccessful input)
      (fun r => HandsRowBack P config walletOf input.idempotencyKey (.ledger r))
      (fun e _ => e ≠ .prisma .uniqueConstraint) s := by
  refine wp_postDebitSuccessful (keyed_throws hkey) ?_ fun r u h => ⟨s, r, rfl, h⟩
  intro t u stamp _ hc _ _
  have hrows : u.db.walletTransactions = t.db.walletTransactions ++
      [input.data.row stamp.1 stamp.2] := by rw [hc.db]; rfl
  refine keyed_append hc.inv.2.2 hrows fun r hr => ?_
  rw [List.mem_singleton.mp hr]
  exact hkey.symm

theorem postReversalCredit_keyed {input : PostReversalInput}
    (hkey : walletOf input.idempotencyKey = input.walletId) :
    ((keyed walletOf).discipline P config).wp q i (postReversalCredit input)
      (fun r => HandsRowBack P config walletOf input.idempotencyKey (.ledger r))
      (fun e _ => e ≠ .prisma .uniqueConstraint) s := by
  refine wp_postReversalCredit (keyed_throws hkey) ?_ fun r u h => ⟨s, r, rfl, h⟩
  intro t u stamp _ _ hc _ _
  have hrows : u.db.walletTransactions = t.db.walletTransactions ++
      [input.data.row stamp.1 stamp.2] := by rw [hc.db]; rfl
  refine keyed_append hc.inv.2.2 hrows fun r hr => ?_
  rw [List.mem_singleton.mp hr]
  exact hkey.symm

theorem executeP2p_keyed {data : ExecuteP2pWithdrawalData}
    (hdebit : walletOf (data.debit "").idempotencyKey = data.senderWalletId)
    (hcredit : walletOf (data.credit "").idempotencyKey = data.destinationWalletId) :
    ((keyed walletOf).discipline P config).wp q i (executeP2p data) (fun _ _ => True)
      (fun _ _ => True) s := by
  refine wp_executeP2p (fun _ => True) (fun _ _ _ => trivial) .true (fun _ _ _ _ => trivial)
    ?_ (fun _ _ _ => trivial) fun _ _ _ _ _ _ _ _ => trivial
  intro t u a b c _ hc _ _ _
  have hdb := data.db_of_commits hc
  have hrows : u.db.walletTransactions = t.db.walletTransactions ++
      [(data.debit a.1).row b.1 b.2, (data.credit a.1).row c.1 c.2] := by rw [hdb]
  refine keyed_append hc.inv.2.2 hrows fun r hr => ?_
  rcases List.mem_cons.mp hr with rfl | hr
  · exact hdebit.symm
  · rw [List.mem_singleton.mp hr]
    exact hcredit.symm

theorem executeBankAccept_keyed {data : ExecuteBankWithdrawalData}
    (hdebit : walletOf (data.debit "").idempotencyKey = data.walletId) :
    ((keyed walletOf).discipline P config).wp q i (executeBankAccept data) (fun _ _ => True)
      (fun _ _ => True) s := by
  refine wp_executeBankAccept (fun _ => True) (fun _ _ _ => trivial) .true
    (fun _ _ _ _ => trivial) ?_ (fun _ _ _ => trivial) fun _ _ _ _ _ _ _ => trivial
  intro t u a b _ hc _ _ _
  have hdb := data.db_of_commits hc
  have hrows : u.db.walletTransactions = t.db.walletTransactions ++
      [(data.debit a.1).row b.1 b.2] := by rw [hdb]
  refine keyed_append hc.inv.2.2 hrows fun r hr => ?_
  rw [List.mem_singleton.mp hr]
  exact hdebit.symm

theorem completeCreditSuccessful_keyed {input : CompleteCreditInput} :
    ((keyed walletOf).discipline P config).wp q i (completeCreditSuccessful input)
      (fun _ _ => True) (fun _ _ => True) s := by
  refine wp_completeCreditSuccessful (fun _ _ => trivial) ?_ fun _ _ _ => trivial
  intro t u r _ hc hr _ _ hpending
  have hdb : u.db.walletTransactions = t.db.walletTransactions.map fun x =>
      if x.id = r.id then { x with status := .successful } else x := by rw [hc.db]; rfl
  have hinv : (keyed walletOf).Inv t := hc.inv.2.2
  refine ⟨fun x hx => ?_, fun x hx hstatus => ?_⟩
  · rw [hdb] at hx
    obtain ⟨y, hy, rfl⟩ := List.mem_map.mp hx
    split
    · exact hinv y hy
    · exact hinv y hy
  · -- The row that is updated was waiting.
    rw [hdb]
    refine List.mem_map.mpr ⟨x, hx, if_neg fun hid => hstatus ?_⟩
    rw [hc.inv.2.1.row_ext hx hr hid]
    exact hpending

theorem register_keyed {dto : RegisterDto} :
    ((keyed walletOf).discipline P config).wp q i (AuthService.register P dto) (fun _ _ => True)
      (fun _ _ => True) s := by
  refine AuthService.wp_register ⟨fun hw _ => ?_, fun hw => ?_⟩ (fun _ _ => trivial)
    fun _ _ => trivial
  · exact keyed_congr hw.inv.2.2 (by rw [hw.db]; rfl)
  · exact keyed_congr hw.inv.2.2 (by rw [hw.db]; rfl)

end Operations

namespace Insertions

theorem certified :
    Certified (walletApi P config) (insertions P config walletOf) World.initial
      ((keyed walletOf).discipline P config)
      (fun call _ response u => ∀ data, call.inserted = some data →
        HandsRowBack P config walletOf data.idempotencyKey response u)
      (fun call _ e _ => ∀ data, call.inserted = some data → e ≠ .prisma .uniqueConstraint) := by
  have hinitial : (keyed walletOf).Inv World.initial := fun _ hr => absurd hr List.not_mem_nil
  refine Policy.certified hinitial (fun _ _ _ _ _ h => h) ?_
  intro call i s hcall
  -- A call that inserts nothing under a key has nothing to show for it.
  have plain {α : Type} {f : α → Response} {p : Program α} (hnone : call.inserted = none)
      (h : ((keyed walletOf).discipline P config).wp call i p (fun _ _ => True)
        (fun _ _ => True) s) :
      ((keyed walletOf).discipline P config).wp call i (f <$> p)
        (fun response u => ∀ data, call.inserted = some data →
          HandsRowBack P config walletOf data.idempotencyKey response u)
        (fun e _ => ∀ data, call.inserted = some data → e ≠ .prisma .uniqueConstraint) s := by
    refine wp_map (RelyGuarantee.wp_mono (fun _ _ _ data hdata => ?_) (fun _ _ _ data hdata => ?_)
      _ h)
    · rw [hnone] at hdata
      cases hdata
    · rw [hnone] at hdata
      cases hdata
  have insert {data : CreateWalletTransactionData} {p : Program LedgerWriteResult}
      (hsome : call.inserted = some data)
      (h : ((keyed walletOf).discipline P config).wp call i p
        (fun r => HandsRowBack P config walletOf data.idempotencyKey (.ledger r))
        (fun e _ => e ≠ .prisma .uniqueConstraint) s) :
      ((keyed walletOf).discipline P config).wp call i (.ledger <$> p)
        (fun response u => ∀ data, call.inserted = some data →
          HandsRowBack P config walletOf data.idempotencyKey response u)
        (fun e _ => ∀ data, call.inserted = some data → e ≠ .prisma .uniqueConstraint) s := by
    refine wp_map (RelyGuarantee.wp_mono (fun _ _ h data' hdata => ?_) (fun _ _ h _ _ => h) _ h)
    rw [hsome] at hdata
    cases hdata
    exact h
  cases call with
  | register dto => exact plain rfl register_keyed
  | executeP2p data =>
      obtain ⟨hdebit, hcredit⟩ := Bool.and_eq_true_iff.mp hcall
      exact plain rfl (executeP2p_keyed (of_decide_eq_true hdebit) (of_decide_eq_true hcredit))
  | executeBankAccept data => exact plain rfl (executeBankAccept_keyed (of_decide_eq_true hcall))
  | completeCreditSuccessful input => exact plain rfl completeCreditSuccessful_keyed
  | postCreditPending input =>
      exact insert rfl (postCreditPending_keyed (of_decide_eq_true hcall))
  | postDebitSuccessful input =>
      exact insert rfl (postDebitSuccessful_keyed (of_decide_eq_true hcall))
  | postReversalCredit input =>
      exact insert rfl (postReversalCredit_keyed (of_decide_eq_true hcall))
  | _ => cases hcall

/-! ### The call that has created the row -/

/-- A call that says it has created a row has committed one under its key. -/
def Creates (key : String) (r : LedgerWriteResult) (tr : Trace) : Prop :=
  r.created = true → key ∈ keysCommitted tr

abbrev alone (A : Machine.Assumptions (walletApi P config)) {α : Type} (q : Call) (i : ℕ)
    (p : Program α) (Q : α → Trace → Prop) (tr : Trace) : Prop :=
  Alone P config A (fun _ _ => True) q i p Q tr

variable {key : String} {tr : Trace}

theorem alone_lockWalletRow {walletId : String} {Q : Unit → Trace → Prop} (h : ∀ tr, Q () tr) :
    alone A q i (lockWalletRow walletId) Q tr := by
  refine .bind (.command trivial fun _ _ _ (locked : Bool) _ _ => ?_)
  exact .throwIf fun _ => h _

/-- Reading a balance writes nothing. -/
theorem alone_balance {walletId : String} {Q : ℤ → Trace → Prop}
    (h : ∀ (b : ℤ) tr', keysWritten tr' = keysWritten tr → Q b tr') :
    alone A q i (selectSuccessfulBalance .tx walletId) Q tr :=
  .select trivial fun _ => h _ _ rfl

theorem alone_insert {data : CreateWalletTransactionData} {Q : WalletTransaction → Trace → Prop}
    (h : ∀ r tr, data.idempotencyKey ∈ keysWritten tr → Q r tr) :
    alone A q i (WalletTransactionRepository.insert data) Q tr :=
  .bind (.command trivial fun _ _ _ _ _ _ => .command trivial fun _ _ _ r _ _ =>
    h r _ (.head _))

/-- The two lookups of an operation that inserts under a key, around what it does
under the lock. -/
theorem alone_existing {rest : Program LedgerWriteResult}
    (h : ∀ tr, alone A q i rest (Creates key) tr) :
    alone A q i
      (do
        let existing ← WalletTransactionRepository.findByIdempotencyKey .pool key
        match existing with
        | some transaction => return { transaction, created := false }
        | none => rest) (Creates key) tr := by
  refine .bind (.select trivial fun d => ?_)
  cases Query.run _ d with
  | some r => exact .ret fun hcreated => by cases hcreated
  | none => exact h _

theorem alone_keyed {walletId : String} {rest : Program LedgerWriteResult}
    (h : ∀ tr, alone A q i rest (fun _ tr => key ∈ keysWritten tr) tr) :
    alone A q i
      (transaction do
        lockWalletRow walletId
        let again ← WalletTransactionRepository.findByIdempotencyKey .tx key
        match again with
        | some transaction => return { transaction, created := false }
        | none => rest) (Creates key) tr := by
  refine .transaction (fun _ _ _ => trivial) fun _ => .bind (alone_lockWalletRow fun _ => ?_)
  refine .bind (.select trivial fun d => ?_)
  cases Query.run _ d with
  | some r => exact .ret (.command trivial fun _ _ _ _ _ _ => fun hcreated => by cases hcreated)
  | none =>
      refine (h _).mono fun r tr hwritten => .command trivial fun _ _ _ _ _ _ => fun _ => ?_
      exact List.mem_append_left _ hwritten

theorem alone_rethrowWalletMissing {walletId : String} {p : Program LedgerWriteResult}
    (h : alone A q i p (Creates key) tr) :
    alone A q i (WalletLedgerService.rethrowWalletMissing walletId p) (Creates key) tr := by
  refine .tryCatch h fun e tr => ?_
  split
  · exact .fail
  · exact .fail

theorem postCreditPending_creates {input : PostCreditPendingInput} :
    alone A q i (postCreditPending input) (Creates input.idempotencyKey) tr := by
  refine .bind (.throwIf fun _ => alone_existing fun tr => alone_keyed fun tr => ?_)
  exact .bind (alone_insert fun r tr hwritten => .ret hwritten)

theorem postDebitSuccessful_creates {input : PostDebitInput} :
    alone A q i (postDebitSuccessful input) (Creates input.idempotencyKey) tr := by
  refine .bind (.throwIf fun _ => alone_existing fun tr => ?_)
  refine alone_rethrowWalletMissing (alone_keyed fun tr => ?_)
  refine .bind (alone_balance fun available tr _ => .bind (.throwIf fun _ => ?_))
  exact .bind (alone_insert fun r tr hwritten =>
    .bind (alone_balance fun _ tr htr => .ret (htr ▸ hwritten)))

theorem postReversalCredit_creates {input : PostReversalInput} :
    alone A q i (postReversalCredit input) (Creates input.idempotencyKey) tr := by
  refine .bind (.throwIf fun _ => alone_existing fun tr => ?_)
  refine .bind (.select trivial fun _ => .bind (.orThrow fun original _ => .bind ?_))
  refine .bind (.throwIf fun _ => .bind (.throwIf fun _ => .throwIf fun _ => ?_))
  refine alone_rethrowWalletMissing (alone_keyed fun tr => ?_)
  exact .bind (alone_insert fun r tr hwritten =>
    .bind (alone_balance fun _ tr htr => .ret (htr ▸ hwritten)))

theorem justified :
    Justified P config (insertions P config walletOf) (fun _ _ _ => True) fun call response tr =>
      ∀ data r, call.inserted = some data → response = .ledger r →
        Creates data.idempotencyKey r tr := by
  intro call i hcall
  have insert {data : CreateWalletTransactionData} {p : Program LedgerWriteResult}
      (hsome : call.inserted = some data)
      (h : alone (insertions P config walletOf) call i p (Creates data.idempotencyKey) []) :
      alone (insertions P config walletOf) call i (Response.ledger <$> p)
        (fun response tr =>
        ∀ data r, call.inserted = some data → response = .ledger r →
          Creates data.idempotencyKey r tr) [] := by
    refine .map (h.mono fun r tr hcreates data' r' hdata hr => ?_)
    rw [hsome] at hdata
    cases hdata
    cases hr
    exact hcreates
  have plain (hnone : call.inserted = none) :
      alone (insertions P config walletOf) call i (program P config call) (fun response tr =>
        ∀ data r, call.inserted = some data → response = .ledger r →
          Creates data.idempotencyKey r tr) [] := by
    refine .within (Prog.Within.all fun _ => trivial) (fun _ _ _ => trivial) ?_
    intro response tr _ data r hdata
    rw [hnone] at hdata
    cases hdata
  cases call with
  | postCreditPending input => exact insert rfl postCreditPending_creates
  | postDebitSuccessful input => exact insert rfl postDebitSuccessful_creates
  | postReversalCredit input => exact insert rfl postReversalCredit_creates
  | _ => exact plain rfl

/-! ### The result -/

/-- The call of the thread inserts under the key. -/
def InsertsUnder (cfg : Machine.Config (walletApi P config)) (i : ℕ) (key : String)
    (p : Program Response) : Prop :=
  ∃ call data, cfg.threads i = some (.running call p) ∧ call.inserted = some data ∧
    data.idempotencyKey = key

/-- In every state that some interleaving reaches, whatever fails and whoever
stops: of the calls under one key at most one says that it has created the row,
each call that has returned has handed back the only row with the key, and no
call fails with a violation of a unique index. A row that was handed back while
it waited may have been completed since. -/
theorem inserts_idempotent {cfg : Machine.Config (walletApi P config)}
    (h : Machine.Reachable (insertions P config walletOf) World.initial cfg) (key : String) :
    (∀ i j r r', InsertsUnder cfg i key (.ret (.ledger r)) →
      InsertsUnder cfg j key (.ret (.ledger r')) → r.created = true → r'.created = true → i = j) ∧
    (∀ i response, InsertsUnder cfg i key (.ret response) → ∃ r x, response = .ledger r ∧
      (World.db cfg.state).walletTransactions.filter (·.idempotencyKey = key) = [x] ∧
      (r.transaction = x ∨ r.transaction.status = .pending ∧ r.transaction.core = x.core)) ∧
    ∀ i e, InsertsUnder cfg i key (.fail e) → e ≠ .prisma .uniqueConstraint := by
  refine ⟨?_, ?_, ?_⟩
  · rintro i j r r' ⟨call, data, hth, hdata, rfl⟩ ⟨call', data', hth', hdata', hkey⟩ hr hr'
    have F := followed_of_reachable justified h
    have hi : data.idempotencyKey ∈ keysCommitted (own i (World.log cfg.state)) :=
      F.running hth data r hdata rfl hr
    have hj : data'.idempotencyKey ∈ keysCommitted (own j (World.log cfg.state)) :=
      F.running hth' data' r' hdata' rfl hr'
    exact (attributed_of_reachable h).unique hi (hkey ▸ hj)
  · rintro i response ⟨call, data, hth, hdata, rfl⟩
    obtain ⟨s, -, hrely, hQ⟩ := certified.returned h hth
    obtain ⟨s₀, r, rfl, t, -, hts, hmem, hkey⟩ := hQ data hdata
    have hruns := hts.trans hrely.runs
    have hunique : Db.Unique (World.db cfg.state) := (certified.inv h).2.1
    obtain ⟨x, hx, hcore⟩ := (grows_of_runs hruns).walletTransactions _ hmem
    have hxkey : x.core.idempotencyKey = r.transaction.core.idempotencyKey := by rw [hcore]
    refine ⟨r, x, rfl, filter_eq_singleton hunique.rowIds_nodup.of_map hx (hxkey.trans hkey)
      fun y hy hy' => hunique.row_of_idempotencyKey hy hx (hy'.trans (hxkey.trans hkey).symm), ?_⟩
    by_cases hstatus : r.transaction.status = .pending
    · exact .inr ⟨hstatus, hcore.symm⟩
    · have hkept : r.transaction ∈ (World.db cfg.state).walletTransactions :=
        RelyGuarantee.Runs.lift hruns (fun s t : World => ∀ x ∈ s.db.walletTransactions, x.status ≠ .pending →
            x ∈ t.db.walletTransactions) (fun _ _ hx _ => hx)
          (fun h h' x hx hs => h' x (h x hx hs) hs) (fun _ _ hg => hg.2.2) _ hmem hstatus
      exact .inl (hunique.row_of_idempotencyKey hkept hx hxkey.symm)
  · rintro i e ⟨call, data, hth, hdata, -⟩
    obtain ⟨s, -, -, hE⟩ := certified.failed h hth
    exact hE data hdata

/-- Two calls with the same key that have both found nothing at first. -/
def schedule : List (Machine.Action (walletApi platform mockConfig)) :=
  register 0 "ada" "u1" "w1" ++
    [.spawn 1 (.postCreditPending { walletId := "w1", amount := 1000, idempotencyKey := "k" }),
      .spawn 2 (.postCreditPending { walletId := "w1", amount := 1000, idempotencyKey := "k" })] ++
    calm 1 1 ++ calm 2 2 ++ calm 1 3 ++ generate 1 ["r1"] ++ calm 1 2 ++ calm 2 3

/-- How the two calls have ended. -/
def created (cfg : Machine.Config (walletApi platform mockConfig)) (i : ℕ) : Option Bool :=
  match ended cfg i with
  | some (.postCreditPending input, .ok (.ledger r)) =>
      if input.idempotencyKey = "k" then some r.created else none
  | _ => none

theorem insertsUnder_of_created {cfg : Machine.Config (walletApi platform mockConfig)} {i : ℕ}
    {b : Bool} (h : created cfg i = some b) :
    ∃ r, r.created = b ∧ InsertsUnder cfg i "k" (.ret (.ledger r)) := by
  unfold created at h
  split at h
  · rename_i input r hend
    split at h
    · rename_i hkey
      refine ⟨r, Option.some.inj h, ?_⟩
      exact ⟨_, _, threads_of_ended hend, rfl, hkey⟩
    · cases h
  · cases h

theorem inserts_idempotent_schedule :
    ∃ cfg, Machine.replayUnder (insertions platform mockConfig fun _ => "w1")
        (.initial World.initial) schedule = some cfg ∧
      ∃ r r' x, InsertsUnder cfg 1 "k" (.ret (.ledger r)) ∧ r.created = true ∧
        InsertsUnder cfg 2 "k" (.ret (.ledger r')) ∧ r'.created = false ∧
        cfg.state.db.walletTransactions.filter (·.idempotencyKey = "k") = [x] := by
  have hrun : (Machine.replayUnder (insertions platform mockConfig fun _ => "w1")
      (.initial World.initial) schedule).any fun cfg =>
        created cfg 1 = some true ∧ created cfg 2 = some false := by decide +kernel
  obtain ⟨cfg, hcfg, hends⟩ := (Option.any_eq_true ..).mp hrun
  obtain ⟨hfirst, hsecond⟩ := of_decide_eq_true hends
  obtain ⟨r, hr, hth⟩ := insertsUnder_of_created hfirst
  obtain ⟨r', hr', hth'⟩ := insertsUnder_of_created hsecond
  obtain ⟨-, hrows, -⟩ := inserts_idempotent (.replayUnder hcfg) "k"
  obtain ⟨-, x, -, hx, -⟩ := hrows 2 _ hth'
  exact ⟨cfg, hcfg, r, r', x, hth, hr, hth', hr', hx⟩

end Insertions

end WalletApi
