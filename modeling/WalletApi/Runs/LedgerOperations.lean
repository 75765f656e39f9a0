import WalletApi.Runs.Operations

/-!
One specification for each operation of the ledger services.

Three of the four operations insert a row under a key: they look the key up
outside of the transaction, take the wallet's lock, and look the key up once
more (`wp_keyed`). The fourth completes a row that waits for its money. As
before, a specification is about any policy that grants the commit, and it tells
the caller which row is handed back.
-/

namespace WalletApi

open Concurrency ReadCommitted World Policy WalletTransactionRepository

variable {P : Platform} {config : Config} {Γ : Policy} {q : Call} {i : ℕ} {s t u v : World}
  {α : Type} {ws : List Write} {L : List String} {F : World → Prop}

/-! ### Rows of the journal -/

theorem find?_row_of_key {d : Db} {key : String} {r : WalletTransaction}
    (h : (Query.walletTransactionByIdempotencyKey key).run d = some r) :
    r ∈ d.walletTransactions ∧ r.idempotencyKey = key := by
  have hp := List.find?_some h
  exact ⟨List.mem_of_find?_eq_some h, of_decide_eq_true hp⟩

theorem find?_row_of_id {d : Db} {id : String} {r : WalletTransaction}
    (h : (Query.walletTransactionById id).run d = some r) :
    r ∈ d.walletTransactions ∧ r.id = id := by
  have hp := List.find?_some h
  exact ⟨List.mem_of_find?_eq_some h, of_decide_eq_true hp⟩

theorem ne_of_row_none {d : Db} {id : String} (h : (Query.walletTransactionById id).run d = none) :
    ∀ r ∈ d.walletTransactions, r.id ≠ id := by
  intro r hr hid
  exact List.find?_eq_none.mp h r hr (decide_eq_true hid)

/-- A row keeps its wallet, so a row that is read again is of the same wallet. -/
theorem walletId_of_runs (h : (Γ.discipline P config).Runs s t) (ht : t.db.Unique)
    {r r' : WalletTransaction} (hr : r ∈ s.db.walletTransactions)
    (hr' : r' ∈ t.db.walletTransactions) (hid : r'.id = r.id) : r'.walletId = r.walletId := by
  obtain ⟨r'', hr'', hcore⟩ := (grows_of_runs h).walletTransactions r hr
  have hid' : r''.core.id = r.core.id := congrArg WalletTransaction.id hcore
  have hw : r''.core.walletId = r.core.walletId := congrArg WalletTransaction.walletId hcore
  rw [ht.row_ext hr' hr'' (hid.trans hid'.symm)]
  exact hw

/-- An update of one row leaves the journals of the other wallets alone. -/
theorem journalOf_update {d : Db} (hd : d.Unique) {r : WalletTransaction}
    (hr : r ∈ d.walletTransactions) (status : WalletTransactionStatus) {walletId : String}
    (h : walletId ≠ r.walletId) :
    ((Write.updateWalletTransactionStatus r.id status).apply d).journalOf walletId =
      d.journalOf walletId := by
  show ((d.walletTransactions.map _).filter _) = d.walletTransactions.filter _
  rw [List.filter_map]
  have hpred : ∀ x ∈ d.walletTransactions,
      ((fun x : WalletTransaction => decide (x.walletId = walletId)) ∘ fun x =>
        if x.id = r.id then { x with status } else x) x = decide (x.walletId = walletId) := by
    intro x _
    by_cases hid : x.id = r.id
    · simp [hid]
    · simp [hid]
  rw [List.filter_congr hpred]
  refine (List.map_congr_left fun x hx => if_neg fun hid => h ?_).trans (List.map_id _)
  obtain ⟨hx, hw⟩ := List.mem_filter.mp hx
  rw [← of_decide_eq_true hw, hd.row_ext hx hr hid]

namespace WalletLedgerService

/-- What a caller gets back from an operation on the row with the given key. -/
def HandsBack (P : Platform) (config : Config) (Γ : Policy) (s : World) (key : String)
    (r : LedgerWriteResult) (u : World) : Prop :=
  ∃ t, (Γ.discipline P config).Runs s t ∧ (Γ.discipline P config).Runs t u ∧
    r.transaction ∈ t.db.walletTransactions ∧ r.transaction.idempotencyKey = key

/-- What the errors of an operation that inserts a row under a key have to satisfy.
`Free` is what the second lookup establishes, under the lock of the wallet, if it
finds no row. -/
structure Throws (P : Platform) (config : Config) (Γ : Policy) (q : Call) (i : ℕ)
    (data : CreateWalletTransactionData) (Free : World → Prop) (E : Err → World → Prop) : Prop where
  prot : Protected P config Γ i [data.walletId] Free
  free : ∀ t, (Γ.discipline P config).Inv t →
    (∀ r ∈ t.db.walletTransactions, r.idempotencyKey ≠ data.idempotencyKey) → Free t
  rejected : ∀ (stamp : String × ℕ) s t code u, Rejected P config Γ q i [] [data.walletId] Free
    (.createWalletTransaction (data.row stamp.1 stamp.2)) s t code u → ∀ v, E (.prisma code) v
  other : ∀ e, (∀ code, e ≠ .prisma code) → ∀ u, E e u

namespace Throws

variable {data : CreateWalletTransactionData} {Free : World → Prop} {E : Err → World → Prop}

/-- Nothing is asked of the errors. -/
theorem any (hE : ∀ e u, E e u) : Throws P config Γ q i data (fun _ => True) E where
  prot := .true
  free _ _ _ := trivial
  rejected _ _ _ code _ _ := hE (.prisma code)
  other e _ := hE e

theorem network (hE : Throws P config Γ q i data Free E) (u : World) : E .network u :=
  hE.other .network (fun _ h => by cases h) u

theorem error (hE : Throws P config Γ q i data Free E) {message : String} (u : World) :
    E (.error message) u :=
  hE.other (.error message) (fun _ h => by cases h) u

theorem app (hE : Throws P config Γ q i data Free E) {code : ErrorCode} {message : String}
    (u : World) : E (.app code message) u :=
  hE.other (.app code message) (fun _ h => by cases h) u

end Throws

theorem wp_assertAmount {amount : ℤ} {E : Err → World → Prop} {Q : Unit → World → Prop}
    (hE : E (customError.badRequest "amount must be a positive integer (kobo)") s)
    (h : 0 < amount → Q () s) :
    (Γ.discipline P config).wp q i (assertAmount amount) Q E s :=
  wp_throwIf (fun _ => hE) fun hpos => h (not_le.mp hpos)

theorem wp_rethrowWalletMissing {walletId : String} {body : Program α} {Q : α → World → Prop}
    {E : Err → World → Prop} (hE : ∀ u, E (customError.notFound "Wallet not found") u)
    (h : (Γ.discipline P config).wp q i body Q E v) :
    (Γ.discipline P config).wp q i (rethrowWalletMissing walletId body) Q E v := by
  refine RelyGuarantee.wp_tryCatch (RelyGuarantee.wp_mono (fun _ _ hQ => hQ) ?_ _ h)
  intro e u he
  split
  · exact RelyGuarantee.wp_fail (hE u)
  · exact RelyGuarantee.wp_fail he

/-! ### Inserting under a key -/

/-- The lookup before the transaction. -/
theorem wp_existing {key : String} {rest : Program LedgerWriteResult} {E : Err → World → Prop}
    {Q : LedgerWriteResult → World → Prop} (hnet : ∀ u, E .network u)
    (hQ : ∀ r u, HandsBack P config Γ s key r u → Q r u)
    (hrest : ∀ u, (Γ.discipline P config).Runs s u →
      (Γ.discipline P config).wp q i rest Q E u) :
    (Γ.discipline P config).wp q i
      (do
        let existing ← findByIdempotencyKey .pool key
        match existing with
        | some transaction => return { transaction, created := false }
        | none => rest) Q E s := by
  refine RelyGuarantee.wp_bind (wp_select (fun u _ => hnet u) fun t u ho => ?_)
  generalize hexisting : Query.run _ t.db = existing at ho ⊢
  cases existing with
  | some r =>
      have hr := find?_row_of_key hexisting
      exact RelyGuarantee.wp_ret (hQ _ u ⟨t, ho.runs, ho.runs_self rfl, hr.1, hr.2⟩)
  | none => exact hrest u (ho.runs_quiet rfl)

/-- The lookup under the lock. -/
theorem wp_keyed {data : CreateWalletTransactionData} {rest : Program LedgerWriteResult}
    {Free : World → Prop} {E : Err → World → Prop} {Q : LedgerWriteResult → World → Prop}
    (hE : Throws P config Γ q i data Free E)
    (hQ : ∀ r u, HandsBack P config Γ s data.idempotencyKey r u → Q r u)
    (hrest : ∀ u, (Γ.discipline P config).Runs s u → Tx i [] [data.walletId] Free u →
      (Γ.discipline P config).wp q i rest
        (fun r u => (Γ.discipline P config).wp q i (perform .commit) (fun _ => Q r)
          (Undo P config Γ i E) u) (Undo P config Γ i E) u) :
    (Γ.discipline P config).wp q i
      (transaction do
        lockWalletRow data.walletId
        let again ← findByIdempotencyKey .tx data.idempotencyKey
        match again with
        | some transaction => return { transaction, created := false }
        | none => rest) Q E s := by
  have hundo : ∀ u, Γ.Faulty → Undo P config Γ i E .network u := fun _ _ => .inl hE.network
  refine wp_transaction (fun u _ => hE.network u) fun v hv htx => ?_
  refine RelyGuarantee.wp_bind (wp_lockWalletRow .true htx hundo nofun
    (fun t u ho _ _ htx => ?_) fun _ _ _ _ _ => .inl hE.error)
  refine RelyGuarantee.wp_bind (wp_tx_select_nil .true hundo htx fun t' u' ho' _ htx' => ?_)
  have hu : (Γ.discipline P config).Runs s u := hv.trans (ho.runs_quiet rfl)
  generalize hagain : Query.run _ t'.db = again at ho' ⊢
  cases again with
  | some r =>
      have hr := find?_row_of_key hagain
      exact RelyGuarantee.wp_ret (wp_commit_nil hundo .true htx'
        fun w u'' ho'' hwu _ _ => hQ _ u'' ⟨t', hu.trans ho'.runs,
          (ho'.runs_self rfl).trans (ho''.runs.trans hwu), hr.1, hr.2⟩)
  | none =>
      -- The lookup that has found nothing is what the insert relies on.
      have hfree : Free t' := by
        refine hE.free t' ho'.inv fun r hr hkey => ?_
        exact absurd (decide_eq_true hkey) (List.find?_eq_none.mp hagain r hr)
      exact hrest u' (hu.trans (ho'.runs_quiet rfl))
        (htx'.imp fun _ => hE.prot.quiet (ho'.quiet rfl) hfree)

/-- The insert itself, which may know more than that the key is free. -/
theorem wp_keyed_insert {data : CreateWalletTransactionData} {Free : World → Prop}
    {E : Err → World → Prop} {Q : WalletTransaction → World → Prop}
    (hE : Throws P config Γ q i data Free E) (hF : Protected P config Γ i [data.walletId] F)
    (hfree : ∀ u, F u → Free u) (hs : Tx i [] [data.walletId] F s)
    (h : ∀ u (stamp : String × ℕ), (Γ.discipline P config).Runs s u →
      Tx i [.createWalletTransaction (data.row stamp.1 stamp.2)] [data.walletId] F u →
      Q (data.row stamp.1 stamp.2) u) :
    (Γ.discipline P config).wp q i (insert data) Q (Undo P config Γ i E) s :=
  wp_insert hF hs (fun _ _ => .inl hE.network)
    (fun stamp v t u code hr => .inl (hE.rejected stamp v t code u
      ⟨hr.own, hr.before.imp (hfree t), hr.reason, hr.after.imp (hfree u)⟩)) h

/-- The commit of one new row. -/
theorem wp_commit_insert {data : CreateWalletTransactionData} {stamp : String × ℕ}
    {E : Err → World → Prop} {Q : LedgerWriteResult → World → Prop} {b : Option ℤ}
    (hnet : ∀ u, E .network u) (hF : Protected P config Γ i [data.walletId] F)
    (hv : (Γ.discipline P config).Runs s v)
    (htx : Tx i [.createWalletTransaction (data.row stamp.1 stamp.2)] [data.walletId] F v)
    (hgrants : ∀ t u, (Γ.discipline P config).Runs s t →
      Commits P config Γ q i [.createWalletTransaction (data.row stamp.1 stamp.2)] t u →
      t.store.locks data.walletId = some i → F t → Γ.Inv u ∧ Γ.Guar i t u)
    (hQ : ∀ r u, HandsBack P config Γ s data.idempotencyKey r u → Q r u) :
    (Γ.discipline P config).wp q i (perform .commit)
      (fun _ => Q ⟨data.row stamp.1 stamp.2, true, b⟩) (Undo P config Γ i E) v := by
  refine wp_commit (fun _ _ => .inl hnet) hF htx (fun t u ht htx hc => ?_) fun t u ht hu hc => ?_
  · have hlock : t.store.locks data.walletId = some i := htx.locks.mpr (.head _)
    refine ⟨lockGuarded_append (by rw [hc.db]; rfl) fun r hr => ?_,
      hgrants t u (hv.trans ht) hc hlock htx.fact⟩
    rw [List.mem_singleton.mp hr]
    exact hlock
  · refine hQ _ u ⟨u, hv.trans hu, .refl, ?_, rfl⟩
    rw [hc.db]
    exact List.mem_append_right _ (.head _)

theorem wp_postCreditPending {input : PostCreditPendingInput} {Free : World → Prop}
    {E : Err → World → Prop} {Q : LedgerWriteResult → World → Prop}
    (hE : Throws P config Γ q i input.data Free E)
    (hgrants : ∀ t u (stamp : String × ℕ), (Γ.discipline P config).Runs s t →
      Commits P config Γ q i [.createWalletTransaction (input.data.row stamp.1 stamp.2)] t u →
      0 < input.amount → Γ.Inv u ∧ Γ.Guar i t u)
    (hQ : ∀ r u, HandsBack P config Γ s input.idempotencyKey r u → Q r u) :
    (Γ.discipline P config).wp q i (postCreditPending input) Q E s := by
  refine RelyGuarantee.wp_bind (wp_assertAmount (hE.app s) fun hpos => ?_)
  refine wp_existing hE.network hQ fun u hu => ?_
  have hQ' : ∀ r v, HandsBack P config Γ u input.idempotencyKey r v → Q r v :=
    fun r v ⟨t, ht, htv, hr⟩ => hQ r v ⟨t, hu.trans ht, htv, hr⟩
  refine wp_keyed hE hQ' fun v hv htx => ?_
  refine RelyGuarantee.wp_bind (wp_keyed_insert hE hE.prot (fun _ hfree => hfree) htx
    fun w stamp hw htx' => ?_)
  exact RelyGuarantee.wp_ret (wp_commit_insert hE.network hE.prot (hv.trans hw) htx'
    (fun t u' ht hc _ _ => hgrants t u' stamp (hu.trans ht) hc hpos) hQ')

theorem wp_postDebitSuccessful {input : PostDebitInput} {Free : World → Prop}
    {E : Err → World → Prop} {Q : LedgerWriteResult → World → Prop}
    (hE : Throws P config Γ q i input.data Free E)
    (hgrants : ∀ t u (stamp : String × ℕ), (Γ.discipline P config).Runs s t →
      Commits P config Γ q i [.createWalletTransaction (input.data.row stamp.1 stamp.2)] t u →
      0 < input.amount → input.amount ≤ sumSuccessfulBalance t.db input.walletId →
      Γ.Inv u ∧ Γ.Guar i t u)
    (hQ : ∀ r u, HandsBack P config Γ s input.idempotencyKey r u → Q r u) :
    (Γ.discipline P config).wp q i (postDebitSuccessful input) Q E s := by
  have hundo : ∀ u, Γ.Faulty → Undo P config Γ i E .network u := fun _ _ => .inl hE.network
  refine RelyGuarantee.wp_bind (wp_assertAmount (hE.app s) fun hpos => ?_)
  refine wp_existing hE.network hQ fun u hu => ?_
  have hQ' : ∀ r v, HandsBack P config Γ u input.idempotencyKey r v → Q r v :=
    fun r v ⟨t, ht, htv, hr⟩ => hQ r v ⟨t, hu.trans ht, htv, hr⟩
  refine wp_rethrowWalletMissing hE.app (wp_keyed hE hQ' fun v hv htx => ?_)
  refine RelyGuarantee.wp_bind (wp_tx_balance hE.prot hundo htx fun v₁ available hv₁ htx₁ => ?_)
  -- The balance is fixed from here on.
  have hbalance : Protected P config Γ i [input.walletId]
      fun s => sumSuccessfulBalance s.db input.walletId = available := .balance (.head _) available
  have hF := hE.prot.and hbalance
  refine RelyGuarantee.wp_bind (wp_throwIf (fun _ => .inl hE.app) fun hfunds => ?_)
  refine RelyGuarantee.wp_bind (wp_keyed_insert hE hF (fun _ hfree => hfree.1) htx₁
    fun v₂ stamp hv₂ htx₂ => ?_)
  refine RelyGuarantee.wp_bind (wp_tx_select hF htx₂ hundo fun t₃ v₃ ho₃ _ htx₃ => ?_)
  refine RelyGuarantee.wp_ret (wp_commit_insert hE.network hF
    (((hv.trans hv₁).trans hv₂).trans (ho₃.runs_quiet rfl)) htx₃ ?_ hQ')
  intro t u' ht hc _ hbal
  exact hgrants t u' stamp (hu.trans ht) hc hpos (hbal.2 ▸ not_lt.mp hfunds)

/-- The debit that a reversal has been checked against. -/
def Reverses (P : Platform) (config : Config) (Γ : Policy) (s : World)
    (input : PostReversalInput) (original : WalletTransaction) (t : World) : Prop :=
  ∃ t₀, (Γ.discipline P config).Runs s t₀ ∧ (Γ.discipline P config).Runs t₀ t ∧
    (Γ.discipline P config).Inv t₀ ∧ original ∈ t₀.db.walletTransactions ∧
    original.id = input.originalDebitId ∧ original.type = .debit ∧
    original.walletId = input.walletId ∧ original.amount = input.amount

theorem wp_postReversalCredit {input : PostReversalInput} {Free : World → Prop}
    {E : Err → World → Prop} {Q : LedgerWriteResult → World → Prop}
    (hE : Throws P config Γ q i input.data Free E)
    (hgrants : ∀ t u (stamp : String × ℕ) original, (Γ.discipline P config).Runs s t →
      Commits P config Γ q i [.createWalletTransaction (input.data.row stamp.1 stamp.2)] t u →
      0 < input.amount → Reverses P config Γ s input original t → Γ.Inv u ∧ Γ.Guar i t u)
    (hQ : ∀ r u, HandsBack P config Γ s input.idempotencyKey r u → Q r u) :
    (Γ.discipline P config).wp q i (postReversalCredit input) Q E s := by
  refine RelyGuarantee.wp_bind (wp_assertAmount (hE.app s) fun hpos => ?_)
  refine wp_existing hE.network hQ fun u hu => ?_
  refine RelyGuarantee.wp_bind (wp_select (fun u _ => hE.network u) fun t₁ u₁ ho₁ => ?_)
  refine RelyGuarantee.wp_bind (wp_orThrow (fun _ => hE.app _) fun original horiginal => ?_)
  obtain ⟨hmem, hid⟩ := find?_row_of_id horiginal
  refine RelyGuarantee.wp_bind ?_
  refine RelyGuarantee.wp_bind (wp_throwIf (fun _ => hE.app _) fun htype => ?_)
  refine RelyGuarantee.wp_bind (wp_throwIf (fun _ => hE.app _) fun hwallet => ?_)
  refine wp_throwIf (fun _ => hE.app _) fun hamount => ?_
  have hu₁ : (Γ.discipline P config).Runs s u₁ := hu.trans (ho₁.runs_quiet rfl)
  have hQ' : ∀ r v, HandsBack P config Γ u₁ input.idempotencyKey r v → Q r v :=
    fun r v ⟨t, ht, htv, hr⟩ => hQ r v ⟨t, hu₁.trans ht, htv, hr⟩
  refine wp_rethrowWalletMissing hE.app (wp_keyed hE hQ' fun v hv htx => ?_)
  refine RelyGuarantee.wp_bind (wp_keyed_insert hE hE.prot (fun _ hfree => hfree) htx
    fun v₂ stamp hv₂ htx₂ => ?_)
  refine RelyGuarantee.wp_bind (wp_tx_select hE.prot htx₂ (fun _ _ => .inl hE.network)
    fun t₃ v₃ ho₃ _ htx₃ => ?_)
  refine RelyGuarantee.wp_ret (wp_commit_insert hE.network hE.prot
    ((hv.trans hv₂).trans (ho₃.runs_quiet rfl)) htx₃ ?_ hQ')
  intro t u' ht hc _ _
  refine hgrants t u' stamp original (hu₁.trans ht) hc hpos ⟨t₁, hu.trans ho₁.runs,
    (ho₁.runs_self rfl).trans ht, ho₁.inv, hmem, hid, not_not.mp htype, not_not.mp hwallet,
    not_not.mp hamount⟩

/-! ### Completing a credit -/

/-- The row with the given id has been successful since the operation began. -/
def Completes (P : Platform) (config : Config) (Γ : Policy) (s : World) (id : String) (u : World) :
    Prop :=
  ∃ t r, (Γ.discipline P config).Runs s t ∧ (Γ.discipline P config).Runs t u ∧
    r ∈ t.db.walletTransactions ∧ r.id = id ∧ r.status = .successful

/-- `completeSuccessful`, with a reason for each of its errors. -/
theorem wp_completeCreditSuccessful_of {input : CompleteCreditInput} {E : Err → World → Prop}
    {Q : LedgerWriteResult → World → Prop} (hnetwork : ∀ u, E .network u)
    (hprisma : ∀ code u, E (.prisma code) u)
    (hmissing : ∀ t, (Γ.discipline P config).Runs s t →
      (∀ r ∈ t.db.walletTransactions, r.id ≠ input.transactionId) →
      ∀ u, E walletTransactionNotFound u)
    (hmismatch : ∀ t r, (Γ.discipline P config).Runs s t → r ∈ t.db.walletTransactions →
      r.id = input.transactionId → r.walletId ≠ input.expectedWalletId →
      ∀ u, E (customError.badRequest "Transaction wallet mismatch") u)
    (hlost : ∀ t r, (Γ.discipline P config).Runs s t → r ∈ t.db.walletTransactions →
      r.id = input.transactionId → (∀ x ∈ t.db.wallets, x.id ≠ r.walletId) →
      ∀ u, E (.error ("Wallet not found: " ++ r.walletId)) u)
    (hstatus : ∀ t r, (Γ.discipline P config).Runs s t → r ∈ t.db.walletTransactions →
      r.id = input.transactionId → r.status ≠ .successful → r.status ≠ .pending →
      ∀ u, E (customError.unprocessableEntity
        ("Cannot complete credit in status " ++ statusText r.status)) u)
    (hgrants : ∀ t u r, (Γ.discipline P config).Runs s t →
      Commits P config Γ q i [.updateWalletTransactionStatus r.id .successful] t u →
      r ∈ t.db.walletTransactions → r.id = input.transactionId →
      r.walletId = input.expectedWalletId → r.status = .pending → Γ.Inv u ∧ Γ.Guar i t u)
    (hQ : ∀ r u, Completes P config Γ s input.transactionId u → Q r u) :
    (Γ.discipline P config).wp q i (completeCreditSuccessful input) Q E s := by
  have hnet : ∀ u, Γ.Faulty → Undo P config Γ i E .network u := fun _ _ => .inl hnetwork
  refine wp_transaction (fun _ _ => hnetwork _) fun v hv htx => ?_
  refine RelyGuarantee.wp_bind (wp_tx_select_nil .true hnet htx fun t₁ u₁ ho₁ _ htx₁ => ?_)
  have hst₁ : (Γ.discipline P config).Runs s t₁ := hv.trans ho₁.runs
  refine RelyGuarantee.wp_bind (wp_orThrow
    (fun hnone => .inl (hmissing t₁ hst₁ (ne_of_row_none hnone))) fun current hcurrent => ?_)
  obtain ⟨hmem, hid⟩ := find?_row_of_id hcurrent
  refine RelyGuarantee.wp_bind (wp_throwIf
    (fun hne => .inl (hmismatch t₁ current hst₁ hmem hid hne)) fun hwallet => ?_)
  -- If the wallet is missing, the row of the journal is still there.
  have hgone : ∀ t₂, (Γ.discipline P config).Runs u₁ t₂ →
      (∀ x ∈ t₂.db.wallets, x.id ≠ current.walletId) →
      ∀ u, E (.error ("Wallet not found: " ++ current.walletId)) u := by
    intro t₂ hr₂ hnone
    have hrun : (Γ.discipline P config).Runs t₁ t₂ := (ho₁.runs_self rfl).trans hr₂
    obtain ⟨r, hr, hcore⟩ := (grows_of_runs hrun).walletTransactions current hmem
    have hcoreId : r.core.id = current.core.id := by rw [hcore]
    have hcoreWallet : r.core.walletId = current.core.walletId := by rw [hcore]
    have hrwallet : r.walletId = current.walletId := hcoreWallet
    rw [← hrwallet] at hnone ⊢
    exact hlost t₂ r (hst₁.trans hrun) hr ((show r.id = current.id from hcoreId).trans hid) hnone
  refine RelyGuarantee.wp_bind (wp_lockWalletRow .true htx₁ hnet nofun
    (fun t₂ u₂ ho₂ _ _ htx₂ => ?_) fun t₂ u₂ hr₂ hnone _ => .inl (hgone t₂ hr₂ hnone))
  refine RelyGuarantee.wp_bind (wp_tx_select_nil .true hnet htx₂ fun t₃ u₃ ho₃ htx₃ htx₃' => ?_)
  have hst₃ : (Γ.discipline P config).Runs s t₃ :=
    hst₁.trans (((ho₁.runs_self rfl).trans (ho₂.runs_quiet rfl)).trans ho₃.runs)
  refine RelyGuarantee.wp_bind (wp_orThrow
    (fun hnone => .inl (hmissing t₃ hst₃ (ne_of_row_none hnone))) fun locked hlocked => ?_)
  obtain ⟨hmem₃, hid₃⟩ := find?_row_of_id hlocked
  -- The row that is locked is of the wallet whose lock is held.
  have hruns : (Γ.discipline P config).Runs t₁ t₃ :=
    (ho₁.runs_self rfl).trans ((ho₂.runs_quiet rfl).trans ho₃.runs)
  have hwid := walletId_of_runs hruns ho₃.unique hmem hmem₃ (hid₃.trans hid.symm)
  have hF : Protected P config Γ i [current.walletId]
      fun s => locked ∈ s.db.journalOf current.walletId :=
    .journal (.head _) fun rows => locked ∈ rows
  have hu₃ : (Γ.discipline P config).Runs s u₃ :=
    hv.trans (((ho₁.runs_quiet rfl).trans (ho₂.runs_quiet rfl)).trans (ho₃.runs_quiet rfl))
  have htx : Tx i [] [current.walletId] (fun s => locked ∈ s.db.journalOf current.walletId) u₃ := by
    refine htx₃'.imp fun _ => ?_
    rw [ho₃.db_quiet rfl]
    exact List.mem_filter.mpr ⟨hmem₃, decide_eq_true hwid⟩
  rw [completeLocked]
  split
  · rename_i hstatus
    refine RelyGuarantee.wp_bind (wp_tx_select_nil hF hnet htx fun t₄ u₄ ho₄ _ htx₄ => ?_)
    refine RelyGuarantee.wp_ret (wp_commit_nil hnet hF htx₄
      fun t₅ u₅ ho₅ htu _ _ => hQ _ _ ⟨u₃, locked, hu₃, ?_, ?_, hid₃, hstatus⟩)
    · exact (ho₄.runs_quiet rfl).trans (ho₅.runs.trans htu)
    · rw [ho₃.db_quiet rfl]
      exact hmem₃
  · rename_i hsuccessful
    refine RelyGuarantee.wp_bind (wp_throwIf
      (fun hne => .inl (hstatus t₃ locked hst₃ hmem₃ hid₃ hsuccessful hne)) fun hpending => ?_)
    refine RelyGuarantee.wp_bind (wp_tx_write hF htx hnet
      (fun t₄ u₄ row ho₄ _ _ htx₄ => ?_) fun _ _ _ _ => .inl (hprisma _))
    refine RelyGuarantee.wp_bind (wp_tx_select hF htx₄ hnet fun t₅ u₅ ho₅ _ htx₅ => ?_)
    have hu₅ : (Γ.discipline P config).Runs s u₅ :=
      (hu₃.trans (ho₄.runs_quiet rfl)).trans (ho₅.runs_quiet rfl)
    refine RelyGuarantee.wp_ret (wp_commit hnet hF htx₅
      (fun t u ht htx hc => ?_) fun t u ht hu hc => ?_)
    case refine_2 =>
      obtain ⟨row', hrow', hcore⟩ := (grows_of_runs ht).walletTransactions locked
        (List.mem_of_mem_filter htx₅.fact)
      have hid' : row'.core.id = locked.core.id := congrArg WalletTransaction.id hcore
      have hid'' : row'.id = locked.id := hid'
      refine hQ _ _ ⟨u, { row' with status := .successful }, hu₅.trans hu, .refl, ?_,
        hid''.trans hid₃, rfl⟩
      rw [hc.db]
      exact List.mem_map.mpr ⟨row', hrow', if_pos hid''⟩
    have hmem := List.mem_of_mem_filter htx.fact
    refine ⟨fun w hw => ?_, hgrants t u locked
      (hu₅.trans ht) hc hmem hid₃
      (hwid.trans (not_not.mp hwallet)) (not_not.mp hpending)⟩
    have hweq : w = locked.walletId := by
      by_contra hne
      refine hw ?_
      rw [hc.db]
      exact journalOf_update hc.inv.2.1 hmem .successful hne
    rw [hweq, hwid]
    exact htx.locks.mpr (.head _)

theorem wp_completeCreditSuccessful {input : CompleteCreditInput} {E : Err → World → Prop}
    {Q : LedgerWriteResult → World → Prop} (hE : ∀ e u, E e u)
    (hgrants : ∀ t u r, (Γ.discipline P config).Runs s t →
      Commits P config Γ q i [.updateWalletTransactionStatus r.id .successful] t u →
      r ∈ t.db.walletTransactions → r.id = input.transactionId →
      r.walletId = input.expectedWalletId → r.status = .pending → Γ.Inv u ∧ Γ.Guar i t u)
    (hQ : ∀ r u, Completes P config Γ s input.transactionId u → Q r u) :
    (Γ.discipline P config).wp q i (completeCreditSuccessful input) Q E s :=
  wp_completeCreditSuccessful_of (hE _) (fun _ => hE _) (fun _ _ _ => hE _)
    (fun _ _ _ _ _ _ => hE _) (fun _ _ _ _ _ _ => hE _) (fun _ _ _ _ _ _ _ => hE _) hgrants hQ

end WalletLedgerService

end WalletApi
