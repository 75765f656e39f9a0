import WalletApi.Runs.Transactions

/-!
One specification for each operation that writes to the journal.

The specifications are about any policy. What an operation needs from it is that
its commit is within the policy, and it says under which circumstances the
commit happens: with which buffer, with which balance, with which wallets in
existence. Conversely a caller learns where the answer comes from.

Besides, a fact may be protected by the lock of the wallet that is debited. It
has to hold when that lock is granted, and it still holds when the operation
gives up after that.
-/

namespace WalletApi

open Concurrency ReadCommitted World Policy

variable {P : Platform} {config : Config} {Γ : Policy} {q : Call} {i : ℕ} {s t u v : World}
  {α : Type} {ws : List Write} {L : List String} {F G : World → Prop}

theorem wp_insert {E : Err → World → Prop} (hF : Protected P config Γ i L F)
    (hs : Tx i ws L F s) (hnet : ∀ u, Γ.Faulty → E .network u)
    {data : WalletTransactionRepository.CreateWalletTransactionData}
    (herr : ∀ (stamp : String × ℕ) v t u code, Rejected P config Γ q i ws L F
      (.createWalletTransaction (data.row stamp.1 stamp.2)) v t code u → E (.prisma code) u)
    {Q : WalletTransaction → World → Prop}
    (h : ∀ u (stamp : String × ℕ), (Γ.discipline P config).Runs s u →
      Tx i (ws ++ [.createWalletTransaction (data.row stamp.1 stamp.2)]) L F u →
      Q (data.row stamp.1 stamp.2) u) :
    (Γ.discipline P config).wp q i (WalletTransactionRepository.insert data) Q E s := by
  refine RelyGuarantee.wp_bind (wp_tx_defaults hF hs fun t u stamp ho hu => ?_)
  refine wp_tx_write hF hu hnet (fun t' u' row ho' _ hrow hu' => ?_)
    fun t' u' code => herr stamp u t' u' code
  cases hrow
  exact h u' stamp ((ho.runs_quiet rfl).trans (ho'.runs_quiet rfl)) hu'

namespace WalletTransactionRepository

/-- The texts of a row, but for its id. -/
def CreateWalletTransactionData.texts (data : CreateWalletTransactionData) : List String :=
  [data.walletId, data.idempotencyKey] ++ data.reference.toList ++
    data.counterpartWalletId.toList ++ data.transferId.toList ++ data.withdrawalId.toList ++
    data.reversesTransactionId.toList

/-- The columns can hold a row if they can hold its amount and its texts. -/
theorem CreateWalletTransactionData.storable_row {data : CreateWalletTransactionData}
    {stamp : String × ℕ} (hmin : -2147483648 ≤ data.amount) (hmax : data.amount ≤ 2147483647)
    (htexts : ∀ text ∈ data.texts, isColumnText text = true) (hstamp : isColumnText stamp.1 = true) :
    (Write.createWalletTransaction (data.row stamp.1 stamp.2)).storable = true :=
  Write.storable_iff.mpr ⟨decide_eq_true ⟨hmin, hmax⟩, List.forall_mem_cons.mpr ⟨hstamp, htexts⟩⟩

end WalletTransactionRepository

/-! ### Withdrawals -/

/-- An earlier request with the key has left the row `w` behind. One of the two
lookups has found it in `t`, and the operation has ended with the step from `v`:
with the first lookup itself, or with the commit of a transaction in which
nothing has been written. -/
def Replays (P : Platform) (config : Config) (Γ : Policy) (q : Call) (i : ℕ) (s : World)
    (userId key hash : String) (w : Withdrawal) (u : World) : Prop :=
  ∃ t v, (Γ.discipline P config).Runs s t ∧ (Γ.discipline P config).Runs t v ∧
    (Γ.discipline P config).Runs v u ∧ (Γ.discipline P config).Inv v ∧ u.db = v.db ∧
    (w ∈ t.db.withdrawals ∧ w.userId = userId ∧ w.idempotencyKey = key) ∧
    (t = v ∧ w.requestBodyHash = hash ∧
        Granted Γ q i (.select .pool (.withdrawalByUserAndIdempotencyKey userId key)) v ∨
      v.store.opened i = some [] ∧ Granted Γ q i .commit v)

/-- Why a withdrawal may be refused: a connection failed, the key was used for a
different body, a wallet is missing, or the refusal came under the lock. -/
def Refuses (P : Platform) (config : Config) (Γ : Policy) (s : World)
    (userId key hash : String) (ids : List String) (G : World → Prop) (e : Err) (u : World) :
    Prop :=
  e = .network ∧ Γ.Faulty ∨
    (∃ t, (Γ.discipline P config).Runs s t ∧ (Γ.discipline P config).Runs t u ∧
      ∃ w ∈ t.db.withdrawals, w.userId = userId ∧ w.idempotencyKey = key ∧
        w.requestBodyHash ≠ hash) ∨
    (∃ t, (Γ.discipline P config).Runs s t ∧ ∃ id ∈ ids, ∀ x ∈ t.db.wallets, x.id ≠ id) ∨
    G u

theorem find?_withdrawal {d : Db} {userId key : String} {w : Withdrawal}
    (h : (Query.withdrawalByUserAndIdempotencyKey userId key).run d = some w) :
    w ∈ d.withdrawals ∧ w.userId = userId ∧ w.idempotencyKey = key := by
  have hp := List.find?_some h
  exact ⟨List.mem_of_find?_eq_some h, of_decide_eq_true hp⟩

/-- The lookup by id in a table to which the row has just been added. -/
theorem find?_append_fresh {α : Type} {id : α → String} {rows : List α} (row : α)
    (h : ∀ r ∈ rows, id r ≠ id row) : (rows ++ [row]).find? (id · = id row) = some row := by
  rw [List.find?_append, List.find?_eq_none.mpr (by simpa using h)]
  simp

/-- An update of the row that has just been added. -/
theorem update_append_fresh {α : Type} {id : α → String} {rows : List α} (row : α) (f : α → α)
    (h : ∀ r ∈ rows, id r ≠ id row) :
    Write.update id (id row) f (rows ++ [row]) = rows ++ [f row] := by
  rw [Write.update, List.map_append, List.map_singleton, if_pos rfl]
  congr 1
  exact (List.map_congr_left fun r hr => if_neg (h r hr)).trans (List.map_id _)

theorem Db.withdrawal_fresh {d : Db} {id : String} (h : Key.withdrawalId id ∉ d.keys) :
    ∀ w ∈ d.withdrawals, w.id ≠ id := by
  rintro w hw rfl
  exact h (List.mem_append_left _ (List.mem_append_right _
    (List.mem_flatMap.mpr ⟨w, hw, .head _⟩)))

namespace WithdrawalRepository

/-- The lookup before the transaction, and what follows from a row. -/
theorem wp_replay {w : Withdrawal} {userId key hash : String} {ids : List String}
    (hv : (Γ.discipline P config).Runs s t) (ho : Own Γ P config q i
      (.select .pool (.withdrawalByUserAndIdempotencyKey userId key)) s t
      (.ok (some w)) u)
    (hw : w ∈ t.db.withdrawals ∧ w.userId = userId ∧ w.idempotencyKey = key)
    {Q : ExecuteWithdrawalResult → World → Prop}
    (hQ : Replays P config Γ q i s userId key hash w u → Q ⟨w, false⟩ u) :
    (Γ.discipline P config).wp q i (replay w hash) Q
      (Refuses P config Γ s userId key hash ids G) u := by
  refine RelyGuarantee.wp_bind (wp_throwIf (fun hne => ?_) fun heq => ?_)
  · exact .inr (.inl ⟨t, hv, ho.runs_self rfl, w, hw.1, hw.2.1, hw.2.2, hne⟩)
  · exact hQ ⟨t, t, hv, .refl, ho.runs_self rfl, ho.inv, ho.db_quiet rfl, hw,
      .inl ⟨rfl, not_not.mp heq, ho.granted rfl⟩⟩

/-- What the `catch` around the transaction does to an error. -/
theorem wp_rethrowWalletMissing {body : Program α} {Q : α → World → Prop}
    {userId key hash : String} {ids : List String} {v : World}
    (h : (Γ.discipline P config).wp q i body Q (Refuses P config Γ s userId key hash ids G) v) :
    (Γ.discipline P config).wp q i (rethrowWalletMissing body) Q
      (Refuses P config Γ s userId key hash ids G) v := by
  refine RelyGuarantee.wp_tryCatch (RelyGuarantee.wp_mono (fun _ _ hQ => hQ) ?_ _ h)
  intro e u he
  split
  · rename_i hmsg
    rcases he with ⟨rfl, -⟩ | he
    · exact absurd hmsg (by decide)
    · exact .inr he
  · exact he

/-! ### The common part of the two withdrawals

Both transactions look the key up once more, lock, and check the funds. -/

/-- What is settled once the funds of the wallet `sender` have been found to be
enough: the wallets `ids` are locked and exist, and the balance cannot change. -/
structure Funded (P : Platform) (config : Config) (Γ : Policy) (i : ℕ) (sender : String)
    (ids : List String) (amount : ℤ) (G : World → Prop) (L : List String)
    (F : World → Prop) (u : World) : Prop where
  tx : Tx i [] L F u
  prot : Protected P config Γ i L F
  fact : ∀ v, F v → G v ∧ amount ≤ sumSuccessfulBalance v.db sender
  locked : ∀ id ∈ ids, id ∈ L
  exist : ∀ id ∈ ids, ∃ x ∈ u.db.wallets, x.id = id

/-- A withdrawal is committed under the locks of its wallets, and its rows belong to them. -/
theorem wp_commit_funded {sender : String} {ids : List String} {amount : ℤ}
    {rows : List WalletTransaction} {E : Err → World → Prop} {Q : Unit → World → Prop}
    (hnet : ∀ u, Γ.Faulty → E .network u)
    (hfund : Funded P config Γ i sender ids amount G L F s) (hsender : sender ∈ ids)
    (hu : (Γ.discipline P config).Runs s u) (htx : Tx i ws L F u)
    (hrows : ∀ {t v}, Commits P config Γ q i ws t v →
      v.db.walletTransactions = t.db.walletTransactions ++ rows)
    (howned : ∀ r ∈ rows, r.walletId ∈ ids)
    (h : ∀ t v, (Γ.discipline P config).Runs s t → G t → Commits P config Γ q i ws t v →
      amount ≤ sumSuccessfulBalance t.db sender → t.store.locks sender = some i →
      (∀ id ∈ ids, ∃ x ∈ t.db.wallets, x.id = id) → Γ.Inv v ∧ Γ.Guar i t v)
    (hQ : ∀ t v, (Γ.discipline P config).Runs s t → (Γ.discipline P config).Runs s v →
      Commits P config Γ q i ws t v → Q () v) :
    (Γ.discipline P config).wp q i (perform .commit) Q E u := by
  refine wp_commit hnet hfund.prot htx (fun t v ht htx' hc => ?_)
    fun t v ht hv hc => hQ t v (hu.trans ht) (hu.trans hv) hc
  have hlock : ∀ id ∈ ids, t.store.locks id = some i := fun id hid =>
    htx'.locks.mpr (hfund.locked id hid)
  obtain ⟨hG, hfunds⟩ := hfund.fact t htx'.fact
  refine ⟨lockGuarded_append (hrows hc) fun r hr => hlock _ (howned r hr),
    h t v (hu.trans ht) hG hc hfunds (hlock sender hsender) fun id hid => ?_⟩
  obtain ⟨x, hx, hxid⟩ := hfund.exist id hid
  exact ⟨x, (grows_of_runs (hu.trans ht)).wallets x hx, hxid⟩

theorem wp_accept {userId key hash sender : String} {amount : ℤ} (ids : List String)
    {locking : Program Unit} {rest : Program ExecuteWithdrawalResult} {E : Err → World → Prop}
    {Q : ExecuteWithdrawalResult → World → Prop} (hnet : ∀ u, Γ.Faulty → E .network u)
    (hG : Protected P config Γ i [sender] G) (hE : ∀ e u, G u → E e u) (hsender : sender ∈ ids)
    (hlocking : ∀ {u Q'}, (Γ.discipline P config).Runs s u → Tx i [] [] (fun _ => True) u →
      (∀ u' L, (Γ.discipline P config).Runs s u' → Tx i [] L G u' → (∀ id ∈ ids, id ∈ L) →
        (∀ id ∈ ids, ∃ x ∈ u'.db.wallets, x.id = id) → Q' () u') →
      (Γ.discipline P config).wp q i locking Q' (Undo P config Γ i E) u)
    (hreplay : ∀ w u, Replays P config Γ q i s userId key hash w u → Q ⟨w, false⟩ u)
    (hrest : ∀ u L F, (Γ.discipline P config).Runs s u →
      Funded P config Γ i sender ids amount G L F u →
      (Γ.discipline P config).wp q i rest
        (fun r u => (Γ.discipline P config).wp q i (perform .commit) (fun _ => Q r)
          (Undo P config Γ i E) u) (Undo P config Γ i E) u)
    (hs : (Γ.discipline P config).Runs s v) (htx : Tx i [] [] (fun _ => True) v) :
    (Γ.discipline P config).wp q i
      (do
        let again ← findByUserAndIdempotencyKey .tx userId key
        match again with
        | some withdrawal => return { withdrawal, created := false }
        | none =>
            locking
            let available ← selectSuccessfulBalance .tx sender
            throwIf (available < amount)
              (customError.unprocessableEntity "Insufficient wallet balance")
            rest)
      (fun r u => (Γ.discipline P config).wp q i (perform .commit) (fun _ => Q r)
        (Undo P config Γ i E) u) (Undo P config Γ i E) v := by
  have hundo : ∀ u, Γ.Faulty → Undo P config Γ i E .network u :=
    fun u hf => .inl fun v => hnet v hf
  refine RelyGuarantee.wp_bind (wp_tx_select_nil .true hundo htx fun t u ho _ htx' => ?_)
  generalize hagain : Query.run _ t.db = again at ho ⊢
  cases again with
  | some w =>
      -- The key has been used in the meantime.
      have hw := find?_withdrawal hagain
      refine RelyGuarantee.wp_ret (wp_commit_nil hundo .true htx' fun v u' ho' hvu hopen hdb => ?_)
      exact hreplay w u' ⟨t, v, hs.trans ho.runs, (ho.runs_self rfl).trans ho'.runs, hvu, ho'.inv,
        hdb, hw, .inr ⟨hopen, ho'.granted rfl⟩⟩
  | none =>
      refine RelyGuarantee.wp_bind (hlocking (hs.trans (ho.runs_quiet rfl)) htx' ?_)
      intro u₁ L hu₁ htx₁ hlocked hexist
      have hGL : Protected P config Γ i L G :=
        hG.mono fun w hw => List.mem_singleton.mp hw ▸ hlocked sender hsender
      refine RelyGuarantee.wp_bind (wp_tx_balance hGL hundo htx₁ fun u₂ available hu₂ htx₂ => ?_)
      have hF := hGL.and (Protected.balance (hlocked sender hsender) available)
      -- From here on the balance is known, and the lock keeps it as it is.
      refine RelyGuarantee.wp_bind (wp_throwIf
        (fun _ => .inr ⟨_, L, _, hF, htx₂, fun v hv => hE _ v hv.1⟩) fun hfunds => ?_)
      refine hrest u₂ L _ (hu₁.trans hu₂) ⟨htx₂, hF, fun v hv => ⟨hv.1, ?_⟩, hlocked, ?_⟩
      · rw [hv.2]
        exact not_lt.mp hfunds
      · intro id hid
        obtain ⟨x, hx, hxid⟩ := hexist id hid
        exact ⟨x, (grows_of_runs hu₂).wallets x hx, hxid⟩

/-! ### `executeP2p` -/

/-- What `executeP2p` writes, with the generated ids and times. -/
def ExecuteP2pWithdrawalData.writes (data : ExecuteP2pWithdrawalData) (a b c : String × ℕ) :
    List Write :=
  [.createWithdrawal (data.withdrawal a.1 a.2),
    .createWalletTransaction ((data.debit a.1).row b.1 b.2),
    .createWalletTransaction ((data.credit a.1).row c.1 c.2),
    .updateWithdrawal a.1
      { debitTransactionId := some (some b.1), creditTransactionId := some (some c.1) }]

/-- The row as the transaction leaves it. -/
def ExecuteP2pWithdrawalData.final (data : ExecuteP2pWithdrawalData) (a b c : String × ℕ) :
    Withdrawal :=
  (data.withdrawal a.1 a.2).patch
    { debitTransactionId := some (some b.1), creditTransactionId := some (some c.1) }

/-- The texts that the request brings along. -/
def ExecuteP2pWithdrawalData.texts (data : ExecuteP2pWithdrawalData) : List String :=
  [data.userId, data.senderWalletId, data.currency, data.idempotencyKey, data.requestBodyHash,
    data.destinationWalletId]

/-- The columns can hold the withdrawal if they can hold the amount and the texts. -/
theorem ExecuteP2pWithdrawalData.storable_withdrawal (data : ExecuteP2pWithdrawalData)
    {a : String × ℕ} (ha : isColumnText a.1 = true) :
    (Write.createWithdrawal (data.withdrawal a.1 a.2)).storable = true ↔
      (-2147483648 ≤ data.amount ∧ data.amount ≤ 2147483647) ∧
        ∀ text ∈ data.texts, isColumnText text = true := by
  have htexts : (Write.createWithdrawal (data.withdrawal a.1 a.2)).texts = a.1 :: data.texts := rfl
  rw [Write.storable_iff, htexts, List.forall_mem_cons]
  exact and_congr decide_eq_true_iff (and_iff_right ha)

/-- And then they can hold the other rows. -/
theorem ExecuteP2pWithdrawalData.storable_writes (data : ExecuteP2pWithdrawalData)
    {a b c : String × ℕ} (hmin : -2147483648 ≤ data.amount) (hmax : data.amount ≤ 2147483647)
    (htexts : ∀ text ∈ data.texts, isColumnText text = true) (ha : isColumnText a.1 = true)
    (hb : isColumnText b.1 = true) (hc : isColumnText c.1 = true) :
    ∀ w ∈ data.writes a b c, w.storable = true := by
  have hwithdrawal := (data.storable_withdrawal (a := a) ha).mpr ⟨⟨hmin, hmax⟩, htexts⟩
  have hstarts : isColumnText "p2p-debit:" = true ∧ isColumnText "p2p-credit:" = true ∧
    isColumnText ":" = true := by decide
  simp only [texts, List.forall_mem_cons] at htexts
  simp only [writes, List.forall_mem_cons]
  refine ⟨hwithdrawal, WalletTransactionRepository.CreateWalletTransactionData.storable_row hmin hmax ?_ hb, WalletTransactionRepository.CreateWalletTransactionData.storable_row hmin hmax ?_ hc, ?_,
    fun _ h => absurd h List.not_mem_nil⟩
  · simp [WalletTransactionRepository.CreateWalletTransactionData.texts, debit, isColumnText_append, *]
  · simp [WalletTransactionRepository.CreateWalletTransactionData.texts, credit, isColumnText_append, *]
  · simp [Write.storable, Write.inRange, Write.texts, *]

theorem ExecuteP2pWithdrawalData.applyAll_writes (data : ExecuteP2pWithdrawalData)
    (a b c : String × ℕ) {d : Db} (h : Key.withdrawalId a.1 ∉ d.keys) :
    schema.applyAll (data.writes a b c) d =
      { d with
        withdrawals := d.withdrawals ++ [data.final a b c]
        walletTransactions := d.walletTransactions ++
          [(data.debit a.1).row b.1 b.2, (data.credit a.1).row c.1 c.2] } := by
  have hu := update_append_fresh (data.withdrawal a.1 a.2)
    (·.patch { debitTransactionId := some (some b.1), creditTransactionId := some (some c.1) })
    (Db.withdrawal_fresh h)
  show Db.mk _ _ _ _ _ _ = _
  congr 1
  exact List.append_assoc ..

theorem ExecuteP2pWithdrawalData.rows_owned (data : ExecuteP2pWithdrawalData) {a b c : String × ℕ} :
    ∀ r ∈ [(data.debit a.1).row b.1 b.2, (data.credit a.1).row c.1 c.2],
      r.walletId ∈ [data.senderWalletId, data.destinationWalletId] := by
  intro r hr
  rcases List.mem_cons.mp hr with rfl | hr
  · exact .head _
  · rw [List.mem_singleton.mp hr]
    exact .tail _ (.head _)

/-- The database after the commit of the transaction. -/
theorem ExecuteP2pWithdrawalData.db_of_commits (data : ExecuteP2pWithdrawalData) {a b c : String × ℕ}
    (hc : Commits P config Γ q i (data.writes a b c) t u) :
    u.db = { t.db with
      withdrawals := t.db.withdrawals ++ [data.final a b c]
      walletTransactions := t.db.walletTransactions ++
        [(data.debit a.1).row b.1 b.2, (data.credit a.1).row c.1 c.2] } :=
  hc.db.trans (data.applyAll_writes a b c (hc.fresh _ (.head _) _ (.head _)))

/-- What the last statement of the transaction hands back. -/
theorem ExecuteP2pWithdrawalData.result_final (data : ExecuteP2pWithdrawalData)
    (a b c : String × ℕ) {d : Db} (h : Key.withdrawalId a.1 ∉ d.keys) :
    (Write.updateWithdrawal a.1
      { debitTransactionId := some (some b.1), creditTransactionId := some (some c.1) }).result
        (schema.applyAll ((data.writes a b c).take 3) d) = some (data.final a b c) := by
  have hfind := find?_append_fresh (data.withdrawal a.1 a.2) (Db.withdrawal_fresh h)
  exact congrArg (Option.map (Withdrawal.patch · _)) hfind

/-- What a policy has to grant for `executeP2p`: the commit, whose circumstances
are the sender's funds and the existence of both wallets. -/
def GrantsP2p (P : Platform) (config : Config) (Γ : Policy) (q : Call) (i : ℕ) (s : World)
    (data : ExecuteP2pWithdrawalData) : Prop :=
  ∀ t u a b c, (Γ.discipline P config).Runs s t →
    Commits P config Γ q i (data.writes a b c) t u →
    data.amount ≤ sumSuccessfulBalance t.db data.senderWalletId →
    t.store.locks data.senderWalletId = some i →
    (∀ id ∈ [data.senderWalletId, data.destinationWalletId], ∃ x ∈ t.db.wallets, x.id = id) →
    Γ.Inv u ∧ Γ.Guar i t u

theorem wp_executeP2p {data : ExecuteP2pWithdrawalData} (G : World → Prop) {E : Err → World → Prop}
    {Q : ExecuteWithdrawalResult → World → Prop}
    (hE : ∀ e u, Refuses P config Γ s data.userId data.idempotencyKey data.requestBodyHash
      [data.senderWalletId, data.destinationWalletId] G e u → E e u)
    (hG : Protected P config Γ i [data.senderWalletId] G)
    (hgrant : ∀ t, (Γ.discipline P config).Runs s t → (Γ.discipline P config).Inv t →
      Granted Γ q i (.lockWalletRow data.senderWalletId) t → G t)
    (hgrants : GrantsP2p P config Γ q i s data)
    (hreplay : ∀ w u, Replays P config Γ q i s data.userId data.idempotencyKey
      data.requestBodyHash w u → Q ⟨w, false⟩ u)
    (hcreated : ∀ t u a b c, (Γ.discipline P config).Runs s t →
      (Γ.discipline P config).Runs s u →
      Commits P config Γ q i (data.writes a b c) t u → Q ⟨data.final a b c, true⟩ u) :
    (Γ.discipline P config).wp q i (executeP2p data) Q E s := by
  have hids : (sortWalletIds [data.senderWalletId, data.destinationWalletId]).Perm
      [data.senderWalletId, data.destinationWalletId] := List.perm_insertionSort _ _
  refine RelyGuarantee.wp_mono (fun _ _ hQ => hQ) hE _
    (RelyGuarantee.wp_bind (wp_select (fun _ hf => .inl ⟨rfl, hf⟩) fun t u ho => ?_))
  generalize hexisting : Query.run _ t.db = existing at ho ⊢
  cases existing with
  | some w => exact wp_replay ho.runs ho (find?_withdrawal hexisting) (hreplay w u)
  | none =>
      refine wp_rethrowWalletMissing (wp_transaction (fun _ hf => .inl ⟨rfl, hf⟩) fun v hv htx => ?_)
      refine wp_accept [data.senderWalletId, data.destinationWalletId]
        (fun _ hf => .inl ⟨rfl, hf⟩) hG
        (fun e u hu => .inr (.inr (.inr hu))) (.head _) ?_ hreplay ?_ ((ho.runs_quiet rfl).trans hv) htx
      · -- Both wallets are locked, in ascending order.
        intro u₁ Q' hu₁ htx₁ hQ'
        refine wp_lockWalletRows (fun _ hf => .inl fun _ => .inl ⟨rfl, hf⟩) hG hgrant _ hu₁
          (htx₁.imp fun _ => nofun) (List.pairwise_insertionSort _ _) nofun
          (fun u₂ hu₂ hex htx₂ => ?_) fun t u w ht hw hnone =>
            .inl fun u => .inr (.inr (.inl ⟨t, ht, w, hids.mem_iff.mp hw, hnone⟩))
        have hmem : ∀ id ∈ [data.senderWalletId, data.destinationWalletId],
            id ∈ (sortWalletIds [data.senderWalletId, data.destinationWalletId]).reverse ++ [] := by
          intro id hid
          rw [List.append_nil, List.mem_reverse, hids.mem_iff]
          exact hid
        exact hQ' u₂ _ (hu₁.trans hu₂) (htx₂.imp fun h => h (hmem _ (.head _))) hmem
          fun id hid => hex id (hids.mem_iff.mpr hid)
      · -- The four writes, and their commit.
        intro u₁ L F hu₁ hfund
        have hF := hfund.prot
        have hundo : ∀ u, Γ.Faulty → Undo P config Γ i (Refuses P config Γ s data.userId data.idempotencyKey
            data.requestBodyHash [data.senderWalletId, data.destinationWalletId] G) .network u :=
          fun u hf => .inl fun _ => .inl ⟨rfl, hf⟩
        have hundo' : ∀ {ws : List Write} {u : World} {e : Err}, Tx i ws L F u →
            Undo P config Γ i (Refuses P config Γ s data.userId data.idempotencyKey
              data.requestBodyHash [data.senderWalletId, data.destinationWalletId] G) e u :=
          fun htx => .inr ⟨_, L, F, hF, htx, fun u hu => .inr (.inr (.inr (hfund.fact u hu).1))⟩
        refine RelyGuarantee.wp_bind (wp_tx_defaults hF hfund.tx fun t₂ u₂ a ho₂ htx₂ => ?_)
        refine RelyGuarantee.wp_bind (wp_tx_write hF htx₂ hundo
          (fun t₃ u₃ row ho₃ _ hrow htx₃ => ?_) fun _ _ _ h => hundo' h.after)
        cases hrow
        refine RelyGuarantee.wp_bind (wp_insert hF htx₃ hundo (fun _ _ _ _ _ h => hundo' h.after)
          fun u₄ b hu₄ htx₄ => ?_)
        refine RelyGuarantee.wp_bind (wp_insert hF htx₄ hundo (fun _ _ _ _ _ h => hundo' h.after)
          fun u₅ c hu₅ htx₅ => ?_)
        refine RelyGuarantee.wp_bind (wp_tx_write hF htx₅ hundo
          (fun t₆ u₆ row ho₆ htx₆ hrow htx₆' => ?_) fun _ _ _ h => hundo' h.after)
        have hfresh := htx₆.fresh ho₆.coherent _ (.head _) (.withdrawalId a.1) (.head _)
        cases (data.result_final a b c hfresh).symm.trans hrow
        have hu₆ : (Γ.discipline P config).Runs u₁ u₆ :=
          ((((ho₂.runs_quiet rfl).trans (ho₃.runs_quiet rfl)).trans hu₄).trans hu₅).trans
            (ho₆.runs_quiet rfl)
        exact RelyGuarantee.wp_ret (wp_commit_funded hundo hfund (.head _) hu₆ htx₆'
          (fun hc => congrArg Db.walletTransactions (data.db_of_commits hc)) data.rows_owned
          (fun t u ht _ => hgrants t u a b c (hu₁.trans ht))
          fun t u ht hu => hcreated t u a b c (hu₁.trans ht) (hu₁.trans hu))

/-! ### `executeBankAccept` -/

/-- What `executeBankAccept` writes, with the generated ids and times. -/
def ExecuteBankWithdrawalData.writes (data : ExecuteBankWithdrawalData) (a b : String × ℕ) :
    List Write :=
  [.createWithdrawal (data.withdrawal a.1 a.2),
    .createWalletTransaction ((data.debit a.1).row b.1 b.2),
    .updateWithdrawal a.1 { debitTransactionId := some (some b.1) }]

/-- The row as the transaction leaves it. -/
def ExecuteBankWithdrawalData.final (data : ExecuteBankWithdrawalData) (a b : String × ℕ) :
    Withdrawal :=
  (data.withdrawal a.1 a.2).patch { debitTransactionId := some (some b.1) }

/-- The texts that the request brings along. -/
def ExecuteBankWithdrawalData.texts (data : ExecuteBankWithdrawalData) : List String :=
  [data.userId, data.walletId, data.currency, data.idempotencyKey, data.requestBodyHash,
    data.bankCode, data.accountNumber, data.accountName, data.providerReference]

theorem ExecuteBankWithdrawalData.storable_withdrawal (data : ExecuteBankWithdrawalData)
    {a : String × ℕ} (ha : isColumnText a.1 = true) :
    (Write.createWithdrawal (data.withdrawal a.1 a.2)).storable = true ↔
      (-2147483648 ≤ data.amount ∧ data.amount ≤ 2147483647) ∧
        ∀ text ∈ data.texts, isColumnText text = true := by
  have htexts : (Write.createWithdrawal (data.withdrawal a.1 a.2)).texts = a.1 :: data.texts := rfl
  rw [Write.storable_iff, htexts, List.forall_mem_cons]
  exact and_congr decide_eq_true_iff (and_iff_right ha)

theorem ExecuteBankWithdrawalData.storable_writes (data : ExecuteBankWithdrawalData)
    {a b : String × ℕ} (hmin : -2147483648 ≤ data.amount) (hmax : data.amount ≤ 2147483647)
    (htexts : ∀ text ∈ data.texts, isColumnText text = true) (ha : isColumnText a.1 = true)
    (hb : isColumnText b.1 = true) : ∀ w ∈ data.writes a b, w.storable = true := by
  have hwithdrawal := (data.storable_withdrawal (a := a) ha).mpr ⟨⟨hmin, hmax⟩, htexts⟩
  have hstarts : isColumnText "bank-debit:" = true ∧ isColumnText ":" = true := by decide
  simp only [texts, List.forall_mem_cons] at htexts
  simp only [writes, List.forall_mem_cons]
  refine ⟨hwithdrawal, WalletTransactionRepository.CreateWalletTransactionData.storable_row hmin hmax ?_ hb, ?_,
    fun _ h => absurd h List.not_mem_nil⟩
  · simp [WalletTransactionRepository.CreateWalletTransactionData.texts, debit, isColumnText_append, *]
  · simp [Write.storable, Write.inRange, Write.texts, *]

theorem ExecuteBankWithdrawalData.applyAll_writes (data : ExecuteBankWithdrawalData)
    (a b : String × ℕ) {d : Db} (h : Key.withdrawalId a.1 ∉ d.keys) :
    schema.applyAll (data.writes a b) d =
      { d with
        withdrawals := d.withdrawals ++ [data.final a b]
        walletTransactions := d.walletTransactions ++ [(data.debit a.1).row b.1 b.2] } := by
  have hu := update_append_fresh (data.withdrawal a.1 a.2)
    (·.patch { debitTransactionId := some (some b.1) }) (Db.withdrawal_fresh h)
  show Db.mk _ _ _ _ _ _ = _
  congr 1

theorem ExecuteBankWithdrawalData.row_owned (data : ExecuteBankWithdrawalData) {a b : String × ℕ} :
    ∀ r ∈ [(data.debit a.1).row b.1 b.2], r.walletId ∈ [data.walletId] := by
  intro r hr
  rw [List.mem_singleton.mp hr]
  exact .head _

theorem ExecuteBankWithdrawalData.db_of_commits (data : ExecuteBankWithdrawalData) {a b : String × ℕ}
    (hc : Commits P config Γ q i (data.writes a b) t u) :
    u.db = { t.db with
      withdrawals := t.db.withdrawals ++ [data.final a b]
      walletTransactions := t.db.walletTransactions ++ [(data.debit a.1).row b.1 b.2] } :=
  hc.db.trans (data.applyAll_writes a b (hc.fresh _ (.head _) _ (.head _)))

theorem ExecuteBankWithdrawalData.result_final (data : ExecuteBankWithdrawalData)
    (a b : String × ℕ) {d : Db} (h : Key.withdrawalId a.1 ∉ d.keys) :
    (Write.updateWithdrawal a.1 { debitTransactionId := some (some b.1) }).result
        (schema.applyAll ((data.writes a b).take 2) d) = some (data.final a b) := by
  have hfind := find?_append_fresh (data.withdrawal a.1 a.2) (Db.withdrawal_fresh h)
  exact congrArg (Option.map (Withdrawal.patch · _)) hfind

/-- What a policy has to grant for `executeBankAccept`. -/
def GrantsBank (P : Platform) (config : Config) (Γ : Policy) (q : Call) (i : ℕ) (s : World)
    (data : ExecuteBankWithdrawalData) : Prop :=
  ∀ t u a b, (Γ.discipline P config).Runs s t →
    Commits P config Γ q i (data.writes a b) t u →
    data.amount ≤ sumSuccessfulBalance t.db data.walletId →
    t.store.locks data.walletId = some i →
    (∃ x ∈ t.db.wallets, x.id = data.walletId) →
    Γ.Inv u ∧ Γ.Guar i t u

theorem wp_executeBankAccept {data : ExecuteBankWithdrawalData} (G : World → Prop) {E : Err → World → Prop}
    {Q : ExecuteWithdrawalResult → World → Prop}
    (hE : ∀ e u, Refuses P config Γ s data.userId data.idempotencyKey data.requestBodyHash
      [data.walletId] G e u → E e u)
    (hG : Protected P config Γ i [data.walletId] G)
    (hgrant : ∀ t, (Γ.discipline P config).Runs s t → (Γ.discipline P config).Inv t →
      Granted Γ q i (.lockWalletRow data.walletId) t → G t)
    (hgrants : GrantsBank P config Γ q i s data)
    (hreplay : ∀ w u, Replays P config Γ q i s data.userId data.idempotencyKey
      data.requestBodyHash w u → Q ⟨w, false⟩ u)
    (hcreated : ∀ t u a b, (Γ.discipline P config).Runs s t →
      (Γ.discipline P config).Runs s u →
      Commits P config Γ q i (data.writes a b) t u → Q ⟨data.final a b, true⟩ u) :
    (Γ.discipline P config).wp q i (executeBankAccept data) Q E s := by
  refine RelyGuarantee.wp_mono (fun _ _ hQ => hQ) hE _
    (RelyGuarantee.wp_bind (wp_select (fun _ hf => .inl ⟨rfl, hf⟩) fun t u ho => ?_))
  generalize hexisting : Query.run _ t.db = existing at ho ⊢
  cases existing with
  | some w => exact wp_replay ho.runs ho (find?_withdrawal hexisting) (hreplay w u)
  | none =>
      refine wp_rethrowWalletMissing (wp_transaction (fun _ hf => .inl ⟨rfl, hf⟩) fun v hv htx => ?_)
      refine wp_accept [data.walletId] (fun _ hf => .inl ⟨rfl, hf⟩) hG
        (fun e u hu => .inr (.inr (.inr hu))) (.head _) ?_ hreplay ?_
        ((ho.runs_quiet rfl).trans hv) htx
      · intro u₁ Q' hu₁ htx₁ hQ'
        refine wp_lockWalletRow .true htx₁ (fun _ hf => .inl fun _ => .inl ⟨rfl, hf⟩) nofun
          (fun t₂ u₂ ho₂ _ hw htx₂ => ?_) fun t₂ u₂ ht₂ hnone _ =>
            .inl fun _ => .inr (.inr (.inl ⟨t₂, hu₁.trans ht₂, _, .head _, hnone⟩))
        have hG₂ : G u₂ :=
          hG.quiet (ho₂.quiet rfl) (hgrant t₂ (hu₁.trans ho₂.runs) ho₂.inv (ho₂.granted rfl))
        refine hQ' u₂ [data.walletId] (hu₁.trans (ho₂.runs_quiet rfl)) (htx₂.imp fun _ => hG₂)
          (fun id hid => hid) fun id hid => ?_
        rw [List.mem_singleton.mp hid, ho₂.db_quiet rfl]
        exact hw
      · -- The three writes, and their commit.
        intro u₁ L F hu₁ hfund
        have hF := hfund.prot
        have hundo : ∀ u, Γ.Faulty → Undo P config Γ i (Refuses P config Γ s data.userId data.idempotencyKey
            data.requestBodyHash [data.walletId] G) .network u :=
          fun u hf => .inl fun _ => .inl ⟨rfl, hf⟩
        have hundo' : ∀ {ws : List Write} {u : World} {e : Err}, Tx i ws L F u →
            Undo P config Γ i (Refuses P config Γ s data.userId data.idempotencyKey
              data.requestBodyHash [data.walletId] G) e u :=
          fun htx => .inr ⟨_, L, F, hF, htx, fun u hu => .inr (.inr (.inr (hfund.fact u hu).1))⟩
        refine RelyGuarantee.wp_bind (wp_tx_defaults hF hfund.tx fun t₂ u₂ a ho₂ htx₂ => ?_)
        refine RelyGuarantee.wp_bind (wp_tx_write hF htx₂ hundo
          (fun t₃ u₃ row ho₃ _ hrow htx₃ => ?_) fun _ _ _ h => hundo' h.after)
        cases hrow
        refine RelyGuarantee.wp_bind (wp_insert hF htx₃ hundo (fun _ _ _ _ _ h => hundo' h.after)
          fun u₄ b hu₄ htx₄ => ?_)
        refine RelyGuarantee.wp_bind (wp_tx_write hF htx₄ hundo
          (fun t₅ u₅ row ho₅ htx₅ hrow htx₅' => ?_) fun _ _ _ h => hundo' h.after)
        have hfresh := htx₅.fresh ho₅.coherent _ (.head _) (.withdrawalId a.1) (.head _)
        cases (data.result_final a b hfresh).symm.trans hrow
        have hu₅ : (Γ.discipline P config).Runs u₁ u₅ :=
          (((ho₂.runs_quiet rfl).trans (ho₃.runs_quiet rfl)).trans hu₄).trans (ho₅.runs_quiet rfl)
        exact RelyGuarantee.wp_ret (wp_commit_funded hundo hfund (.head _) hu₅ htx₅'
          (fun hc => congrArg Db.walletTransactions (data.db_of_commits hc)) data.row_owned
          (fun t u ht _ hc hfunds hlock hids =>
            hgrants t u a b (hu₁.trans ht) hc hfunds hlock (hids _ (.head _)))
          fun t u ht hu => hcreated t u a b (hu₁.trans ht) (hu₁.trans hu))

end WithdrawalRepository

end WalletApi
