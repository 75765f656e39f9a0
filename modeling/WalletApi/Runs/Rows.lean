import Mathlib.Data.List.Pairwise
import WalletApi.Model.Api

/-!
Facts about the tables that every later argument uses.

A row is determined by any of its unique columns (`Db.Unique`). Rows are never
deleted, and only a few of their columns are ever updated, so a database can
only grow (`Db.Grows`): each row is still there later with the same `core`. The
balance of a wallet is the sum of the signed amounts of its journal, which makes
it additive over new rows.
-/

namespace WalletApi

/-! ### Unique columns -/

def Db.Unique (d : Db) : Prop := d.keys.Nodup

theorem eq_of_mem_keys {α : Type} {keys : α → List Key} {rows : List α} {a b : α} {k : Key}
    (h : (rows.flatMap keys).Nodup) (ha : a ∈ rows) (hb : b ∈ rows) (hka : k ∈ keys a)
    (hkb : k ∈ keys b) : a = b := by
  by_contra hne
  have hdisj : rows.Pairwise fun x y => (keys x).Disjoint (keys y) := (List.nodup_flatMap.mp h).2
  have : Std.Symm fun x y => (keys x).Disjoint (keys y) := ⟨fun _ _ hxy _ h h' => hxy h' h⟩
  exact hdisj.forall ha hb hne hka hkb

/-- A column that enters the index has no value twice. -/
theorem nodup_map_of_keys {α β : Type} {keys : α → List Key} {column : α → β} {rows : List α}
    (mk : β → Key) (h : (rows.flatMap keys).Nodup) (hk : ∀ r, mk (column r) ∈ keys r) :
    (rows.map column).Nodup := by
  have hdisj : rows.Pairwise fun x y => (keys x).Disjoint (keys y) := (List.nodup_flatMap.mp h).2
  refine List.pairwise_map.mpr (hdisj.imp ?_)
  intro x y hxy heq
  exact hxy (hk x) (heq ▸ hk y)

namespace Db.Unique

variable {d : Db}

theorem users (h : d.Unique) : (d.users.flatMap User.keys).Nodup := by
  simp only [Unique, keys, List.nodup_append'] at h
  exact h.1.1.1.1.1

theorem wallets (h : d.Unique) : (d.wallets.flatMap Wallet.keys).Nodup := by
  simp only [Unique, keys, List.nodup_append'] at h
  exact h.1.1.1.1.2.1

theorem transfers (h : d.Unique) : (d.transfers.flatMap Transfer.keys).Nodup := by
  simp only [Unique, keys, List.nodup_append'] at h
  exact h.1.1.1.2.1

theorem walletTransactions (h : d.Unique) :
    (d.walletTransactions.flatMap WalletTransaction.keys).Nodup := by
  simp only [Unique, keys, List.nodup_append'] at h
  exact h.1.1.2.1

theorem withdrawals (h : d.Unique) : (d.withdrawals.flatMap Withdrawal.keys).Nodup := by
  simp only [Unique, keys, List.nodup_append'] at h
  exact h.1.2.1

theorem webhookEvents (h : d.Unique) : (d.webhookEvents.flatMap WebhookEvent.keys).Nodup := by
  simp only [Unique, keys, List.nodup_append'] at h
  exact h.2.1

theorem wallet_of_userId (h : d.Unique) {a b : Wallet} (ha : a ∈ d.wallets)
    (hb : b ∈ d.wallets) (hu : a.userId = b.userId) : a = b :=
  eq_of_mem_keys h.wallets ha hb (.tail _ (.head _)) (by rw [hu]; exact .tail _ (.head _))

theorem transfer_ext (h : d.Unique) {a b : Transfer} (ha : a ∈ d.transfers)
    (hb : b ∈ d.transfers) (hid : a.id = b.id) : a = b :=
  eq_of_mem_keys h.transfers ha hb (.head _) (by rw [hid]; exact .head _)

theorem transfer_of_idempotencyKey (h : d.Unique) {a b : Transfer} (ha : a ∈ d.transfers)
    (hb : b ∈ d.transfers) (hu : a.userId = b.userId)
    (hk : a.idempotencyKey = b.idempotencyKey) : a = b :=
  eq_of_mem_keys h.transfers ha hb (.tail _ (.head _)) (by rw [hu, hk]; exact .tail _ (.head _))

theorem transfer_of_txRef (h : d.Unique) {a b : Transfer} (ha : a ∈ d.transfers)
    (hb : b ∈ d.transfers) (hr : a.flutterwaveTxRef = b.flutterwaveTxRef) : a = b :=
  eq_of_mem_keys h.transfers ha hb (.tail _ (.tail _ (.head _)))
    (by rw [hr]; exact .tail _ (.tail _ (.head _)))

theorem row_ext (h : d.Unique) {a b : WalletTransaction} (ha : a ∈ d.walletTransactions)
    (hb : b ∈ d.walletTransactions) (hid : a.id = b.id) : a = b :=
  eq_of_mem_keys h.walletTransactions ha hb (.head _) (by rw [hid]; exact .head _)

theorem row_of_idempotencyKey (h : d.Unique) {a b : WalletTransaction}
    (ha : a ∈ d.walletTransactions) (hb : b ∈ d.walletTransactions)
    (hk : a.idempotencyKey = b.idempotencyKey) : a = b :=
  eq_of_mem_keys h.walletTransactions ha hb (.tail _ (.head _))
    (by rw [hk]; exact .tail _ (.head _))

theorem withdrawal_ext (h : d.Unique) {a b : Withdrawal} (ha : a ∈ d.withdrawals)
    (hb : b ∈ d.withdrawals) (hid : a.id = b.id) : a = b :=
  eq_of_mem_keys h.withdrawals ha hb (.head _) (by rw [hid]; exact .head _)

theorem withdrawal_of_idempotencyKey (h : d.Unique) {a b : Withdrawal} (ha : a ∈ d.withdrawals)
    (hb : b ∈ d.withdrawals) (hu : a.userId = b.userId)
    (hk : a.idempotencyKey = b.idempotencyKey) : a = b :=
  eq_of_mem_keys h.withdrawals ha hb (.tail _ (.head _))
    (by rw [hu, hk]; exact .tail _ (.head _))

theorem withdrawal_of_providerReference (h : d.Unique) {a b : Withdrawal} {ref : String}
    (ha : a ∈ d.withdrawals) (hb : b ∈ d.withdrawals) (hra : a.providerReference = some ref)
    (hrb : b.providerReference = some ref) : a = b :=
  eq_of_mem_keys (k := .withdrawalProviderReference ref) h.withdrawals ha hb
    (by simp [Withdrawal.keys, hra]) (by simp [Withdrawal.keys, hrb])

theorem webhookEvent_ext (h : d.Unique) {a b : WebhookEvent} (ha : a ∈ d.webhookEvents)
    (hb : b ∈ d.webhookEvents) (hid : a.id = b.id) : a = b :=
  eq_of_mem_keys h.webhookEvents ha hb (.head _) (by rw [hid]; exact .head _)

theorem webhookEvent_of_providerEventId (h : d.Unique) {a b : WebhookEvent}
    (ha : a ∈ d.webhookEvents) (hb : b ∈ d.webhookEvents)
    (hid : a.providerEventId = b.providerEventId) : a = b := by
  refine eq_of_mem_keys (k := .webhookEventProviderEventId a.provider a.providerEventId)
    h.webhookEvents ha hb (.tail _ (.head _)) ?_
  -- There is only one provider.
  cases hprovider : a.provider
  cases hprovider' : b.provider
  simp [WebhookEvent.keys, hid, hprovider']

theorem rowIds_nodup (h : d.Unique) : (d.walletTransactions.map (·.id)).Nodup :=
  nodup_map_of_keys Key.walletTransactionId h.walletTransactions fun _ => .head _

theorem withdrawalIds_nodup (h : d.Unique) : (d.withdrawals.map (·.id)).Nodup :=
  nodup_map_of_keys Key.withdrawalId h.withdrawals fun _ => .head _

end Db.Unique

/-- A condition that only one row meets picks out that row. -/
theorem filter_eq_singleton {α : Type} {p : α → Prop} [DecidablePred p] {rows : List α} {r : α}
    (hrows : rows.Nodup) (hr : r ∈ rows) (hp : p r) (h : ∀ r' ∈ rows, p r' → r' = r) :
    rows.filter p = [r] := by
  refine List.perm_singleton.mp ((List.perm_ext_iff_of_nodup (hrows.filter _)
    (List.nodup_singleton r)).mpr fun r' => ?_)
  rw [List.mem_filter, List.mem_singleton, decide_eq_true_eq]
  constructor
  · rintro ⟨hr', hp'⟩
    exact h r' hr' hp'
  · rintro rfl
    exact ⟨hr, hp⟩

theorem filter_eq_nil_or_singleton {α : Type} {p : α → Prop} [DecidablePred p] {rows : List α}
    (hrows : rows.Nodup) (h : ∀ r ∈ rows, ∀ r' ∈ rows, p r → p r' → r = r') :
    rows.filter p = [] ∨ ∃ r ∈ rows, p r ∧ rows.filter p = [r] := by
  by_cases hex : ∃ r ∈ rows, p r
  · obtain ⟨r, hr, hp⟩ := hex
    exact .inr ⟨r, hr, hp, filter_eq_singleton hrows hr hp fun r' hr' hp' => h r' hr' r hr hp' hp⟩
  · refine .inl (List.filter_eq_nil_iff.mpr fun r hr hp => hex ⟨r, hr, of_decide_eq_true hp⟩)

/-- An update finds the row with its id once. -/
theorem exists_update_eq {α : Type} {id : α → String} {rows : List α} (h : (rows.map id).Nodup)
    {r : α} (hr : r ∈ rows) (f : α → α) :
    ∃ a b, rows = a ++ r :: b ∧ Write.update id (id r) f rows = a ++ f r :: b := by
  obtain ⟨a, b, rfl⟩ := List.append_of_mem hr
  refine ⟨a, b, rfl, ?_⟩
  rw [List.map_append, List.map_cons, List.nodup_append', List.nodup_cons] at h
  have hne : ∀ x ∈ a ++ b, id x ≠ id r := by
    intro x hx hid
    rcases List.mem_append.mp hx with hx | hx
    · exact h.2.2 (hid ▸ List.mem_map_of_mem hx) (.head _)
    · exact h.2.1.1 (hid ▸ List.mem_map_of_mem hx)
  have hsame : ∀ l : List α, (∀ x ∈ l, x ∈ a ++ b) →
      l.map (fun x => if id x = id r then f x else x) = l := by
    intro l hl
    exact (List.map_congr_left fun x hx => if_neg (hne x (hl x hx))).trans (List.map_id _)
  rw [Write.update, List.map_append, List.map_cons, if_pos rfl,
    hsame a fun x hx => List.mem_append_left _ hx, hsame b fun x hx => List.mem_append_right _ hx]

/-! ### Texts -/

theorem isColumnText_append (s t : String) :
    isColumnText (s ++ t) = (isColumnText s && isColumnText t) := by
  simp [isColumnText]

theorem isColumnText_sliceEight {s : String} (h : isColumnText s = true) :
    isColumnText (sliceEight s) = true := by
  rw [isColumnText, List.all_eq_true] at h ⊢
  rw [sliceEight, String.toList_ofList]
  exact fun c hc => h c (List.mem_of_mem_take hc)

theorem isColumnText_withoutDashes {s : String} (h : isColumnText s = true) :
    isColumnText (withoutDashes s) = true := by
  rw [isColumnText, List.all_eq_true] at h ⊢
  rw [withoutDashes, String.toList_ofList]
  exact fun c hc => h c (List.mem_of_mem_filter hc)

theorem Write.storable_iff {w : Write} :
    w.storable = true ↔ w.inRange = true ∧ ∀ text ∈ w.texts, isColumnText text = true := by
  rw [storable, Bool.and_eq_true, List.all_eq_true]

/-! ### Users -/

/-- The user as a registration creates it. -/
structure User.Fresh (u : User) : Prop where
  passwordTryCount : u.passwordTryCount = 0
  passwordLockedUntil : u.passwordLockedUntil = none
  pinHash : u.pinHash = none
  pinTryCount : u.pinTryCount = 0
  pinLockedUntil : u.pinLockedUntil = none

/-- The update leaves the PIN and what belongs to it alone. -/
structure UserUpdate.SparesPin (data : UserUpdate) : Prop where
  pinHash : data.pinHash = none
  pinTryCount : data.pinTryCount = none
  pinLockedUntil : data.pinLockedUntil = none

/-- The row of a user. -/
def Db.user (d : Db) (id : String) : Option User := d.users.find? (·.id = id)

/-- A search by something that the update does not change. -/
theorem find?_updateUser {p : User → Bool} {data : UserUpdate} (hp : ∀ u : User, p (u.patch data) = p u)
    (id : String) (users : List User) :
    (Write.update User.id id (·.patch data) users).find? p =
      (users.find? p).map fun u => if u.id = id then u.patch data else u := by
  have hsame : p ∘ (fun u => if u.id = id then u.patch data else u) = p := by
    funext u
    by_cases hu : u.id = id <;> simp [hu, hp]
  rw [Write.update, List.find?_map, hsame]

theorem Db.user_update (d : Db) (id id' : String) (data : UserUpdate) :
    ((Write.updateUser id' data).apply d).user id =
      if id = id' then (d.user id).map (·.patch data) else d.user id := by
  have hfind := @find?_updateUser (fun u => decide (u.id = id)) data (fun _ => rfl)
    id' d.users
  show (Write.update User.id id' (·.patch data) d.users).find? _ = _
  rw [hfind, Db.user]
  cases hrow : d.users.find? (fun u => decide (u.id = id)) with
  | none => simp
  | some u =>
      have hu : u.id = id := by simpa using List.find?_some hrow
      by_cases h : id = id'
      · subst h
        simp [hu]
      · simp [hu, h]

theorem Db.user_append (d : Db) (id : String) (user : User) (wallet : Wallet) :
    ((Write.createUserWithWallet user wallet).apply d).user id =
      (d.user id).or (if user.id = id then some user else none) := by
  show (d.users ++ [user]).find? _ = _
  rw [List.find?_append]
  by_cases h : user.id = id <;> simp [Db.user, h]

/-! ### Keys of a column -/

section Keys

variable {d : Db} {id : String}

theorem mem_keys_webhookEventId :
    Key.webhookEventId id ∈ d.keys ↔ ∃ e ∈ d.webhookEvents, e.id = id := by
  simp [Db.keys, User.keys, Wallet.keys, Transfer.keys, WalletTransaction.keys, Withdrawal.keys,
    WebhookEvent.keys, eq_comm]

theorem mem_keys_webhookEventProviderEventId {provider : WebhookProvider} :
    Key.webhookEventProviderEventId provider id ∈ d.keys ↔
      ∃ e ∈ d.webhookEvents, e.provider = provider ∧ e.providerEventId = id := by
  simp [Db.keys, User.keys, Wallet.keys, Transfer.keys, WalletTransaction.keys, Withdrawal.keys,
    WebhookEvent.keys, eq_comm]

theorem mem_keys_walletTransactionId :
    Key.walletTransactionId id ∈ d.keys ↔ ∃ r ∈ d.walletTransactions, r.id = id := by
  simp [Db.keys, User.keys, Wallet.keys, Transfer.keys, WalletTransaction.keys, Withdrawal.keys,
    WebhookEvent.keys, eq_comm]

theorem mem_keys_walletTransactionIdempotencyKey :
    Key.walletTransactionIdempotencyKey id ∈ d.keys ↔
      ∃ r ∈ d.walletTransactions, r.idempotencyKey = id := by
  simp [Db.keys, User.keys, Wallet.keys, Transfer.keys, WalletTransaction.keys, Withdrawal.keys,
    WebhookEvent.keys, eq_comm]

theorem mem_keys_withdrawalIdempotencyKey {userId : String} :
    Key.withdrawalIdempotencyKey userId id ∈ d.keys ↔
      ∃ w ∈ d.withdrawals, w.userId = userId ∧ w.idempotencyKey = id := by
  simp [Db.keys, User.keys, Wallet.keys, Transfer.keys, WalletTransaction.keys, Withdrawal.keys,
    WebhookEvent.keys, eq_comm]

theorem mem_keys_withdrawalProviderReference :
    Key.withdrawalProviderReference id ∈ d.keys ↔
      ∃ w ∈ d.withdrawals, w.providerReference = some id := by
  simp [Db.keys, User.keys, Wallet.keys, Transfer.keys, WalletTransaction.keys, Withdrawal.keys,
    WebhookEvent.keys, eq_comm]

theorem mem_keys_transferIdempotencyKey {userId : String} :
    Key.transferIdempotencyKey userId id ∈ d.keys ↔
      ∃ t ∈ d.transfers, t.userId = userId ∧ t.idempotencyKey = id := by
  simp [Db.keys, User.keys, Wallet.keys, Transfer.keys, WalletTransaction.keys, Withdrawal.keys,
    WebhookEvent.keys, eq_comm]

end Keys

/-! ### Growth -/

/-- The columns of a row that are never updated. -/
def User.core (u : User) : User :=
  { u with
    passwordTryCount := 0
    passwordLockedUntil := none
    pinHash := none
    pinTryCount := 0
    pinLockedUntil := none }

def Transfer.core (t : Transfer) : Transfer :=
  { t with status := .initiated, flutterwaveId := none, checkoutUrl := none }

def WalletTransaction.core (r : WalletTransaction) : WalletTransaction :=
  { r with status := .pending }

def Withdrawal.core (w : Withdrawal) : Withdrawal :=
  { w with
    status := .pending
    providerTransferId := none
    debitTransactionId := none
    creditTransactionId := none
    reversalTransactionId := none }

def WebhookEvent.core (e : WebhookEvent) : WebhookEvent :=
  { e with status := .received, processedAt := none }

namespace Withdrawal

variable {w w' : Withdrawal}

theorem id_of_core (h : w.core = w'.core) : w.id = w'.id := by
  have hid : w.core.id = w'.core.id := by rw [h]
  exact hid

/-- The user and the key. -/
theorem key_of_core (h : w.core = w'.core) :
    w.userId = w'.userId ∧ w.idempotencyKey = w'.idempotencyKey := by
  have huser : w.core.userId = w'.core.userId := by rw [h]
  have hkey : w.core.idempotencyKey = w'.core.idempotencyKey := by rw [h]
  exact ⟨huser, hkey⟩

theorem hash_of_core (h : w.core = w'.core) : w.requestBodyHash = w'.requestBodyHash := by
  have hhash : w.core.requestBodyHash = w'.core.requestBodyHash := by rw [h]
  exact hhash

theorem kind_of_core (h : w.core = w'.core) : w.destinationType = w'.destinationType := by
  have hkind : w.core.destinationType = w'.core.destinationType := by rw [h]
  exact hkind

end Withdrawal

theorem User.core_patch (data : UserUpdate) (u : User) : (u.patch data).core = u.core := rfl

theorem Transfer.core_patch (data : UpdateTransferData) (t : Transfer) :
    (t.patch data).core = t.core := rfl

theorem WalletTransaction.core_status (status : WalletTransactionStatus)
    (r : WalletTransaction) : { r with status }.core = r.core := rfl

theorem Withdrawal.core_patch (data : UpdateWithdrawalProviderData) (w : Withdrawal) :
    (w.patch data).core = w.core := rfl

theorem WebhookEvent.core_mark (status : WebhookEventStatus) (processedAt : ℕ)
    (e : WebhookEvent) : (e.mark status processedAt).core = e.core := rfl

/-- Every row of `d` is still there in `d'`, with the columns it was created with. -/
structure Db.Grows (d d' : Db) : Prop where
  users : ∀ u ∈ d.users, ∃ u' ∈ d'.users, u'.core = u.core
  wallets : ∀ w ∈ d.wallets, w ∈ d'.wallets
  transfers : ∀ t ∈ d.transfers, ∃ t' ∈ d'.transfers, t'.core = t.core
  walletTransactions : ∀ r ∈ d.walletTransactions, ∃ r' ∈ d'.walletTransactions, r'.core = r.core
  withdrawals : ∀ w ∈ d.withdrawals, ∃ w' ∈ d'.withdrawals, w'.core = w.core
  webhookEvents : ∀ e ∈ d.webhookEvents, ∃ e' ∈ d'.webhookEvents, e'.core = e.core

/-- An update keeps the rows up to what it may change. -/
theorem exists_mem_update {α : Type} {id : α → String} {i : String} {f core : α → α}
    (hf : ∀ r, core (f r) = core r) {rows : List α} {r : α} (hr : r ∈ rows) :
    ∃ r' ∈ Write.update id i f rows, core r' = core r := by
  refine ⟨_, List.mem_map.mpr ⟨r, hr, rfl⟩, ?_⟩
  split
  · exact hf r
  · rfl

theorem exists_mem_append {α : Type} {core : α → α} {rows new : List α} {r : α} (hr : r ∈ rows) :
    ∃ r' ∈ rows ++ new, core r' = core r :=
  ⟨r, List.mem_append_left _ hr, rfl⟩

namespace Db.Grows

theorem refl (d : Db) : d.Grows d :=
  ⟨fun u h => ⟨u, h, rfl⟩, fun _ h => h, fun t h => ⟨t, h, rfl⟩, fun r h => ⟨r, h, rfl⟩,
    fun w h => ⟨w, h, rfl⟩, fun e h => ⟨e, h, rfl⟩⟩

theorem trans {d d' d'' : Db} (h : d.Grows d') (h' : d'.Grows d'') : d.Grows d'' where
  users u hu := by
    obtain ⟨u', hu', he⟩ := h.users u hu
    obtain ⟨u'', hu'', he'⟩ := h'.users u' hu'
    exact ⟨u'', hu'', he'.trans he⟩
  wallets w hw := h'.wallets w (h.wallets w hw)
  transfers t ht := by
    obtain ⟨t', ht', he⟩ := h.transfers t ht
    obtain ⟨t'', ht'', he'⟩ := h'.transfers t' ht'
    exact ⟨t'', ht'', he'.trans he⟩
  walletTransactions r hr := by
    obtain ⟨r', hr', he⟩ := h.walletTransactions r hr
    obtain ⟨r'', hr'', he'⟩ := h'.walletTransactions r' hr'
    exact ⟨r'', hr'', he'.trans he⟩
  withdrawals w hw := by
    obtain ⟨w', hw', he⟩ := h.withdrawals w hw
    obtain ⟨w'', hw'', he'⟩ := h'.withdrawals w' hw'
    exact ⟨w'', hw'', he'.trans he⟩
  webhookEvents e he := by
    obtain ⟨e', he', hcore⟩ := h.webhookEvents e he
    obtain ⟨e'', he'', hcore'⟩ := h'.webhookEvents e' he'
    exact ⟨e'', he'', hcore'.trans hcore⟩

/-- One statement. -/
theorem apply (w : Write) (d : Db) : d.Grows (w.apply d) := by
  have hd := refl d
  cases w with
  | createUserWithWallet user wallet =>
      exact { hd with
        users := fun _ hu => exists_mem_append hu
        wallets := fun _ hw => List.mem_append_left _ hw }
  | updateUser id data =>
      exact { hd with users := fun _ hu => exists_mem_update (User.core_patch data) hu }
  | createTransfer row => exact { hd with transfers := fun _ ht => exists_mem_append ht }
  | updateTransfer id data =>
      exact { hd with transfers := fun _ ht => exists_mem_update (Transfer.core_patch data) ht }
  | createWalletTransaction row =>
      exact { hd with walletTransactions := fun _ hr => exists_mem_append hr }
  | updateWalletTransactionStatus id status =>
      exact { hd with
        walletTransactions := fun _ hr =>
          exists_mem_update (WalletTransaction.core_status status) hr }
  | createWithdrawal row => exact { hd with withdrawals := fun _ hw => exists_mem_append hw }
  | updateWithdrawal id data =>
      exact { hd with
        withdrawals := fun _ hw => exists_mem_update (Withdrawal.core_patch data) hw }
  | createWebhookEvent row => exact { hd with webhookEvents := fun _ he => exists_mem_append he }
  | updateWebhookEvent id status processedAt =>
      exact { hd with
        webhookEvents := fun _ he =>
          exists_mem_update (WebhookEvent.core_mark status processedAt) he }

/-- A whole buffer. -/
theorem applyAll (ws : List Write) (d : Db) : d.Grows (schema.applyAll ws d) := by
  induction ws generalizing d with
  | nil => exact refl d
  | cons w ws ih => exact (apply w d).trans (ih (w.apply d))

end Db.Grows

/-- A row that is found later is the one from before. -/
theorem Db.Grows.transfer {d d' : Db} (h : d.Grows d') (hu : d'.Unique) {t t' : Transfer}
    (ht : t ∈ d.transfers) (ht' : t' ∈ d'.transfers) (hid : t'.id = t.id) : t'.core = t.core := by
  obtain ⟨t'', ht'', hcore⟩ := h.transfers t ht
  have hid' : t''.core.id = t.core.id := by rw [hcore]
  have hid'' : t''.id = t.id := hid'
  rw [hu.transfer_ext ht' ht'' (hid.trans hid''.symm), hcore]

theorem Db.Grows.row {d d' : Db} (h : d.Grows d') (hu : d'.Unique) {r r' : WalletTransaction}
    (hr : r ∈ d.walletTransactions) (hr' : r' ∈ d'.walletTransactions) (hid : r'.id = r.id) :
    r'.core = r.core := by
  obtain ⟨r'', hr'', hcore⟩ := h.walletTransactions r hr
  have hid' : r''.core.id = r.core.id := by rw [hcore]
  have hid'' : r''.id = r.id := hid'
  rw [hu.row_ext hr' hr'' (hid.trans hid''.symm), hcore]

/-- A row of an updated table is, up to what is updated, a row from before. -/
theorem exists_of_mem_update {α : Type} {id : α → String} {i : String} {f core : α → α}
    (hf : ∀ r, core (f r) = core r) {rows : List α} {r' : α}
    (hr : r' ∈ Write.update id i f rows) : ∃ r ∈ rows, core r' = core r := by
  obtain ⟨r, hmem, rfl⟩ := List.mem_map.mp hr
  refine ⟨r, hmem, ?_⟩
  split
  · exact hf r
  · rfl

/-- A withdrawal is an old one or has just been created. -/
theorem Write.withdrawal_of_apply {w : Write} {d : Db} {x : Withdrawal}
    (hx : x ∈ (w.apply d).withdrawals) :
    (∃ y ∈ d.withdrawals, x.core = y.core) ∨ w = .createWithdrawal x := by
  cases w with
  | createWithdrawal row =>
      rcases List.mem_append.mp hx with hold | hnew
      · exact .inl ⟨x, hold, rfl⟩
      · exact .inr (by rw [List.mem_singleton.mp hnew])
  | updateWithdrawal id data =>
      exact .inl (exists_of_mem_update (Withdrawal.core_patch data) hx)
  | _ => exact .inl ⟨x, hx, rfl⟩

/-- A withdrawal is an old one, or has just been created or updated. -/
theorem Write.withdrawal_source {w : Write} {d : Db} {x : Withdrawal}
    (hx : x ∈ (w.apply d).withdrawals) : x ∈ d.withdrawals ∨ w = .createWithdrawal x ∨
      ∃ x₀ ∈ d.withdrawals, ∃ data, w = .updateWithdrawal x₀.id data ∧ x = x₀.patch data := by
  cases w with
  | createWithdrawal row =>
      rcases List.mem_append.mp hx with hold | hnew
      · exact .inl hold
      · exact .inr (.inl (by rw [List.mem_singleton.mp hnew]))
  | updateWithdrawal id data =>
      obtain ⟨x₀, hx₀, rfl⟩ := List.mem_map.mp hx
      split
      · rename_i hid
        exact .inr (.inr ⟨x₀, hx₀, data, by rw [hid], rfl⟩)
      · exact .inl hx₀
  | _ => exact .inl hx

/-- A transfer stays what it is, unless it is updated. -/
theorem Write.transfer_apply (w : Write) {d : Db} {t : Transfer} (ht : t ∈ d.transfers) :
    t ∈ (w.apply d).transfers ∨
      ∃ data, w = .updateTransfer t.id data ∧ t.patch data ∈ (w.apply d).transfers := by
  cases w with
  | createTransfer row => exact .inl (List.mem_append_left _ ht)
  | updateTransfer id data =>
      have hmem : (if t.id = id then t.patch data else t) ∈
          ((updateTransfer id data).apply d).transfers := List.mem_map.mpr ⟨t, ht, rfl⟩
      by_cases hid : t.id = id
      · rw [if_pos hid] at hmem
        exact .inr ⟨data, by rw [hid], hmem⟩
      · rw [if_neg hid] at hmem
        exact .inl hmem
  | _ => exact .inl ht

/-- A transfer is an old one, or has just been created or updated. -/
theorem Write.transfer_of_apply {w : Write} {d : Db} {t : Transfer}
    (ht : t ∈ (w.apply d).transfers) : t ∈ d.transfers ∨ w = .createTransfer t ∨
      ∃ t₀ ∈ d.transfers, ∃ data, w = .updateTransfer t₀.id data ∧ t = t₀.patch data := by
  cases w with
  | createTransfer row =>
      rcases List.mem_append.mp ht with hold | hnew
      · exact .inl hold
      · exact .inr (.inl (by rw [List.mem_singleton.mp hnew]))
  | updateTransfer id data =>
      obtain ⟨t₀, ht₀, rfl⟩ := List.mem_map.mp ht
      split
      · rename_i hid
        exact .inr (.inr ⟨t₀, ht₀, data, by rw [hid], rfl⟩)
      · exact .inl ht₀
  | _ => exact .inl ht

/-- So is an event. -/
theorem Write.webhookEvent_of_apply {w : Write} {d : Db} {e : WebhookEvent}
    (he : e ∈ (w.apply d).webhookEvents) : e ∈ d.webhookEvents ∨ w = .createWebhookEvent e ∨
      ∃ e₀ ∈ d.webhookEvents, ∃ status processedAt,
        w = .updateWebhookEvent e₀.id status processedAt ∧ e = e₀.mark status processedAt := by
  cases w with
  | createWebhookEvent row =>
      rcases List.mem_append.mp he with hold | hnew
      · exact .inl hold
      · exact .inr (.inl (by rw [List.mem_singleton.mp hnew]))
  | updateWebhookEvent id status processedAt =>
      obtain ⟨e₀, he₀, rfl⟩ := List.mem_map.mp he
      split
      · rename_i hid
        exact .inr (.inr ⟨e₀, he₀, status, processedAt, by rw [hid], rfl⟩)
      · exact .inl he₀
  | _ => exact .inl he

/-- A row of the journal stays what it is, unless its status is written. -/
theorem Write.row_apply (w : Write) {d : Db} {r : WalletTransaction}
    (hr : r ∈ d.walletTransactions) : r ∈ (w.apply d).walletTransactions ∨
      ∃ status, w = .updateWalletTransactionStatus r.id status := by
  cases w with
  | createWalletTransaction row => exact .inl (List.mem_append_left _ hr)
  | updateWalletTransactionStatus id status =>
      by_cases hid : r.id = id
      · exact .inr ⟨status, by rw [hid]⟩
      · refine .inl (List.mem_map.mpr ⟨r, hr, if_neg hid⟩)
  | _ => exact .inl hr

theorem row_applyAll {ws : List Write} {d : Db} {r : WalletTransaction}
    (hr : r ∈ d.walletTransactions) : r ∈ Db.walletTransactions (schema.applyAll ws d) ∨
      ∃ status, Write.updateWalletTransactionStatus r.id status ∈ ws := by
  induction ws generalizing d with
  | nil => exact .inl hr
  | cons w ws ih =>
      rcases w.row_apply hr with hsame | ⟨status, rfl⟩
      · exact (ih hsame).imp_right fun ⟨status, hmem⟩ => ⟨status, .tail _ hmem⟩
      · exact .inr ⟨status, .head _⟩

/-- The tables that transactions write to: the journal and the withdrawals. -/
def Write.inTransaction : Write → Bool
  | createWalletTransaction _ | updateWalletTransactionStatus .. | createWithdrawal _
  | updateWithdrawal .. => true
  | _ => false

/-- A transaction leaves the other tables alone. -/
theorem Write.apply_inTransaction {w : Write} (h : w.inTransaction = true) (d : Db) :
    (w.apply d).users = d.users ∧ (w.apply d).wallets = d.wallets ∧
      (w.apply d).transfers = d.transfers ∧ (w.apply d).webhookEvents = d.webhookEvents := by
  cases w with
  | createWalletTransaction row => exact ⟨rfl, rfl, rfl, rfl⟩
  | updateWalletTransactionStatus id status => exact ⟨rfl, rfl, rfl, rfl⟩
  | createWithdrawal row => exact ⟨rfl, rfl, rfl, rfl⟩
  | updateWithdrawal id data => exact ⟨rfl, rfl, rfl, rfl⟩
  | _ => cases h

/-- The withdrawals that a whole buffer creates. -/
theorem withdrawal_of_applyAll {ws : List Write} {d : Db} {x : Withdrawal}
    (hx : x ∈ Db.withdrawals (schema.applyAll ws d)) :
    (∃ y ∈ d.withdrawals, x.core = y.core) ∨
      ∃ row, Write.createWithdrawal row ∈ ws ∧ x.core = row.core := by
  induction ws generalizing d with
  | nil => exact .inl ⟨x, hx, rfl⟩
  | cons w ws ih =>
      rcases ih hx with ⟨y, hy, hcore⟩ | ⟨row, hrow, hcore⟩
      · rcases Write.withdrawal_of_apply hy with ⟨z, hz, hcore'⟩ | rfl
        · exact .inl ⟨z, hz, hcore.trans hcore'⟩
        · exact .inr ⟨y, .head _, hcore⟩
      · exact .inr ⟨row, .tail _ hrow, hcore⟩

/-- The rows that the lookup by a transfer finds are those that are linked to it. -/
theorem mem_walletTransactionsByTransferId {d : Db} {transferId : String} {r : WalletTransaction}
    {rows : List WalletTransaction}
    (h : (Query.walletTransactionsByTransferId transferId).run d = rows) :
    r ∈ rows ↔ r ∈ d.walletTransactions ∧ r.transferId = some transferId := by
  subst h
  show r ∈ List.insertionSort _ _ ↔ _
  rw [List.mem_insertionSort, List.mem_filter, decide_eq_true_eq]

/-! ### Balances -/

/-- What a row adds to the balance of its wallet. -/
def WalletTransaction.signed (r : WalletTransaction) : ℤ :=
  if r.status = .successful then if r.type = .credit then r.amount else -r.amount else 0

theorem sumSuccessful_credit_sub_debit (rows : List WalletTransaction) :
    sumSuccessful .credit rows - sumSuccessful .debit rows =
      (rows.map WalletTransaction.signed).sum := by
  induction rows with
  | nil => rfl
  | cons r rows ih =>
      rw [List.map_cons, List.sum_cons, ← ih]
      by_cases hs : r.status = .successful
      · cases ht : r.type with
        | credit => simp [sumSuccessful, WalletTransaction.signed, hs, ht]; omega
        | debit => simp [sumSuccessful, WalletTransaction.signed, hs, ht]; omega
      · simp [sumSuccessful, WalletTransaction.signed, hs]

/-- The balance is the sum of the signed rows of the wallet. -/
theorem sumSuccessfulBalance_eq (d : Db) (walletId : String) :
    sumSuccessfulBalance d walletId = ((d.journalOf walletId).map WalletTransaction.signed).sum :=
  sumSuccessful_credit_sub_debit _

theorem sumSuccessfulBalance_congr {d d' : Db} {walletId : String}
    (h : d'.journalOf walletId = d.journalOf walletId) :
    sumSuccessfulBalance d' walletId = sumSuccessfulBalance d walletId := by
  rw [sumSuccessfulBalance, h, ← sumSuccessfulBalance]

/-- What a row adds to the balance of the given wallet. -/
def WalletTransaction.effect (r : WalletTransaction) (walletId : String) : ℤ :=
  if r.walletId = walletId then r.signed else 0

/-- The balance as a sum over the whole journal. -/
theorem sumSuccessfulBalance_eq_sum_effect (d : Db) (walletId : String) :
    sumSuccessfulBalance d walletId = (d.walletTransactions.map (·.effect walletId)).sum := by
  rw [sumSuccessfulBalance_eq, Db.journalOf]
  induction d.walletTransactions with
  | nil => rfl
  | cons r rows ih =>
      rw [List.map_cons, List.sum_cons, ← ih]
      by_cases hw : r.walletId = walletId
      · simp [WalletTransaction.effect, hw]
      · simp [WalletTransaction.effect, hw]

/-- New rows add their effect. -/
theorem sumSuccessfulBalance_append {d d' : Db} {rows : List WalletTransaction}
    (h : d'.walletTransactions = d.walletTransactions ++ rows) (walletId : String) :
    sumSuccessfulBalance d' walletId =
      sumSuccessfulBalance d walletId + (rows.map (·.effect walletId)).sum := by
  rw [sumSuccessfulBalance_eq_sum_effect, sumSuccessfulBalance_eq_sum_effect, h,
    List.map_append, List.sum_append]

/-- A row whose status changes adds the difference. -/
theorem sumSuccessfulBalance_update {d d' : Db} (hd : d.Unique) {r : WalletTransaction}
    {status : WalletTransactionStatus} (hr : r ∈ d.walletTransactions)
    (h : d' = (Write.updateWalletTransactionStatus r.id status).apply d) (walletId : String) :
    sumSuccessfulBalance d' walletId =
      sumSuccessfulBalance d walletId +
        ({ r with status }.effect walletId - r.effect walletId) := by
  obtain ⟨a, b, hrows, hrows'⟩ :=
    exists_update_eq hd.rowIds_nodup hr fun x : WalletTransaction => { x with status }
  have hrows'' : d'.walletTransactions = a ++ { r with status } :: b := by
    rw [h]
    exact hrows'
  rw [sumSuccessfulBalance_eq_sum_effect, sumSuccessfulBalance_eq_sum_effect, hrows, hrows'']
  simp only [List.map_append, List.map_cons, List.sum_append, List.sum_cons]
  omega

end WalletApi
