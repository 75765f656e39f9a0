import WalletApi.Runs.Rows

/-!
What one step of a thread can do to the world.

Whatever the command and whatever the fault, the store makes at most one
statement of the thread, the history grows by one event, and the database grows.
Most commands are quiet: they change neither the committed database nor the
books of the provider.
-/

namespace WalletApi

open Concurrency ReadCommitted

/-- Commands that leave the committed database and the provider alone. -/
def Cmd.quiet : Cmd → Bool
  | write .pool _ | commit | initiateBankTransfer _ | finishBankTransfer .. => false
  | _ => true

/-- Commands that change the books of the provider. -/
def Cmd.atProvider : Cmd → Bool
  | initiateBankTransfer _ | finishBankTransfer .. => true
  | _ => false

/-- An event that changed neither the committed rows by a statement outside of
a transaction nor the books of the provider. -/
def Event.Quiet (e : Event) : Prop :=
  match e.cmd with
  | .write .pool _ => e.took = false
  | .initiateBankTransfer _ | .finishBankTransfer .. => False
  | _ => True

namespace World

variable {P : Platform} {config : Config} {i j : ℕ} {c : Cmd} {ch : Choice} {s t u : World}

@[simp] theorem store_record (s : World) (e : Event) : (s.record e).store = s.store := rfl

@[simp] theorem db_record (s : World) (e : Event) : (s.record e).db = s.db := rfl

@[simp] theorem bank_record (s : World) (e : Event) : (s.record e).bank = s.bank := rfl

@[simp] theorem history_record (s : World) (e : Event) :
    (s.record e).history = e :: s.history := rfl

/-- From `s` to `t` at most one quiet event has happened. -/
structure Quiet (s t : World) : Prop where
  db : t.db = s.db
  bank : t.bank = s.bank
  history : t.history = s.history ∨ ∃ e : Event, e.Quiet ∧ t.history = e :: s.history

/-! ### Commands that go through -/

/-- Why a write is turned down. -/
def Rejects (s : World) (i : ℕ) (client : Client) (data : Write) : PrismaCode → Prop
  | .valueOutOfRange => data.inRange = false
  | .invalidText => data.storable = false
  | .recordNotFound => data.result (s.view i client) = none
  | .uniqueConstraint => s.stage i data client = .conflict

theorem write_eq_some {client : Client} {data : Write} {r : Except Err data.Result}
    (h : s.write i client data = some (r, t)) :
    (t = s ∧ ∃ code, s.Rejects i client data code ∧ r = .error (.prisma code)) ∨
      ∃ row store, data.storable = true ∧ data.result (s.view i client) = some row ∧
        s.stage i data client = .done store ∧ r = .ok row ∧ t = { s with store } := by
  simp only [World.write] at h
  split at h
  · rename_i hrange
    cases h
    exact .inl ⟨rfl, .valueOutOfRange, hrange, rfl⟩
  · split at h
    · rename_i hstorable
      cases h
      exact .inl ⟨rfl, .invalidText, hstorable, rfl⟩
    · rename_i hstorable
      split at h
      · rename_i hnone
        cases h
        exact .inl ⟨rfl, .recordNotFound, hnone, rfl⟩
      · rename_i row hrow
        split at h
        · cases h
        · rename_i hconflict
          cases h
          exact .inl ⟨rfl, .uniqueConstraint, hconflict, rfl⟩
        · rename_i store hstage
          cases h
          exact .inr ⟨row, store, eq_true_of_ne_false hstorable, hrow, hstage, rfl, rfl⟩

/-- A write that the columns can hold, whose row is there and whose entries are new. -/
theorem write_of_stage {client : Client} {data : Write} {row : data.Result} {store : Store schema}
    (hstorable : data.storable = true) (hrow : data.result (s.view i client) = some row)
    (hstage : s.stage i data client = .done store) :
    s.write i client data = some (.ok row, { s with store }) := by
  have hrange := (Write.storable_iff.mp hstorable).1
  simp only [World.write, hrange, hstorable, hrow, hstage]
  rfl

/-- A write that they cannot hold changes nothing. -/
theorem write_of_not_storable {client : Client} {data : Write} (h : data.storable = false) :
    s.write i client data = some (.error (.prisma
      (if data.inRange then .invalidText else .valueOutOfRange)), s) := by
  unfold World.write
  cases hrange : data.inRange with
  | false => rfl
  | true => rw [if_neg nofun, if_pos h]; rfl

/-- A write that need not wait is answered. -/
theorem isSome_write {client : Client} {w : Write} (h : s.stage i w client ≠ .blocked) :
    (s.write i client w).isSome := by
  unfold World.write
  split
  · rfl
  · split
    · rfl
    · split
      · rfl
      · split
        · exact absurd (by assumption) h
        · rfl
        · rfl

theorem lockWalletRow_eq_some {walletId : String} {r : Except Err Bool}
    (h : s.lockWalletRow i walletId = some (r, t)) :
    (r = .ok false ∧ t = s ∧ ∀ w ∈ s.db.wallets, w.id ≠ walletId) ∨
      ∃ store, (∃ w ∈ s.db.wallets, w.id = walletId) ∧ s.store.lock i walletId = some store ∧
        r = .ok true ∧ t = { s with store } := by
  simp only [World.lockWalletRow] at h
  split at h
  · rename_i hw
    obtain ⟨store, hs, he⟩ := Option.map_eq_some_iff.mp h
    cases he
    refine .inr ⟨store, ?_, hs, rfl, rfl⟩
    simpa only [List.any_eq_true, decide_eq_true_eq] using hw
  · rename_i hw
    cases h
    refine .inl ⟨rfl, rfl, ?_⟩
    simpa only [List.any_eq_true, decide_eq_true_eq, not_exists, not_and] using hw

/-- What carrying out a command leaves alone. -/
structure Performed (i : ℕ) (c : Cmd) (s t : World) : Prop where
  store : Store.Step i s.store t.store
  history : t.history = s.history
  db : c.quiet → t.db = s.db
  bank : c.atProvider = false → t.bank = s.bank

theorem Performed.of_eq (hstore : t.store = s.store) (hbank : t.bank = s.bank)
    (hhistory : t.history = s.history) : Performed i c s t where
  store := hstore ▸ .none _
  history := hhistory
  db _ := congrArg Store.db hstore
  bank _ := hbank

theorem performed {r : Except Err c.Resp} (h : perform P config i c ch s = some (r, t)) :
    Performed i c s t := by
  cases c with
  | write client data =>
      rcases write_eq_some h with ⟨rfl, -⟩ | ⟨row, store, -, -, hstage, -, rfl⟩
      · exact .of_eq rfl rfl rfl
      · cases client with
        | pool => exact ⟨.write hstage, rfl, nofun, fun _ => rfl⟩
        | tx =>
            obtain ⟨ws, -, -, -, rfl⟩ := Store.stage_eq_done hstage
            exact ⟨.stage hstage, rfl, fun _ => rfl, fun _ => rfl⟩
  | lockWalletRow walletId =>
      rcases lockWalletRow_eq_some h with ⟨-, rfl, -⟩ | ⟨store, -, hs, -, rfl⟩
      · exact .of_eq rfl rfl rfl
      · obtain ⟨-, -, rfl⟩ := Store.lock_eq_some hs
        exact ⟨.lock hs, rfl, fun _ => rfl, fun _ => rfl⟩
  | begin =>
      obtain ⟨store, hs, he⟩ := Option.map_eq_some_iff.mp h
      cases he
      obtain ⟨-, rfl⟩ := Store.begin_eq_some hs
      exact ⟨.begin hs, rfl, fun _ => rfl, fun _ => rfl⟩
  | commit =>
      obtain ⟨store, hs, he⟩ := Option.map_eq_some_iff.mp h
      cases he
      exact ⟨.commit hs, rfl, nofun, fun _ => rfl⟩
  | rollback =>
      cases h
      exact ⟨.rollback _, rfl, fun _ => rfl, fun _ => rfl⟩
  | takeJob queue =>
      obtain ⟨job, -, he⟩ := Option.map_eq_some_iff.mp h
      cases he
      exact .of_eq rfl rfl rfl
  | queueAdd job =>
      cases h
      simp only [World.queueAdd]
      split <;> exact .of_eq rfl rfl rfl
  | initiatePayment params =>
      simp only [perform] at h
      split at h <;> cases h <;> exact .of_eq rfl rfl rfl
  | verifyByTxRef txRef =>
      simp only [perform] at h
      split at h <;> cases h <;> exact .of_eq rfl rfl rfl
  | getBankTransferStatus transferId =>
      simp only [perform] at h
      split at h <;> cases h <;> exact .of_eq rfl rfl rfl
  | initiateBankTransfer params =>
      simp only [perform] at h
      split at h <;> cases h <;> exact ⟨.none _, rfl, nofun, nofun⟩
  | finishBankTransfer transferId state =>
      cases h
      exact ⟨.none _, rfl, nofun, nofun⟩
  | select client q => cases h; exact .of_eq rfl rfl rfl
  | defaults => cases h; exact .of_eq rfl rfl rfl
  | randomUUID => cases h; exact .of_eq rfl rfl rfl
  | now => cases h; exact .of_eq rfl rfl rfl
  | bcryptHash password => cases h; exact .of_eq rfl rfl rfl
  | bcryptCompare password hash => cases h; exact .of_eq rfl rfl rfl
  | completeJob queue jobId => cases h; exact .of_eq rfl rfl rfl
  | failJob queue jobId => cases h; exact .of_eq rfl rfl rfl

/-- A command that does not leave the process gives an answer. -/
theorem perform_infallible {r : Except Err c.Resp} (hc : c.fallible config = false)
    (h : perform P config i c ch s = some (r, t)) : ∃ a, r = .ok a := by
  have mock (h : (!config.useMock) = false) : config.useMock = true := by simpa using h
  cases c with
  | initiatePayment params | verifyByTxRef txRef | initiateBankTransfer params
  | getBankTransferStatus transferId =>
      simp only [perform, mock hc, if_true] at h
      cases h
      exact ⟨_, rfl⟩
  | takeJob queue =>
      obtain ⟨job, -, he⟩ := Option.map_eq_some_iff.mp h
      cases he
      exact ⟨_, rfl⟩
  | rollback => cases h; exact ⟨_, rfl⟩
  | defaults => cases h; exact ⟨_, rfl⟩
  | randomUUID => cases h; exact ⟨_, rfl⟩
  | now => cases h; exact ⟨_, rfl⟩
  | bcryptHash password => cases h; exact ⟨_, rfl⟩
  | bcryptCompare password hash => cases h; exact ⟨_, rfl⟩
  | completeJob queue jobId => cases h; exact ⟨_, rfl⟩
  | failJob queue jobId => cases h; exact ⟨_, rfl⟩
  | finishBankTransfer transferId state => cases h; exact ⟨_, rfl⟩
  | _ => cases hc

/-- No command takes longer than until the time at which it happens. -/
theorem perform_clock {r : Except Err c.Resp} (h : perform P config i c ch s = some (r, t)) :
    t.clock = s.clock ∨ t.clock = max s.clock ch.time := by
  cases c with
  | write client data =>
      rcases write_eq_some h with ⟨rfl, -⟩ | ⟨row, store, -, -, -, -, rfl⟩ <;> exact .inl rfl
  | lockWalletRow walletId =>
      rcases lockWalletRow_eq_some h with ⟨-, rfl, -⟩ | ⟨store, -, -, -, rfl⟩ <;> exact .inl rfl
  | begin =>
      obtain ⟨store, -, he⟩ := Option.map_eq_some_iff.mp h
      cases he
      exact .inl rfl
  | commit =>
      obtain ⟨store, -, he⟩ := Option.map_eq_some_iff.mp h
      cases he
      exact .inl rfl
  | takeJob queue =>
      obtain ⟨job, -, he⟩ := Option.map_eq_some_iff.mp h
      cases he
      exact .inl rfl
  | queueAdd job =>
      cases h
      simp only [World.queueAdd]
      split <;> exact .inl rfl
  | initiatePayment params =>
      simp only [perform] at h
      split at h <;> cases h <;> exact .inl rfl
  | verifyByTxRef txRef =>
      simp only [perform] at h
      split at h <;> cases h <;> exact .inl rfl
  | getBankTransferStatus transferId =>
      simp only [perform] at h
      split at h <;> cases h <;> exact .inl rfl
  | initiateBankTransfer params =>
      simp only [perform] at h
      split at h <;> cases h <;> exact .inl rfl
  | now => cases h; exact .inr rfl
  | rollback => cases h; exact .inl rfl
  | finishBankTransfer transferId state => cases h; exact .inl rfl
  | select client q => cases h; exact .inl rfl
  | defaults => cases h; exact .inl rfl
  | randomUUID => cases h; exact .inl rfl
  | bcryptHash password => cases h; exact .inl rfl
  | bcryptCompare password hash => cases h; exact .inl rfl
  | completeJob queue jobId => cases h; exact .inl rfl
  | failJob queue jobId => cases h; exact .inl rfl

/-! ### Faults -/

/-- A command fails without effect, or is carried out and answered, or is
carried out and its answer lost. -/
theorem exec_eq_some {r : Except Err c.Resp} (h : exec P config i c ch s = some (r, t)) :
    (c.fallible config = true ∧ ch.fault = .failed ∧ r = .error .network ∧
        t = s.record ⟨i, c, .error .network, false⟩) ∨
      ∃ r' s', perform P config i c ch s = some (r', s') ∧
        (r = r' ∨ c.fallible config = true ∧ ch.fault = .lost ∧ r = .error .network) ∧
        t = s'.record ⟨i, c, r, r'.isOk⟩ := by
  simp only [exec] at h
  split at h
  · rename_i hf
    cases h
    exact .inl ⟨hf.1, hf.2, rfl, rfl⟩
  · obtain ⟨⟨r', s'⟩, hp, he⟩ := Option.map_eq_some_iff.mp h
    refine .inr ⟨r', s', hp, ?_⟩
    dsimp only at he
    split at he
    · rename_i hf
      cases he
      exact ⟨.inr ⟨hf.1, hf.2, rfl⟩, rfl⟩
    · cases he
      exact ⟨.inl rfl, rfl⟩

/-- An answer that arrives is the answer of a command that went through. -/
theorem fault_of_exec_ok {a : c.Resp} (hc : c.fallible config = true)
    (h : exec P config i c ch s = some (.ok a, t)) : ch.fault = .none := by
  cases hf : ch.fault with
  | none => rfl
  | failed => simp [exec, hc, hf] at h
  | lost => simp [exec, hc, hf] at h

/-- A command that was carried out did reach the other side. -/
theorem fault_of_took {r : Except Err c.Resp} {es : List Event}
    (h : exec P config i c ch s = some (r, t)) (ht : t.history = ⟨i, c, r, true⟩ :: es)
    (hc : c.fallible config = true) : ch.fault ≠ .failed := by
  intro hf
  simp only [exec, hc, hf, and_self, if_true, Option.some.injEq, Prod.mk.injEq] at h
  obtain ⟨-, rfl⟩ := h
  cases ht

/-- A command that does not leave the process does not fail. -/
theorem exec_infallible {r : Except Err c.Resp} (hc : c.fallible config = false)
    (h : exec P config i c ch s = some (r, t)) :
    ∃ s', perform P config i c ch s = some (r, s') ∧ t = s'.record ⟨i, c, r, r.isOk⟩ := by
  rcases exec_eq_some h with ⟨hf, -⟩ | ⟨r', s', hp, hr | ⟨hf, -⟩, ht⟩
  · simp [hc] at hf
  · subst hr
    exact ⟨s', hp, ht⟩
  · simp [hc] at hf

theorem exec_store {r : Except Err c.Resp} (h : exec P config i c ch s = some (r, t)) :
    Store.Step i s.store t.store := by
  rcases exec_eq_some h with ⟨-, -, -, rfl⟩ | ⟨r', s', hp, -, rfl⟩
  · exact .none _
  · exact (performed hp).store

/-- A command that has been answered was carried out. -/
theorem exec_eq_ok {a : c.Resp} (h : exec P config i c ch s = some (.ok a, t)) :
    ∃ s', perform P config i c ch s = some (.ok a, s') ∧ t = s'.record ⟨i, c, .ok a, true⟩ := by
  rcases exec_eq_some h with ⟨-, -, hr, -⟩ | ⟨r', s', hp, hr | ⟨-, -, hr⟩, rfl⟩
  · cases hr
  · cases hr
    exact ⟨s', hp, rfl⟩
  · cases hr

theorem exec_history {r : Except Err c.Resp} (h : exec P config i c ch s = some (r, t)) :
    ∃ took, t.history = ⟨i, c, r, took⟩ :: s.history := by
  rcases exec_eq_some h with ⟨-, -, rfl, rfl⟩ | ⟨r', s', hp, -, rfl⟩
  · exact ⟨_, rfl⟩
  · exact ⟨_, by rw [history_record, (performed hp).history]⟩

theorem exec_mem_history {r : Except Err c.Resp} (h : exec P config i c ch s = some (r, t)) :
    ∃ took, (⟨i, c, r, took⟩ : Event) ∈ t.history := by
  obtain ⟨took, ht⟩ := exec_history h
  exact ⟨took, ht ▸ .head _⟩

theorem exec_quiet {r : Except Err c.Resp} (hc : c.quiet = true)
    (h : exec P config i c ch s = some (r, t)) : Quiet s t := by
  have hprovider : c.atProvider = false := by cases c <;> first | rfl | cases hc
  have hquiet : ∀ e : Event, e.cmd = c → e.Quiet := by
    rintro ⟨pid, cmd, result, took⟩ rfl
    simp only [Event.Quiet]
    split <;> simp_all [Cmd.quiet]
  rcases exec_eq_some h with ⟨-, -, rfl, rfl⟩ | ⟨r', s', hp, -, rfl⟩
  · exact ⟨rfl, rfl, .inr ⟨_, hquiet _ rfl, rfl⟩⟩
  · have hp := performed hp
    exact ⟨hp.db hc, hp.bank hprovider, .inr ⟨_, hquiet _ rfl, by rw [history_record, hp.history]⟩⟩

/-- The calls that change the books of the provider leave the tables alone. -/
theorem exec_db_of_provider {r : Except Err c.Resp}
    (hc : (∃ params, c = .initiateBankTransfer params) ∨
      ∃ transferId state, c = .finishBankTransfer transferId state)
    (h : exec P config i c ch s = some (r, t)) : t.db = s.db := by
  rcases exec_eq_some h with ⟨-, -, -, rfl⟩ | ⟨r', s', hp, -, rfl⟩
  · rfl
  · rcases hc with ⟨params, rfl⟩ | ⟨transferId, state, rfl⟩
    · simp only [perform] at hp
      split at hp <;> cases hp <;> rfl
    · cases hp
      rfl

/-- How a command changes the committed database. -/
theorem exec_db {r : Except Err c.Resp} (h : exec P config i c ch s = some (r, t)) :
    t.db = s.db ∨
      (∃ w, c = .write .pool w ∧ t.db = w.apply s.db ∧
        t.history = ⟨i, c, r, true⟩ :: s.history) ∨
      (c = .commit ∧ ∃ ws, s.store.opened i = some ws ∧ t.db = schema.applyAll ws s.db) := by
  by_cases hquiet : c.quiet = true
  · exact .inl (exec_quiet hquiet h).db
  rcases exec_eq_some h with ⟨-, -, -, rfl⟩ | ⟨r', s', hp, -, rfl⟩
  · exact .inl rfl
  cases c with
  | write client data =>
      rcases write_eq_some hp with ⟨rfl, -⟩ | ⟨row, store, -, -, hstage, rfl, rfl⟩
      · exact .inl rfl
      · cases client with
        | pool =>
            obtain ⟨-, -, rfl⟩ := Store.write_eq_done hstage
            exact .inr (.inl ⟨data, rfl, rfl, rfl⟩)
        | tx => exact absurd rfl hquiet
  | commit =>
      obtain ⟨store, hs, he⟩ := Option.map_eq_some_iff.mp hp
      cases he
      obtain ⟨ws, hopen, rfl⟩ := Store.commit_eq_some hs
      exact .inr (.inr ⟨rfl, ws, hopen, rfl⟩)
  | initiateBankTransfer params => exact .inl (exec_db_of_provider (.inl ⟨_, rfl⟩) h)
  | finishBankTransfer transferId state =>
      exact .inl (exec_db_of_provider (.inr ⟨_, _, rfl⟩) h)
  | _ => exact absurd rfl hquiet

/-- A write outside of a transaction is turned down or carried out. -/
theorem exec_write_pool {w : Write} {r : Except Err w.Result}
    (h : exec P config i (.write .pool w) ch s = some (r, t)) :
    (t.db = s.db ∧ t.history = ⟨i, .write .pool w, r, false⟩ :: s.history) ∨
      t.db = w.apply s.db ∧ t.history = ⟨i, .write .pool w, r, true⟩ :: s.history := by
  rcases exec_eq_some h with ⟨-, -, rfl, rfl⟩ | ⟨r', s', hp, -, rfl⟩
  · exact .inl ⟨rfl, rfl⟩
  rcases write_eq_some hp with ⟨rfl, code, -, rfl⟩ | ⟨row, store, -, -, hstage, rfl, rfl⟩
  · exact .inl ⟨rfl, rfl⟩
  · obtain ⟨-, -, rfl⟩ := Store.write_eq_done hstage
    exact .inr ⟨rfl, rfl⟩

/-- The columns can hold what has changed the tables. -/
theorem storable_of_exec {w : Write} {r : Except Err w.Result}
    (h : exec P config i (.write .pool w) ch s = some (r, t)) (hdb : t.db ≠ s.db) :
    w.storable = true := by
  rcases exec_eq_some h with ⟨-, -, -, rfl⟩ | ⟨r', s', hp, -, rfl⟩
  · exact absurd rfl hdb
  · rcases write_eq_some hp with ⟨rfl, -⟩ | ⟨row, store, hstorable, -⟩
    · exact absurd rfl hdb
    · exact hstorable

/-- A lookup that is answered. -/
theorem select_of_exec {client : Client} {q : Query} {a : q.Result}
    (h : exec P config i (.select client q) ch s = some (.ok a, t)) :
    a = q.run (s.view i client) := by
  obtain ⟨s', hp, -⟩ := exec_eq_ok h
  exact (Except.ok.inj (Prod.ext_iff.mp (Option.some.inj hp)).1).symm

/-- A write outside of a transaction that is answered. -/
theorem write_of_exec {w : Write} {a : w.Result}
    (h : exec P config i (.write .pool w) ch s = some (.ok a, t)) :
    w.result s.db = some a ∧ t.db = w.apply s.db := by
  obtain ⟨s', hp, rfl⟩ := exec_eq_ok h
  rcases write_eq_some hp with ⟨-, code, -, hr⟩ | ⟨row, store, -, hrow, hstage, hr, rfl⟩
  · cases hr
  · obtain ⟨-, -, rfl⟩ := Store.write_eq_done hstage
    cases hr
    exact ⟨hrow, rfl⟩

/-- How a command changes the buffers: the transaction of its thread begins, makes
one more write, or ends. -/
theorem exec_buffers {r : Except Err c.Resp} (h : exec P config i c ch s = some (r, t)) :
    t.store.opened = s.store.opened ∨
      (c = .begin ∧ s.store.opened i = none ∧
        t.store.opened = Function.update s.store.opened i (some [])) ∨
      (∃ (ws : List Write) (w : Write), c = .write .tx w ∧ s.store.opened i = some ws ∧
        t.store.opened = Function.update s.store.opened i (some (ws ++ [w]))) ∨
      (c = .rollback ∨ c = .commit ∧ ∃ ws, s.store.opened i = some ws ∧
        t.db = schema.applyAll ws s.db) ∧
        t.store.opened = Function.update s.store.opened i none := by
  rcases exec_eq_some h with ⟨-, -, -, rfl⟩ | ⟨r', s', hp, -, rfl⟩
  · exact .inl rfl
  cases c with
  | write client data =>
      rcases write_eq_some hp with ⟨rfl, -⟩ | ⟨row, store, -, -, hstage, -, rfl⟩
      · exact .inl rfl
      · cases client with
        | pool =>
            obtain ⟨-, -, rfl⟩ := Store.write_eq_done hstage
            exact .inl rfl
        | tx =>
            obtain ⟨ws, hopen, -, -, rfl⟩ := Store.stage_eq_done hstage
            exact .inr (.inr (.inl ⟨ws, data, rfl, hopen, rfl⟩))
  | lockWalletRow walletId =>
      rcases lockWalletRow_eq_some hp with ⟨-, rfl, -⟩ | ⟨store, -, hs, -, rfl⟩
      · exact .inl rfl
      · obtain ⟨-, -, rfl⟩ := Store.lock_eq_some hs
        exact .inl rfl
  | begin =>
      obtain ⟨store, hs, he⟩ := Option.map_eq_some_iff.mp hp
      cases he
      obtain ⟨hnone, rfl⟩ := Store.begin_eq_some hs
      exact .inr (.inl ⟨rfl, hnone, rfl⟩)
  | commit =>
      obtain ⟨store, hs, he⟩ := Option.map_eq_some_iff.mp hp
      cases he
      obtain ⟨ws, hopen, rfl⟩ := Store.commit_eq_some hs
      exact .inr (.inr (.inr ⟨.inr ⟨rfl, ws, hopen, rfl⟩, rfl⟩))
  | rollback =>
      cases hp
      exact .inr (.inr (.inr ⟨.inl rfl, rfl⟩))
  | takeJob queue =>
      obtain ⟨job, -, he⟩ := Option.map_eq_some_iff.mp hp
      cases he
      exact .inl rfl
  | queueAdd job =>
      cases hp
      simp only [World.queueAdd]
      split <;> exact .inl rfl
  | initiatePayment params =>
      simp only [perform] at hp
      split at hp <;> cases hp <;> exact .inl rfl
  | verifyByTxRef txRef =>
      simp only [perform] at hp
      split at hp <;> cases hp <;> exact .inl rfl
  | getBankTransferStatus transferId =>
      simp only [perform] at hp
      split at hp <;> cases hp <;> exact .inl rfl
  | initiateBankTransfer params =>
      simp only [perform] at hp
      split at hp <;> cases hp <;> exact .inl rfl
  | _ => cases hp; exact .inl rfl

/-- So whatever is in a buffer was there before, or is the write of the command. -/
theorem exec_opened {r : Except Err c.Resp} (h : exec P config i c ch s = some (r, t)) {ws : List Write}
    (hopen : t.store.opened j = some ws) :
    s.store.opened j = some ws ∨ ws = [] ∨
      j = i ∧ ∃ (ws' : List Write) (w : Write), s.store.opened j = some ws' ∧ c = .write .tx w ∧
        ws = ws' ++ [w] := by
  have updated {o : Option (List schema.Write)}
      (ht : t.store.opened = Function.update s.store.opened i o) :
      s.store.opened j = some ws ∨ j = i ∧ o = some ws := by
    rw [ht] at hopen
    by_cases hj : j = i
    · subst hj
      rw [Function.update_self] at hopen
      exact .inr ⟨rfl, hopen⟩
    · rw [Function.update_of_ne hj] at hopen
      exact .inl hopen
  rcases exec_buffers h with ht | ⟨-, -, ht⟩ | ⟨ws', w, hc, hopen', ht⟩ | ⟨-, ht⟩
  · rw [ht] at hopen
    exact .inl hopen
  · rcases updated ht with hold | ⟨-, ho⟩
    · exact .inl hold
    · exact .inr (.inl (Option.some.inj ho).symm)
  · rcases updated ht with hold | ⟨rfl, ho⟩
    · exact .inl hold
    · exact .inr (.inr ⟨rfl, ws', w, hopen', hc, (Option.some.inj ho).symm⟩)
  · rcases updated ht with hold | ⟨-, ho⟩
    · exact .inl hold
    · cases ho

/-- Whatever is in a buffer satisfies the predicate. -/
def Staged (p : ℕ → Write → Prop) (s : World) : Prop :=
  ∀ j (ws : List Write), s.store.opened j = some ws → ∀ w ∈ ws, p j w

theorem Staged.exec {p p' : ℕ → Write → Prop} {r : Except Err c.Resp} (hs : s.Staged p)
    (h : exec P config i c ch s = some (r, t)) (hp : ∀ j w, p j w → p' j w)
    (hw : ∀ w, c = .write .tx w → p' i w) : t.Staged p' := by
  intro j ws hopen w hmem
  rcases exec_opened h hopen with hold | rfl | ⟨rfl, ws', w', hold, hc, rfl⟩
  · exact hp j w (hs j ws hold w hmem)
  · exact absurd hmem List.not_mem_nil
  · rcases List.mem_append.mp hmem with hmem | hmem
    · exact hp j w (hs j ws' hold w hmem)
    · rw [List.mem_singleton.mp hmem]
      exact hw w' hc

theorem Staged.crash {p : ℕ → Write → Prop} (hs : s.Staged p) : (crash i s).Staged p := by
  intro j ws hopen w hmem
  by_cases hj : j = i
  · subst hj
    simp [World.crash, Store.rollback, Store.release] at hopen
  · refine hs j ws ?_ w hmem
    simpa [World.crash, Store.rollback, Store.release, Function.update_of_ne hj] using hopen

/-- What every write of a buffer keeps, the commit keeps. -/
theorem applyAll_keeps {p : Write → Prop} {I : Db → Prop} (hI : ∀ w d, p w → I d → I (w.apply d))
    {ws : List Write} (hws : ∀ w ∈ ws, p w) {d : Db} (h : I d) : I (schema.applyAll ws d) := by
  induction ws generalizing d with
  | nil => exact h
  | cons w ws ih =>
      exact ih (fun w' hw' => hws w' (.tail _ hw')) (hI w d (hws w (.head _)) h)

/-! ### Steps of a thread -/

variable (P config) in
/-- One step of thread `i`, or its end. -/
def Stepped (i : ℕ) (s t : World) : Prop :=
  (∃ c ch r, exec P config i c ch s = some (r, t)) ∨ t = crash i s

namespace Stepped

theorem store (h : Stepped P config i s t) : Store.Step i s.store t.store := by
  rcases h with ⟨c, ch, r, h⟩ | rfl
  · exact exec_store h
  · exact .rollback _

theorem grows (h : Stepped P config i s t) : s.db.Grows t.db := by
  rcases h.store.db_eq with hdb | ⟨w, hw⟩ | hc
  · rw [db, db, hdb]
    exact .refl _
  · obtain ⟨-, -, ht⟩ := Store.write_eq_done hw
    rw [db, db, ht]
    exact .apply w _
  · obtain ⟨ws, -, ht⟩ := Store.commit_eq_some hc
    rw [db, db, ht]
    exact .applyAll ws _

theorem history (h : Stepped P config i s t) : ∃ es, t.history = es ++ s.history := by
  rcases h with ⟨c, ch, r, h⟩ | rfl
  · obtain ⟨took, ht⟩ := exec_history h
    exact ⟨[_], ht⟩
  · exact ⟨[], rfl⟩

end Stepped

end World

end WalletApi
