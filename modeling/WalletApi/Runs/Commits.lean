import WalletApi.Runs.Solo

/-!
Who has inserted a row of the journal.

The keys that a thread has committed can be read off its own exchanges: they are
the keys it was told it had written between the last `begin` and a `commit` that
was answered. The database knows each of them, and no two threads have committed
the same key, however their statements interleave.
-/

namespace WalletApi

open Concurrency ReadCommitted Machine

variable {P : Platform} {config : Config} {i j : ℕ} {c : Cmd} {ch : Choice} {s t : World}
  {tr : Trace} {k : String}

/-! ### Reading the exchanges -/

def Cmd.isCommit : Cmd → Bool
  | commit => true
  | _ => false

/-- The key of the journal row that the command inserts in a transaction. -/
def Cmd.inserts : Cmd → List String
  | write .tx (.createWalletTransaction row) => [row.idempotencyKey]
  | _ => []

/-- The answer has arrived. -/
def answered (x : Exchange signature) : Bool := x.result.isOk

/-- The keys of the rows that the thread has written in its open transaction, as
its exchanges tell, newest first. -/
def keysWritten : Trace → List String
  | [] => []
  | x :: tr =>
      if x.cmd.bounds then []
      else (if answered x then x.cmd.inserts else []) ++ keysWritten tr

/-- The keys of the rows that the thread has committed. -/
def keysCommitted : Trace → List String
  | [] => []
  | x :: tr =>
      (if x.cmd.isCommit && answered x then keysWritten tr else []) ++ keysCommitted tr

theorem Cmd.exists_of_mem_inserts (h : k ∈ c.inserts) :
    ∃ row, c = .write .tx (.createWalletTransaction row) ∧ row.idempotencyKey = k := by
  unfold Cmd.inserts at h
  split at h
  · exact ⟨_, rfl, (List.mem_singleton.mp h).symm⟩
  · cases h

theorem Cmd.eq_of_isCommit (h : c.isCommit = true) : c = .commit := by
  unfold Cmd.isCommit at h
  split at h
  · rfl
  · cases h

theorem exists_of_isOk {α : Type} {r : Except Err α} (h : r.isOk = true) : ∃ a, r = .ok a := by
  cases r with
  | ok a => exact ⟨a, rfl⟩
  | error e => cases h

theorem mem_keysWritten_cons {x : Exchange signature} (h : k ∈ keysWritten (x :: tr)) :
    (x.cmd.bounds = false ∧ k ∈ keysWritten tr) ∨ answered x = true ∧ k ∈ x.cmd.inserts := by
  rw [keysWritten] at h
  split at h
  · cases h
  · rename_i hbounds
    rcases List.mem_append.mp h with hnew | hold
    · split at hnew
      · rename_i hanswered
        exact .inr ⟨hanswered, hnew⟩
      · cases hnew
    · exact .inl ⟨Bool.eq_false_iff.mpr hbounds, hold⟩

theorem mem_keysCommitted_cons {x : Exchange signature} (h : k ∈ keysCommitted (x :: tr)) :
    k ∈ keysCommitted tr ∨ x.cmd.isCommit = true ∧ answered x = true ∧ k ∈ keysWritten tr := by
  rw [keysCommitted] at h
  rcases List.mem_append.mp h with hnew | hold
  · split at hnew
    · rename_i hcommit
      obtain ⟨hcommit, hanswered⟩ := Bool.and_eq_true_iff.mp hcommit
      exact .inr ⟨hcommit, hanswered, hnew⟩
    · cases hnew
  · exact .inl hold

namespace World

/-! ### What an answer tells -/

/-- A write inside of a transaction that is answered is in the buffer. -/
theorem staged_of_exec {w : Write} {r : Except Err w.Result} (hr : r.isOk = true)
    (h : exec P config i (.write .tx w) ch s = some (r, t)) :
    ∃ ws : List Write, t.store.opened i = some (ws ++ [w]) ∧ s.store.opened i = some ws := by
  obtain ⟨a, rfl⟩ := exists_of_isOk hr
  obtain ⟨s', hp, rfl⟩ := exec_eq_ok h
  rcases write_eq_some hp with ⟨-, code, -, hr⟩ | ⟨row, store, -, -, hstage, -, rfl⟩
  · cases hr
  · obtain ⟨ws, hopen, -, -, rfl⟩ := Store.stage_eq_done hstage
    exact ⟨ws, Function.update_self .., hopen⟩

/-- A commit that is answered has been carried out. -/
theorem committed_of_exec {r : Except Err Unit} (hr : r.isOk = true)
    (h : exec P config i .commit ch s = some (r, t)) :
    ∃ ws : List Write, s.store.opened i = some ws ∧ t.db = schema.applyAll ws s.db ∧
      t.store.opened i = none := by
  obtain ⟨a, rfl⟩ := exists_of_isOk hr
  obtain ⟨s', hp, rfl⟩ := exec_eq_ok h
  obtain ⟨store, hs, he⟩ := Option.map_eq_some_iff.mp hp
  cases he
  obtain ⟨ws, hopen, rfl⟩ := Store.commit_eq_some hs
  exact ⟨ws, hopen, rfl, Function.update_self ..⟩

/-- No entry of an index is ever removed. -/
theorem Stepped.keys {key : Key} (h : Stepped P config i s t) (hk : key ∈ s.db.keys) :
    key ∈ t.db.keys := by
  rcases h.store.db_eq with hdb | ⟨w, hw⟩ | hc
  · rw [db, hdb]
    exact hk
  · obtain ⟨-, -, ht⟩ := Store.write_eq_done hw
    have hperm : (t.db.keys).Perm (s.db.keys ++ w.keys) := by
      rw [db, ht]
      exact schema.index_apply w s.db
    exact hperm.mem_iff.mpr (List.mem_append_left _ hk)
  · obtain ⟨ws, -, ht⟩ := Store.commit_eq_some hc
    have hdb : t.db = schema.applyAll ws s.db := by rw [db, ht]; rfl
    rw [hdb]
    exact (Schema.mem_index_applyAll (T := schema)).mpr (.inl hk)

/-! ### The invariant -/

structure Attributed (s : World) : Prop where
  coherent : s.store.Coherent
  written : ∀ {i k} {ws : List Write}, s.store.opened i = some ws → k ∈ keysWritten (own i s.log) →
    ∃ row, .createWalletTransaction row ∈ ws ∧ row.idempotencyKey = k
  committed : ∀ {i k}, k ∈ keysCommitted (own i s.log) →
    Key.walletTransactionIdempotencyKey k ∈ s.db.keys
  unique : ∀ {i j k}, k ∈ keysCommitted (own i s.log) → k ∈ keysCommitted (own j s.log) → i = j

namespace Attributed

theorem initial : Attributed World.initial where
  coherent := Store.Coherent.ofDb _
  written hopen := by cases hopen
  committed hk := by cases hk
  unique hk := by cases hk

/-- What a thread has written is in its buffer, after its own step as well. -/
theorem written_exec {r : Except Err c.Resp} (hs : s.Attributed)
    (h : exec P config i c ch s = some (r, t)) {ws : List Write}
    (hopen : t.store.opened i = some ws) (hk : k ∈ keysWritten (⟨c, r⟩ :: own i s.log)) :
    ∃ row, .createWalletTransaction row ∈ ws ∧ row.idempotencyKey = k := by
  rcases mem_keysWritten_cons hk with ⟨hc, hk⟩ | ⟨hr, hk⟩
  · rcases exec_buffers h with ht | ⟨rfl, -, -⟩ | ⟨ws', w, -, hopen', ht⟩ | ⟨rfl | ⟨rfl, -⟩, -⟩
    · rw [ht] at hopen
      exact hs.written hopen hk
    · exact absurd hc (by nofun)
    · rw [ht, Function.update_self] at hopen
      cases hopen
      obtain ⟨row, hrow, hkey⟩ := hs.written hopen' hk
      exact ⟨row, List.mem_append_left _ hrow, hkey⟩
    · exact absurd hc (by nofun)
    · exact absurd hc (by nofun)
  · obtain ⟨row, rfl, hkey⟩ := Cmd.exists_of_mem_inserts hk
    obtain ⟨ws', hopen', -⟩ := staged_of_exec (show r.isOk = true from hr) h
    rw [hopen'] at hopen
    cases hopen
    exact ⟨row, List.mem_append_right _ (.head _), hkey⟩

/-- A key that a step commits is new to the database. -/
theorem committed_exec {r : Except Err c.Resp} (hs : s.Attributed)
    (h : exec P config i c ch s = some (r, t)) (hk : k ∈ keysCommitted (⟨c, r⟩ :: own i s.log)) :
    k ∈ keysCommitted (own i s.log) ∨
      Key.walletTransactionIdempotencyKey k ∉ s.db.keys ∧
        Key.walletTransactionIdempotencyKey k ∈ t.db.keys := by
  rcases mem_keysCommitted_cons hk with hk | ⟨hcommit, hr, hwritten⟩
  · exact .inl hk
  · obtain rfl := Cmd.eq_of_isCommit hcommit
    obtain ⟨ws, hopen, ht, -⟩ := committed_of_exec hr h
    obtain ⟨row, hrow, rfl⟩ := hs.written hopen hwritten
    refine .inr ⟨hs.coherent.notMem_index hopen hrow (.tail _ (.head _)), ?_⟩
    rw [ht]
    exact (Schema.mem_index_applyAll (T := schema)).mpr (.inr ⟨_, hrow, .tail _ (.head _)⟩)

theorem exec {r : Except Err c.Resp} (hs : s.Attributed)
    (h : exec P config i c ch s = some (r, t)) : t.Attributed := by
  have hlog := log_exec h
  have hstep : Stepped P config i s t := .inl ⟨c, ch, r, h⟩
  have hself : own i t.log = ⟨c, r⟩ :: own i s.log := by rw [hlog, own_cons_self]
  have hother : ∀ {j}, j ≠ i → own j t.log = own j s.log := fun hj => by
    rw [hlog, own_cons_of_ne (Ne.symm hj)]
  -- What a thread has committed is old, or the thread is the one that takes the step.
  have hnew : ∀ {j k}, k ∈ keysCommitted (own j t.log) → k ∈ keysCommitted (own j s.log) ∨
      j = i ∧ Key.walletTransactionIdempotencyKey k ∉ s.db.keys ∧
        Key.walletTransactionIdempotencyKey k ∈ t.db.keys := by
    intro j k hk
    by_cases hj : j = i
    · subst hj
      rw [hself] at hk
      exact (hs.committed_exec h hk).imp_right fun hkeys => ⟨rfl, hkeys⟩
    · rw [hother hj] at hk
      exact .inl hk
  refine ⟨hstep.store.coherent hs.coherent, fun {j k ws} hopen hk => ?_, fun {j k} hk => ?_,
    fun {j j' k} hk hk' => ?_⟩
  · by_cases hj : j = i
    · subst hj
      rw [hself] at hk
      exact hs.written_exec h hopen hk
    · rw [hother hj] at hk
      rw [hstep.store.owned.opened hj] at hopen
      exact hs.written hopen hk
  · rcases hnew hk with hold | ⟨-, -, hkeys⟩
    · exact hstep.keys (hs.committed hold)
    · exact hkeys
  · rcases hnew hk with hold | ⟨hj, hfresh, -⟩
    · rcases hnew hk' with hold' | ⟨-, hfresh, -⟩
      · exact hs.unique hold hold'
      · exact absurd (hs.committed hold) hfresh
    · rcases hnew hk' with hold' | ⟨hj', -, -⟩
      · exact absurd (hs.committed hold') hfresh
      · rw [hj, hj']

theorem crash (hs : s.Attributed) : (crash i s).Attributed where
  coherent := hs.coherent.rollback i
  written {j k ws} hopen hk := by
    by_cases hj : j = i
    · subst hj
      simp [World.crash, Store.rollback, Store.release] at hopen
    · refine hs.written ?_ hk
      simpa [World.crash, Store.rollback, Store.release, Function.update_of_ne hj] using hopen
  committed := hs.committed
  unique := hs.unique

end Attributed

end World

variable {A : Assumptions (walletApi P config)} {cfg : Machine.Config (walletApi P config)}

theorem attributed_of_reachable (h : Reachable A World.initial cfg) :
    World.Attributed cfg.state :=
  h.invariant .initial (fun _ he hs => hs.exec he) fun hs => hs.crash

end WalletApi
