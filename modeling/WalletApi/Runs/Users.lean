import WalletApi.Runs.Solo

/-!
What one step does to the row of a user.

Users are written by statements of their own, never in a transaction. So a step
leaves the row alone, creates it, or patches it, and in the last two cases the
event of the step is that statement.

The ids of the users and of their wallets are texts that a column can hold, since they
have been stored.
-/

namespace WalletApi

open Concurrency ReadCommitted Machine

variable {P : Platform} {config : Config} {i : ℕ} {id : String}

/-- What the step of the event does to the row of the user. -/
inductive UserStep (d d' : Db) (e : Event) (id : String) : Prop
  | same (h : d'.user id = d.user id)
  | created (user : User) (wallet : Wallet)
      (hcmd : e.cmd = .write .pool (.createUserWithWallet user wallet))
      (hnone : d.user id = none) (h : d'.user id = some user)
  | updated (data : UserUpdate) (user : User) (hcmd : e.cmd = .write .pool (.updateUser id data))
      (htook : e.took = true) (huser : d.user id = some user)
      (h : d'.user id = some (user.patch data))

theorem UserStep.of_write {d : Db} {w : Write} {e : Event} (hcmd : e.cmd = .write .pool w)
    (htook : e.took = true) : UserStep d (w.apply d) e id := by
  cases w with
  | createUserWithWallet user wallet =>
      have hrow := Db.user_append d id user wallet
      cases hfind : d.user id with
      | some u => exact .same (by rw [hrow, hfind, Option.some_or])
      | none =>
          by_cases hid : user.id = id
          · exact .created user wallet hcmd hfind (by rw [hrow, hfind, if_pos hid, Option.none_or])
          · exact .same (by rw [hrow, hfind, if_neg hid, Option.none_or])
  | updateUser id' data =>
      have hrow := Db.user_update d id id' data
      by_cases hid : id = id'
      · subst hid
        rw [if_pos rfl] at hrow
        cases hfind : d.user id with
        | none => exact .same (by rw [hrow, hfind, Option.map_none])
        | some u => exact .updated data u hcmd htook hfind (by rw [hrow, hfind, Option.map_some])
      · exact .same (by rw [hrow, if_neg hid])
  | _ => exact .same rfl

theorem UserStep.of_exec {c : Cmd} {ch : Choice} {s t : World} {r : Except Err c.Resp}
    (he : World.exec P config i c ch s = some (r, t))
    (hcommit : c = .commit → t.db.users = s.db.users) :
    ∃ took, t.history = ⟨i, c, r, took⟩ :: s.history ∧ UserStep s.db t.db ⟨i, c, r, took⟩ id := by
  obtain ⟨took, hh⟩ := World.exec_history he
  rcases World.exec_db he with hdb | ⟨w, rfl, hdb, hh'⟩ | ⟨rfl, ws, -, -⟩
  · exact ⟨took, hh, .same (by rw [hdb])⟩
  · exact ⟨true, hh', hdb ▸ .of_write rfl rfl⟩
  · refine ⟨took, hh, .same ?_⟩
    rw [Db.user, hcommit rfl, ← Db.user]

variable {A : Assumptions (walletApi P config)} {cfg cfg' : Machine.Config (walletApi P config)}

/-- The step by which an event happened. -/
theorem UserStep.of_happened (hA : ∀ call, A.admits call → Call.isApi call = true) {e : Event}
    (h : Happened A e cfg cfg') (id : String) :
    UserStep (World.db cfg.state) (World.db cfg'.state) e id := by
  obtain ⟨call, ch, -, he⟩ := h.exec
  obtain ⟨pid, cmd, result, took⟩ := e
  have hcommit : cmd = .commit → (World.db cfg'.state).users = (World.db cfg.state).users := by
    rintro rfl
    rcases World.exec_db he with hdb | ⟨w, hw, -⟩ | ⟨-, ws, hopen, hdb⟩
    · rw [hdb]
    · cases hw
    · rw [hdb]
      exact (tables_of_commit hA h.before hopen _).1
  obtain ⟨took', hh, hstep⟩ : ∃ took, World.history cfg'.state =
      ⟨pid, cmd, result, took⟩ :: World.history cfg.state ∧
        UserStep (World.db cfg.state) (World.db cfg'.state) ⟨pid, cmd, result, took⟩ id :=
    UserStep.of_exec he hcommit
  cases (List.cons.inj (hh.symm.trans h.history)).1
  exact hstep

/-- What the events of a run keep about the row of a user, the run keeps. -/
theorem user_of_run {I : Option User → Prop} (h : Reachable A World.initial cfg)
    (hrun : Run A cfg cfg') :
    ∀ {es : List Event}, World.history cfg'.state = es ++ World.history cfg.state →
      (∀ e ∈ es, ∀ {cfg₀ cfg₁ : Machine.Config (walletApi P config)}, Happened A e cfg₀ cfg₁ →
        I ((World.db cfg₀.state).user id) → I ((World.db cfg₁.state).user id)) →
      I ((World.db cfg.state).user id) → I ((World.db cfg'.state).user id) := by
  induction hrun with
  | refl => exact fun _ _ hI => hI
  | @tail mid last hmid hlast ih =>
      intro es hh hkeeps hI
      obtain ⟨a, hp, hn⟩ := hlast
      cases a with
      | spawn j call =>
          obtain ⟨-, rfl⟩ := next_spawn_iff.mp hn
          exact ih hh hkeeps hI
      | crash j =>
          obtain ⟨call, p, -, rfl⟩ := next_crash_iff.mp hn
          exact ih hh hkeeps hI
      | step j ch =>
          obtain ⟨e, -, hhappened⟩ := Happened.of_step (h.run hmid) hp hn
          obtain ⟨es', hes'⟩ := history_of_run hmid
          have hsplit : es = e :: es' := by
            rw [hhappened.history, hes', ← List.cons_append] at hh
            exact (List.append_cancel_right hh).symm
          subst hsplit
          have hbefore : I ((World.db mid.state).user id) :=
            ih hes' (fun e' he' => hkeeps e' (.tail _ he')) hI
          exact hkeeps e (.head _) hhappened hbefore

/-! ### Ids -/

/-- The ids of the users and the wallets are texts that a column can hold. -/
structure Db.Identified (d : Db) : Prop where
  users : ∀ user ∈ d.users, isColumnText user.id = true
  wallets : ∀ x ∈ d.wallets, isColumnText x.id = true

theorem Db.Identified.updateUser {d : Db} (h : d.Identified) (id : String) (data : UserUpdate) :
    ((Write.updateUser id data).apply d).Identified := by
  refine ⟨fun user hmem => ?_, h.wallets⟩
  obtain ⟨user', hmem', rfl⟩ := List.mem_map.mp hmem
  split
  · exact h.users user' hmem'
  · exact h.users user' hmem'

theorem Db.Identified.apply {d : Db} {w : Write} (h : d.Identified) (hstorable : w.storable = true) :
    (w.apply d).Identified := by
  cases w with
  | createUserWithWallet user wallet =>
      have htexts := (Write.storable_iff.mp hstorable).2
      refine ⟨fun user' hmem => ?_, fun x hmem => ?_⟩
      · rcases List.mem_append.mp hmem with hold | hnew
        · exact h.users user' hold
        · rw [List.mem_singleton.mp hnew]
          exact htexts _ (.head _)
      · rcases List.mem_append.mp hmem with hold | hnew
        · exact h.wallets x hold
        · rw [List.mem_singleton.mp hnew]
          exact htexts wallet.id (by simp [Write.texts])
  | updateUser id data => exact h.updateUser id data
  | _ => exact ⟨h.users, h.wallets⟩

theorem identified_of_reachable (hA : ∀ call, A.admits call → Call.isApi call = true)
    (h : Reachable A World.initial cfg) : (World.db cfg.state).Identified := by
  induction h with
  | initial => exact ⟨fun _ hmem => absurd hmem List.not_mem_nil, fun _ hmem => absurd hmem List.not_mem_nil⟩
  | @next cfg cfg' a hr hp hn ih =>
      cases a with
      | spawn j call =>
          obtain ⟨-, rfl⟩ := next_spawn_iff.mp hn
          exact ih
      | crash j =>
          obtain ⟨call, p, -, rfl⟩ := next_crash_iff.mp hn
          exact ih
      | step j ch =>
          obtain ⟨call, c, k, r, t, -, he, rfl⟩ := next_step_iff.mp hn
          by_cases hsame : t.db = (World.db cfg.state)
          · exact hsame ▸ ih
          rcases World.exec_db he with hdb | ⟨w, rfl, hdb, -⟩ | ⟨rfl, ws, hopen, hdb⟩
          · exact absurd hdb hsame
          · exact hdb ▸ ih.apply (World.storable_of_exec he hsame)
          · obtain ⟨husers, hwallets, -⟩ := tables_of_commit hA hr hopen (World.db cfg.state)
            rw [← hdb] at husers hwallets
            exact ⟨husers ▸ ih.users, hwallets ▸ ih.wallets⟩

end WalletApi
