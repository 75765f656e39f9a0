import WalletApi.Concurrency.RelyGuarantee
import WalletApi.Runs.Steps

/-!
The discipline that every thread of the API keeps, and the proof rules for its
commands.

All disciplines of this development have a part in common. The store is coherent
and its indexes unique; a step changes the journal of a wallet only while its
thread holds the wallet's row lock; locks are taken in ascending order. What a
particular argument adds is a `Policy`: an invariant, a guarantee and an
assumption on the steps. Quiet steps have to keep the policy by themselves, so
that only the statements that change the committed database, and the calls to
the provider, leave something to prove.

Inside a transaction a thread knows its buffer, its locks, and one fact that the
locks protect (`Tx`). No step of another thread can take this knowledge away
(`Tx.rely`).
-/

namespace WalletApi

open Concurrency ReadCommitted World

variable {P : Platform} {config : Config}

/-- What a particular argument adds to the common discipline. -/
structure Policy where
  Inv : World → Prop
  Guar : ℕ → World → World → Prop
  /-- What is assumed of the steps that the environment schedules. -/
  Allows : Call → ℕ → Cmd → Choice → World → Prop
  quiet : ∀ {i s t}, Quiet s t → Inv s → Inv t ∧ Guar i s t

/-- The journal of a wallet changes only under the wallet's lock. -/
def LockGuarded (i : ℕ) (s t : World) : Prop :=
  ∀ w, t.db.journalOf w ≠ s.db.journalOf w → s.store.locks w = some i

namespace Policy

variable (Γ : Policy)

variable (P config) in
def discipline : RelyGuarantee signature World Call where
  Step q i c s r t := ∃ ch, Γ.Allows q i c ch s ∧ exec P config i c ch s = some (r, t)
  Inv s := s.store.Coherent ∧ s.db.Unique ∧ Γ.Inv s
  Guar i s t := Stepped P config i s t ∧ LockGuarded i s t ∧ Γ.Guar i s t
  Demand i c s := ∀ w, c = .lockWalletRow w → ∀ r : String, s.store.locks r = some i → r ≤ w

variable {Γ} {q : Call} {i : ℕ} {c : Cmd} {s t u : World} {α β : Type}
  {ws : List Write} {L : List String} {F : World → Prop}

theorem lockGuarded_of_journal_eq (h : t.db.walletTransactions = s.db.walletTransactions) :
    LockGuarded i s t :=
  fun w hw => absurd (by rw [Db.journalOf, h, ← Db.journalOf]) hw

/-- New rows only for wallets whose lock is held. -/
theorem lockGuarded_append {rows : List WalletTransaction}
    (h : t.db.walletTransactions = s.db.walletTransactions ++ rows)
    (hlock : ∀ r ∈ rows, s.store.locks r.walletId = some i) : LockGuarded i s t := by
  intro w hw
  by_contra hne
  refine hw ?_
  have hnone : rows.filter (·.walletId = w) = [] := by
    refine List.filter_eq_nil_iff.mpr fun r hr hrw => hne ?_
    exact of_decide_eq_true hrw ▸ hlock r hr
  rw [Db.journalOf, h, List.filter_append, hnone, List.append_nil, ← Db.journalOf]

/-! ### What runs preserve -/

theorem grows_of_runs (h : (Γ.discipline P config).Runs s t) : s.db.Grows t.db :=
  h.lift (fun s t => s.db.Grows t.db) (fun s => Db.Grows.refl s.db)
    (fun h h' => Db.Grows.trans h h') fun _ _ hg => hg.1.grows

theorem history_of_runs (h : (Γ.discipline P config).Runs s t) :
    ∃ es, t.history = es ++ s.history := by
  refine h.lift (fun s t => ∃ es, t.history = es ++ s.history) (fun s => ⟨[], rfl⟩) ?_
    fun _ _ hg => hg.1.history
  rintro s t u ⟨es, h⟩ ⟨es', h'⟩
  exact ⟨es' ++ es, by rw [h', h, List.append_assoc]⟩

theorem inv_of_runs (h : (Γ.discipline P config).Runs s t) (hs : (Γ.discipline P config).Inv s) :
    (Γ.discipline P config).Inv t := by
  cases h with
  | refl => exact hs
  | tail _ hlast => exact hlast.2.1

/-! ### One command -/

/-- A connection may fail. -/
def Faulty (Γ : Policy) : Prop := ∃ q i c ch s, Γ.Allows q i c ch s ∧ ch.fault ≠ .none

/-- The command is among the assumed ones, and its answer arrives. -/
def Granted (Γ : Policy) (q : Call) (i : ℕ) (c : Cmd) (s : World) : Prop :=
  ∃ ch, ch.fault = .none ∧ Γ.Allows q i c ch s

/-- The command is among the assumed ones, and it is carried out. -/
def Taken (Γ : Policy) (q : Call) (i : ℕ) (c : Cmd) (s : World) : Prop :=
  ∃ ch, ch.fault ≠ .failed ∧ Γ.Allows q i c ch s

/-- A step that thread `i` takes with command `c`, `s` being the state in which
its previous step left it. -/
structure Own (Γ : Policy) (P : Platform) (config : Config) (q : Call) (i : ℕ) (c : Cmd)
    (s t : World) (r : Except Err c.Resp) (u : World) : Prop where
  rely : (Γ.discipline P config).Rely i s t
  inv : (Γ.discipline P config).Inv t
  exec : ∃ ch, Γ.Allows q i c ch t ∧ World.exec P config i c ch t = some (r, u)

namespace Own

variable {r : Except Err c.Resp}

theorem runs (h : Own Γ P config q i c s t r u) : (Γ.discipline P config).Runs s t := h.rely.runs

theorem coherent (h : Own Γ P config q i c s t r u) : t.store.Coherent := h.inv.1

theorem unique (h : Own Γ P config q i c s t r u) : t.db.Unique := h.inv.2.1

theorem policy (h : Own Γ P config q i c s t r u) : Γ.Inv t := h.inv.2.2

theorem stepped (h : Own Γ P config q i c s t r u) : Stepped P config i t u := by
  obtain ⟨ch, -, he⟩ := h.exec
  exact .inl ⟨c, ch, r, he⟩

/-- What a command answers, if no connection fails. -/
theorem answer (h : Own Γ P config q i c s t r u) :
    (Γ.Faulty ∧ r = .error .network ∧ u = t.record ⟨i, c, .error .network, false⟩) ∨
      ∃ ch r' s', World.perform P config i c ch t = some (r', s') ∧
        (r = r' ∨ Γ.Faulty ∧ r = .error .network) ∧ u = s'.record ⟨i, c, r, r'.isOk⟩ := by
  obtain ⟨ch, ha, he⟩ := h.exec
  rcases exec_eq_some he with ⟨-, hf, rfl, rfl⟩ | ⟨r', s', hp, hr, rfl⟩
  · exact .inl ⟨⟨q, i, c, ch, t, ha, by rw [hf]; nofun⟩, rfl, rfl⟩
  · refine .inr ⟨ch, r', s', hp, hr.imp_right fun ⟨_, hf, hr⟩ => ⟨?_, hr⟩, rfl⟩
    exact ⟨q, i, c, ch, t, ha, by rw [hf]; nofun⟩

theorem taken {es : List Event} (h : Own Γ P config q i c s t r u)
    (hh : u.history = ⟨i, c, r, true⟩ :: es) (hc : c.fallible config = true) : Taken Γ q i c t := by
  obtain ⟨ch, ha, he⟩ := h.exec
  exact ⟨ch, fault_of_took he hh hc, ha⟩

theorem granted {a : c.Resp} (h : Own Γ P config q i c s t (.ok a) u) (hc : c.fallible config = true) :
    Granted Γ q i c t := by
  obtain ⟨ch, ha, he⟩ := h.exec
  exact ⟨ch, fault_of_exec_ok hc he, ha⟩

/-- The part of the discipline that does not depend on the policy. -/
theorem step (h : Own Γ P config q i c s t r u) (hl : LockGuarded i t u)
    (hp : Γ.Inv u ∧ Γ.Guar i t u) :
    (Γ.discipline P config).Inv u ∧ (Γ.discipline P config).Guar i t u :=
  ⟨⟨h.stepped.store.coherent h.coherent, h.stepped.store.unique h.coherent h.unique, hp.1⟩,
    h.stepped, hl, hp.2⟩

/-- A step within the discipline is part of a run. -/
theorem runs_after (h : Own Γ P config q i c s t r u)
    (hg : (Γ.discipline P config).Inv u ∧ (Γ.discipline P config).Guar i t u) :
    (Γ.discipline P config).Runs s u :=
  h.runs.tail ⟨h.inv, hg.1, i, hg.2⟩

theorem quiet (h : Own Γ P config q i c s t r u) (hc : c.quiet = true) : Quiet t u := by
  obtain ⟨ch, -, he⟩ := h.exec
  exact exec_quiet hc he

theorem quiet_step (h : Own Γ P config q i c s t r u) (hq : Quiet t u) :
    (Γ.discipline P config).Inv u ∧ (Γ.discipline P config).Guar i t u :=
  h.step (lockGuarded_of_journal_eq (by rw [hq.db])) (Γ.quiet hq h.policy)

/-- A quiet step by itself is a run. -/
theorem runs_self (h : Own Γ P config q i c s t r u) (hc : c.quiet = true) :
    (Γ.discipline P config).Runs t u := by
  have hg := h.quiet_step (h.quiet hc)
  exact .single ⟨h.inv, hg.1, i, hg.2⟩

theorem inv_quiet (h : Own Γ P config q i c s t r u) (hc : c.quiet = true) :
    (Γ.discipline P config).Inv u :=
  (h.quiet_step (h.quiet hc)).1

/-- After a quiet step. -/
theorem runs_quiet (h : Own Γ P config q i c s t r u) (hc : c.quiet = true) :
    (Γ.discipline P config).Runs s u :=
  h.runs_after (h.quiet_step (h.quiet hc))

theorem db_quiet (h : Own Γ P config q i c s t r u) (hc : c.quiet = true) : u.db = t.db :=
  (h.quiet hc).db

end Own

/-- What an answer has to satisfy. -/
def Post (Q : α → World → Prop) (E : Err → World → Prop) (r : Except Err α) (u : World) : Prop :=
  match r with
  | .ok a => Q a u
  | .error e => E e u

/-- The rule of a command in general. -/
theorem wp_perform {Q : c.Resp → World → Prop} {E : Err → World → Prop}
    (hd : ∀ t, (Γ.discipline P config).Rely i s t → (Γ.discipline P config).Demand i c t)
    (h : ∀ t r u, Own Γ P config q i c s t r u →
      (Γ.discipline P config).Inv u ∧ (Γ.discipline P config).Guar i t u ∧ Post Q E r u) :
    (Γ.discipline P config).wp q i (perform c) Q E s := by
  refine RelyGuarantee.wp_perform (fun t _ hr => hd t hr) ?_ ?_
  · intro t u a ht hr hs
    exact h t (.ok a) u ⟨hr, ht, hs⟩
  · intro t u e ht hr hs
    exact h t (.error e) u ⟨hr, ht, hs⟩

/-- Only `lockWalletRow` makes a demand. -/
theorem demand_of_ne (hc : ∀ w, c ≠ .lockWalletRow w) (t : World) :
    (Γ.discipline P config).Demand i c t :=
  fun w hw => absurd hw (hc w)

/-- The rule of a quiet command other than a lock. -/
theorem wp_quiet {Q : c.Resp → World → Prop} {E : Err → World → Prop} (hc : c.quiet = true)
    (hl : ∀ w, c ≠ .lockWalletRow w)
    (h : ∀ t r u, Own Γ P config q i c s t r u → Post Q E r u) :
    (Γ.discipline P config).wp q i (perform c) Q E s := by
  refine wp_perform (fun t _ => demand_of_ne hl t) fun t r u ho => ?_
  have hg := ho.quiet_step (ho.quiet hc)
  exact ⟨hg.1, hg.2, h t r u ho⟩

/-! ### Statements outside of a transaction -/

section Pool

variable {E : Err → World → Prop} (hnet : ∀ u, Γ.Faulty → E .network u)

include hnet in
theorem wp_select {qy : Query} {Q : qy.Result → World → Prop}
    (h : ∀ t u, Own Γ P config q i (.select .pool qy) s t (.ok (qy.run t.db)) u →
      Q (qy.run t.db) u) :
    (Γ.discipline P config).wp q i (select .pool qy) Q E s := by
  refine wp_quiet rfl (fun _ => nofun) fun t r u ho => ?_
  rcases ho.answer with ⟨hf, rfl, -⟩ | ⟨ch, r', s', hp, rfl | ⟨hf, rfl⟩, -⟩
  · exact hnet u hf
  · cases hp
    exact h t u ho
  · exact hnet u hf

/-- A quiet command that does not leave the process. -/
theorem wp_local {Q : c.Resp → World → Prop} (hc : c.quiet = true) (hf : c.fallible config = false)
    (h : ∀ t u a, Own Γ P config q i c s t (.ok a) u → Q a u) :
    (Γ.discipline P config).wp q i (perform c) Q E s := by
  refine wp_quiet hc (fun w hw => by rw [hw] at hf; cases hf) fun t r u ho => ?_
  obtain ⟨ch, -, he⟩ := id ho.exec
  obtain ⟨s', hp, -⟩ := exec_infallible hf he
  obtain ⟨a, rfl⟩ := perform_infallible hf hp
  exact h t u a ho

include hnet in
theorem wp_queueAdd {job : Job} {Q : Unit → World → Prop}
    (h : ∀ t u, Own Γ P config q i (.queueAdd job) s t (.ok ()) u → Q () u) :
    (Γ.discipline P config).wp q i (perform (.queueAdd job)) Q E s := by
  refine wp_quiet rfl (fun _ => nofun) fun t r u ho => ?_
  rcases ho.answer with ⟨hf, rfl, -⟩ | ⟨ch, r', s', hp, rfl | ⟨hf, rfl⟩, -⟩
  · exact hnet u hf
  · cases hp
    exact h t u ho
  · exact hnet u hf

/-- A write that has been committed by itself, and what is certain about it. -/
structure Wrote (P : Platform) (config : Config) (Γ : Policy) (q : Call) (i : ℕ) (w : Write)
    (t u : World) : Prop where
  inv : (Γ.discipline P config).Inv t
  taken : Taken Γ q i (.write .pool w) t
  fresh : ∀ k ∈ w.keys, k ∉ t.db.keys
  db : u.db = w.apply t.db
  unique : u.db.Unique
  bank : u.bank = t.bank
  history : ∃ r, u.history = ⟨i, .write .pool w, r, true⟩ :: t.history

include hnet in
/-- A write by itself must not touch the journal, since it is not under a lock. -/
theorem wp_write {w : Write} {Q : w.Result → World → Prop}
    (hjournal : ∀ d, (w.apply d).walletTransactions = d.walletTransactions)
    (hstep : ∀ t u, (Γ.discipline P config).Runs s t → Wrote P config Γ q i w t u →
      Γ.Inv u ∧ Γ.Guar i t u)
    (h : ∀ t u row, (Γ.discipline P config).Runs s t → (Γ.discipline P config).Runs s u →
      Wrote P config Γ q i w t u → w.result t.db = some row → Q row u)
    (herr : ∀ t u code, (Γ.discipline P config).Runs s t → t.Rejects i .pool w code →
      E (.prisma code) u) :
    (Γ.discipline P config).wp q i (write .pool w) Q E s := by
  refine wp_perform (fun t _ v hv => by cases hv) fun t r u ho => ?_
  rcases ho.answer with ⟨hf, rfl, rfl⟩ | ⟨ch, r', s', hp, hr, rfl⟩
  · have hg := ho.quiet_step ⟨rfl, rfl, .inr ⟨_, by exact rfl, rfl⟩⟩
    exact ⟨hg.1, hg.2, hnet _ hf⟩
  rcases write_eq_some hp with ⟨rfl, code, hrej, rfl⟩ | ⟨row, store, -, hrow, hstage, rfl, rfl⟩
  · have hg := ho.quiet_step ⟨rfl, rfl, .inr ⟨_, by exact rfl, rfl⟩⟩
    refine ⟨hg.1, hg.2, ?_⟩
    rcases hr with rfl | ⟨hf, rfl⟩
    · exact herr _ _ code ho.runs hrej
    · exact hnet _ hf
  obtain ⟨hfresh, -, rfl⟩ := Store.write_eq_done hstage
  have hw : Wrote P config Γ q i w t _ :=
    ⟨ho.inv, ho.taken rfl rfl, hfresh, rfl, ho.stepped.store.unique ho.coherent ho.unique, rfl, r, rfl⟩
  have hg := ho.step (lockGuarded_of_journal_eq (by rw [hw.db, hjournal])) (hstep t _ ho.runs hw)
  refine ⟨hg.1, hg.2, ?_⟩
  rcases hr with rfl | ⟨hf, rfl⟩
  · exact h t _ row ho.runs (ho.runs_after hg) hw hrow
  · exact hnet _ hf

end Pool

/-! ### Control -/

section Control

variable {σ τ : Type} {G : RelyGuarantee signature σ τ} {q : τ} {s : σ} {Q : α → σ → Prop}
  {E : Err → σ → Prop}

theorem wp_throwIf {p : Prop} [Decidable p] {e : Err} {Q : Unit → σ → Prop}
    (hyes : p → E e s) (hno : ¬p → Q () s) :
    G.wp q i (throwIf p e) Q E s := by
  rw [throwIf]
  split
  · exact RelyGuarantee.wp_fail (hyes (by assumption))
  · exact RelyGuarantee.wp_ret (hno (by assumption))

theorem wp_orThrow {o : Option α} {e : Err} (hnone : o = none → E e s)
    (hsome : ∀ a, o = some a → Q a s) :
    G.wp q i (orThrow o e) Q E s := by
  cases o with
  | none => exact RelyGuarantee.wp_fail (hnone rfl)
  | some a => exact RelyGuarantee.wp_ret (hsome a rfl)

theorem wp_map {f : β → α} {p : Program β}
    (h : G.wp q i p (fun b => Q (f b)) E s) :
    G.wp q i (f <$> p) Q E s :=
  RelyGuarantee.wp_bind (f := fun b => .ret (f b)) h

theorem wp_ofExcept {G : RelyGuarantee signature World τ} {s : World} {Q : α → World → Prop}
    {E : Err → World → Prop} {r : Except Err α} (h : Post Q E r s) :
    G.wp q i (ofExcept r) Q E s := by
  cases r with
  | ok a => exact RelyGuarantee.wp_ret h
  | error e => exact RelyGuarantee.wp_fail h

end Control

end Policy

end WalletApi
