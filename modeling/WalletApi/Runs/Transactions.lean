import WalletApi.Runs.Discipline

/-!
Proof rules for what happens inside a transaction.

`Tx i ws L F s` is what thread `i` knows in the middle of a transaction: its
buffer is `ws`, its locks are exactly `L`, and the fact `F` holds. If `F` is
protected by the locks, nothing that others do invalidates this, so a balance
that was read under the wallet's lock is still the balance at the commit.

A transaction ends with a commit, for which the policy has to be shown, or with
a rollback, which hands on what is known in that moment (`Undo`).
-/

namespace WalletApi

open Concurrency ReadCommitted World

namespace Policy

variable {P : Platform} {config : Config} {Γ : Policy} {q : Call} {i : ℕ} {s t u : World}
  {α : Type} {ws : List Write} {L : List String} {F G : World → Prop}

/-! ### Facts under locks -/

variable (P config) in
/-- While thread `i` holds the locks `L`, no other thread can change the fact,
and neither can a quiet step of its own. -/
structure Protected (Γ : Policy) (i : ℕ) (L : List String) (F : World → Prop) : Prop where
  others : ∀ {j s t}, j ≠ i → (∀ w ∈ L, s.store.locks w = some i) →
    (Γ.discipline P config).Inv s → (Γ.discipline P config).Inv t →
    (Γ.discipline P config).Guar j s t → F s → F t
  quiet : ∀ {s t}, Quiet s t → F s → F t

namespace Protected

theorem true : Protected P config Γ i L fun _ => True :=
  ⟨fun _ _ _ _ _ _ => trivial, fun _ _ => trivial⟩

theorem and (hF : Protected P config Γ i L F) (hG : Protected P config Γ i L G) :
    Protected P config Γ i L fun s => F s ∧ G s where
  others hj hl hs ht hg h := ⟨hF.others hj hl hs ht hg h.1, hG.others hj hl hs ht hg h.2⟩
  quiet hq h := ⟨hF.quiet hq h.1, hG.quiet hq h.2⟩

theorem mono {L' : List String} (hF : Protected P config Γ i L F) (hL : ∀ w ∈ L, w ∈ L') :
    Protected P config Γ i L' F where
  others hj hl hs ht hg h := hF.others hj (fun w hw => hl w (hL w hw)) hs ht hg h
  quiet hq h := hF.quiet hq h

/-- What is known about the journal of a locked wallet. -/
theorem journal {w : String} (hw : w ∈ L) (p : List WalletTransaction → Prop) :
    Protected P config Γ i L fun s => p (s.db.journalOf w) where
  others {j s t} hj hl _ _ hg h := by
    have hsame : t.db.journalOf w = s.db.journalOf w := by
      by_contra hne
      have hlock : s.store.locks w = some j := hg.2.1 w hne
      rw [hl w hw] at hlock
      exact hj (Option.some.inj hlock).symm
    rw [hsame]
    exact h
  quiet hq h := by
    rw [hq.db]
    exact h

/-- The balance of a locked wallet. -/
theorem balance {w : String} (hw : w ∈ L) (b : ℤ) :
    Protected P config Γ i L fun s => sumSuccessfulBalance s.db w = b :=
  journal hw fun rows => sumSuccessful .credit rows - sumSuccessful .debit rows = b

/-- What holds as soon as one more lock is held. -/
theorem imp {w : String} (hF : Protected P config Γ i [w] F) :
    Protected P config Γ i L fun s => w ∈ L → F s where
  others hj hl hs ht hg h hw :=
    hF.others hj (fun _ hv => List.mem_singleton.mp hv ▸ hl w hw) hs ht hg (h hw)
  quiet hq h hw := hF.quiet hq (h hw)

/-- A fact that needs no lock stays as it is. -/
theorem rely (hF : Protected P config Γ i [] F) (h : F s) (hr : (Γ.discipline P config).Rely i s t) :
    F t := by
  induction hr with
  | refl => exact h
  | tail _ hlast ih =>
      obtain ⟨hs, ht, j, hj, hg⟩ := hlast
      exact hF.others hj (fun w hw => absurd hw List.not_mem_nil) hs ht hg ih

theorem own {c : Cmd} {r : Except Err c.Resp} (hF : Protected P config Γ i [] F) (h : F s)
    (ho : Own Γ P config q i c s t r u) (hc : c.quiet) : F t ∧ F u :=
  have ht := hF.rely h ho.rely
  ⟨ht, hF.quiet (ho.quiet hc) ht⟩

end Protected

structure Tx (i : ℕ) (ws : List Write) (L : List String) (F : World → Prop) (s : World) :
    Prop where
  opened : s.store.opened i = some ws
  locks : ∀ {w : String}, s.store.locks w = some i ↔ w ∈ L
  fact : F s

namespace Tx

theorem imp (h : Tx i ws L F s) (hG : F s → G s) : Tx i ws L G s := ⟨h.opened, h.locks, hG h.fact⟩

/-- The other threads leave the knowledge of a transaction alone. -/
theorem rely (h : Tx i ws L F s) (hF : Protected P config Γ i L F)
    (hr : (Γ.discipline P config).Rely i s t) : Tx i ws L F t := by
  induction hr with
  | refl => exact h
  | tail _ hlast ih =>
      obtain ⟨hs, ht, j, hj, hg⟩ := hlast
      have howned := hg.1.store.owned
      exact ⟨(howned.opened (Ne.symm hj)).trans ih.opened,
        (howned.locks (Ne.symm hj)).trans ih.locks,
        hF.others hj (fun w hw => ih.locks.mpr hw) hs ht hg ih.fact⟩

theorem of_store_eq (h : Tx i ws L F t) (hF : Protected P config Γ i L F) (hq : Quiet t u)
    (hstore : u.store = t.store) : Tx i ws L F u :=
  ⟨by rw [hstore]; exact h.opened, by rw [hstore]; exact h.locks, hF.quiet hq h.fact⟩

theorem view_eq (h : Tx i ws L F t) : t.view i .tx = schema.applyAll ws t.db := by
  show t.store.view i = _
  rw [Store.view, Store.buffer_of_opened h.opened]
  rfl

/-- The keys of the buffer are new to the committed database. -/
theorem fresh (h : Tx i ws L F t) (hc : t.store.Coherent) :
    ∀ w ∈ ws, ∀ k ∈ w.keys, k ∉ t.db.keys :=
  fun _ hw _ hk => hc.notMem_index h.opened hw hk

end Tx

/-- A write inside the transaction that thread `i` has been refused, `s` being the
state in which its previous step left it. -/
structure Rejected (P : Platform) (config : Config) (Γ : Policy) (q : Call) (i : ℕ)
    (ws : List Write) (L : List String) (F : World → Prop) (w : Write) (s t : World)
    (code : PrismaCode) (u : World) : Prop where
  own : Own Γ P config q i (.write .tx w) s t (.error (.prisma code)) u
  before : Tx i ws L F t
  reason : t.Rejects i .tx w code
  after : Tx i ws L F u

/-! ### Statements -/

section Statements

variable (hF : Protected P config Γ i L F) (hs : Tx i ws L F s) {E : Err → World → Prop}
  (hnet : ∀ u, Γ.Faulty → E .network u)

include hF hs

/-- A command that does not touch the store, inside a transaction. -/
theorem wp_tx_quiet {c : Cmd} {Q : c.Resp → World → Prop} (hc : c.quiet = true)
    (hl : ∀ w, c ≠ .lockWalletRow w)
    (hstore : ∀ {ch t r u}, exec P config i c ch t = some (r, u) → u.store = t.store)
    (h : ∀ t r u, Own Γ P config q i c s t r u → Tx i ws L F t → Tx i ws L F u → Post Q E r u) :
    (Γ.discipline P config).wp q i (perform c) Q E s := by
  refine wp_quiet hc hl fun t r u ho => ?_
  have ht : Tx i ws L F t := hs.rely hF ho.rely
  obtain ⟨ch, -, he⟩ := ho.exec
  exact h t r u ho ht (ht.of_store_eq hF (ho.quiet hc) (hstore he))

include hnet in
theorem wp_tx_select {qy : Query} {Q : qy.Result → World → Prop}
    (h : ∀ t u, Own Γ P config q i (.select .tx qy) s t (.ok (qy.run (schema.applyAll ws t.db))) u →
      Tx i ws L F t → Tx i ws L F u → Q (qy.run (schema.applyAll ws t.db)) u) :
    (Γ.discipline P config).wp q i (select .tx qy) Q E s := by
  refine wp_tx_quiet hF hs rfl (fun _ => nofun) ?_ fun t r u ho ht hu => ?_
  · intro ch t r u he
    rcases exec_eq_some he with ⟨-, -, -, rfl⟩ | ⟨r', s', hp, -, rfl⟩
    · rfl
    · cases hp
      rfl
  · rcases ho.answer with ⟨hf, rfl, -⟩ | ⟨ch, r', s', hp, rfl | ⟨hf, rfl⟩, -⟩
    · exact hnet u hf
    · cases hp
      rw [ht.view_eq] at ho
      show Q (qy.run (t.view i .tx)) u
      rw [ht.view_eq]
      exact h t u ho ht hu
    · exact hnet u hf

include hnet in
omit hs in
/-- Before its first write a transaction sees what is committed. -/
theorem wp_tx_select_nil {qy : Query} {Q : qy.Result → World → Prop} (hs : Tx i [] L F s)
    (h : ∀ t u, Own Γ P config q i (.select .tx qy) s t (.ok (qy.run t.db)) u →
      Tx i [] L F t → Tx i [] L F u → Q (qy.run t.db) u) :
    (Γ.discipline P config).wp q i (select .tx qy) Q E s :=
  wp_tx_select hF hs hnet h

include hnet in
omit hs in
/-- A balance becomes part of what is known. -/
theorem wp_tx_balance {w : String} {Q : ℤ → World → Prop} (hs : Tx i [] L F s)
    (h : ∀ u b, (Γ.discipline P config).Runs s u →
      Tx i [] L (fun v => F v ∧ sumSuccessfulBalance v.db w = b) u → Q b u) :
    (Γ.discipline P config).wp q i (selectSuccessfulBalance .tx w) Q E s := by
  refine wp_tx_select_nil hF hnet hs fun t u ho _ hu => ?_
  refine h u (sumSuccessfulBalance t.db w) (ho.runs_quiet rfl) (hu.imp fun hfact => ⟨hfact, ?_⟩)
  rw [ho.db_quiet rfl]

theorem wp_tx_defaults {Q : String × ℕ → World → Prop}
    (h : ∀ t u stamp, Own Γ P config q i .defaults s t (.ok stamp) u → Tx i ws L F u → Q stamp u) :
    (Γ.discipline P config).wp q i (perform .defaults) Q E s := by
  refine wp_tx_quiet hF hs rfl (fun _ => nofun) ?_ fun t r u ho _ hu => ?_
  · intro ch t r u he
    obtain ⟨s', hp, rfl⟩ := exec_infallible rfl he
    cases hp
    rfl
  · obtain ⟨ch, -, he⟩ := id ho.exec
    obtain ⟨s', hp, -⟩ := exec_infallible rfl he
    cases hp
    exact h t u _ ho hu

include hnet in
/-- A write goes into the buffer. -/
theorem wp_tx_write {w : Write} {Q : w.Result → World → Prop}
    (h : ∀ t u row, Own Γ P config q i (.write .tx w) s t (.ok row) u → Tx i ws L F t →
      w.result (schema.applyAll ws t.db) = some row → Tx i (ws ++ [w]) L F u → Q row u)
    (herr : ∀ t u code, Rejected P config Γ q i ws L F w s t code u → E (.prisma code) u) :
    (Γ.discipline P config).wp q i (write .tx w) Q E s := by
  refine wp_quiet rfl (fun _ => nofun) fun t r u ho => ?_
  have ht : Tx i ws L F t := hs.rely hF ho.rely
  have hfact : F u := hF.quiet (ho.quiet rfl) ht.fact
  rcases ho.answer with ⟨hf, rfl, -⟩ | ⟨ch, r', s', hp, hr, rfl⟩
  · exact hnet u hf
  · rcases write_eq_some hp with ⟨rfl, code, hrej, rfl⟩ | ⟨row, store, -, hrow, hstage, rfl, rfl⟩
    · rcases hr with rfl | ⟨hf, rfl⟩
      · exact herr _ _ code ⟨ho, ht, hrej, ⟨ht.opened, ht.locks, hfact⟩⟩
      · exact hnet _ hf
    · rcases hr with rfl | ⟨hf, rfl⟩
      · obtain ⟨ws', ho', -, -, rfl⟩ := Store.stage_eq_done hstage
        rw [ht.opened] at ho'
        cases ho'
        rw [ht.view_eq] at hrow
        exact h t _ row ho ht hrow ⟨Function.update_self .., ht.locks, hfact⟩
      · exact hnet _ hf

include hnet in
/-- Taking the lock of a wallet, which has to exist. -/
theorem wp_lockWalletRow {w : String} {Q : Unit → World → Prop} (hord : ∀ v ∈ L, v ≤ w)
    (h : ∀ t u, Own Γ P config q i (.lockWalletRow w) s t (.ok true) u → Tx i ws L F t →
      (∃ x ∈ t.db.wallets, x.id = w) → Tx i ws (w :: L) F u → Q () u)
    (hmissing : ∀ t u, (Γ.discipline P config).Runs s t → (∀ x ∈ t.db.wallets, x.id ≠ w) →
      Tx i ws L F u → E (.error ("Wallet not found: " ++ w)) u) :
    (Γ.discipline P config).wp q i (lockWalletRow w) Q E s := by
  refine RelyGuarantee.wp_bind (wp_perform ?_ fun t r u ho => ?_)
  · intro t hr v hv r hlock
    cases hv
    exact hord r ((hs.rely hF hr).locks.mp hlock)
  have ht : Tx i ws L F t := hs.rely hF ho.rely
  have hg := ho.quiet_step (ho.quiet rfl)
  have hfact : F u := hF.quiet (ho.quiet rfl) ht.fact
  refine ⟨hg.1, hg.2, ?_⟩
  rcases ho.answer with ⟨hf, rfl, -⟩ | ⟨ch, r', s', hp, hr, rfl⟩
  · exact hnet u hf
  rcases hr with rfl | ⟨hf, rfl⟩
  · rcases lockWalletRow_eq_some hp with ⟨rfl, rfl, hnone⟩ | ⟨store, hw, hlock, rfl, rfl⟩
    · exact wp_throwIf (fun _ => hmissing _ _ ho.runs hnone ⟨ht.opened, ht.locks, hfact⟩)
        fun hne => absurd rfl hne
    · refine wp_throwIf (fun hfalse => by cases hfalse) fun _ => h t _ ho ht hw ?_
      refine ⟨?_, fun {v} => ?_, hfact⟩
      · obtain ⟨-, -, rfl⟩ := Store.lock_eq_some hlock
        exact ht.opened
      · rw [store_record, Store.locks_lock hlock v, ht.locks, List.mem_cons]
        exact Iff.rfl
  · exact hnet _ hf

end Statements

/-- Taking several locks in ascending order. What is known may grow with each of them. -/
theorem wp_lockWalletRows_of {K : List String → World → Prop} {E : Err → World → Prop}
    {Q : Unit → World → Prop} (hnet : ∀ u, Γ.Faulty → E .network u)
    (hK : ∀ L, Protected P config Γ i L (K L))
    (hlock : ∀ {t u w L}, (Γ.discipline P config).Runs s t → (Γ.discipline P config).Inv t →
      Granted Γ q i (.lockWalletRow w) t → Quiet t u → K L u → K (w :: L) u)
    (ids : List String) :
    ∀ {L v}, (Γ.discipline P config).Runs s v → Tx i ws L (K L) v →
      ids.Pairwise (· ≤ ·) → (∀ a ∈ L, ∀ b ∈ ids, a ≤ b) →
      (∀ u, (Γ.discipline P config).Runs v u → (∀ id ∈ ids, ∃ x ∈ u.db.wallets, x.id = id) →
        Tx i ws (ids.reverse ++ L) (K (ids.reverse ++ L)) u → Q () u) →
      (∀ t u w, (Γ.discipline P config).Runs s t → w ∈ ids → (∀ x ∈ t.db.wallets, x.id ≠ w) →
        E (.error ("Wallet not found: " ++ w)) u) →
      (Γ.discipline P config).wp q i (lockWalletRows ids) Q E v := by
  induction ids with
  | nil => exact fun _ hs _ _ h _ => h _ .refl nofun hs
  | cons w ids ih =>
      intro L v hr hs hsorted hord h hmissing
      have hsorted := List.pairwise_cons.mp hsorted
      refine RelyGuarantee.wp_bind (wp_lockWalletRow (hK L) hs hnet
        (fun a ha => hord a ha w (.head _)) ?_
        fun t u ht hnone _ => hmissing t u w (hr.trans ht) (.head _) hnone)
      intro t u ho ht hw htx
      have hvu : (Γ.discipline P config).Runs v u := ho.runs_quiet rfl
      have htx' : Tx i ws (w :: L) (K (w :: L)) u := htx.imp fun hfact =>
        hlock (hr.trans ho.runs) ho.inv (ho.granted rfl) (ho.quiet rfl) hfact
      refine ih (hr.trans hvu) htx' hsorted.2 ?_ (fun u' hu' hex htx'' => ?_)
        fun t u a ht ha => hmissing t u a ht (.tail _ ha)
      · intro a ha b hb
        rcases List.mem_cons.mp ha with rfl | ha
        · exact hsorted.1 b hb
        · exact hord a ha b (.tail _ hb)
      · refine h u' (hvu.trans hu') (fun id hid => ?_) (by simpa using htx'')
        rcases List.mem_cons.mp hid with rfl | hid
        · obtain ⟨x, hx, hxid⟩ := hw
          rw [← ho.db_quiet rfl] at hx
          exact ⟨x, (grows_of_runs hu').wallets x hx, hxid⟩
        · exact hex id hid

/-- What the lock of the wallet `target` is granted under is known from then on. -/
theorem wp_lockWalletRows {target : String} {E : Err → World → Prop} {Q : Unit → World → Prop}
    (hnet : ∀ u, Γ.Faulty → E .network u) (hG : Protected P config Γ i [target] G)
    (hgrant : ∀ t, (Γ.discipline P config).Runs s t → (Γ.discipline P config).Inv t →
      Granted Γ q i (.lockWalletRow target) t → G t)
    (ids : List String) :
    ∀ {L v}, (Γ.discipline P config).Runs s v → Tx i ws L (fun u => target ∈ L → G u) v →
      ids.Pairwise (· ≤ ·) → (∀ a ∈ L, ∀ b ∈ ids, a ≤ b) →
      (∀ u, (Γ.discipline P config).Runs v u → (∀ id ∈ ids, ∃ x ∈ u.db.wallets, x.id = id) →
        Tx i ws (ids.reverse ++ L) (fun u => target ∈ ids.reverse ++ L → G u) u → Q () u) →
      (∀ t u w, (Γ.discipline P config).Runs s t → w ∈ ids → (∀ x ∈ t.db.wallets, x.id ≠ w) →
        E (.error ("Wallet not found: " ++ w)) u) →
      (Γ.discipline P config).wp q i (lockWalletRows ids) Q E v := by
  refine wp_lockWalletRows_of (K := fun L u => target ∈ L → G u) hnet (fun _ => hG.imp) ?_ ids
  -- The new lock either is the one of `target`, or adds nothing to what is known.
  intro t u w L ht hinv hgranted hq hfact hmem
  rcases List.mem_cons.mp hmem with rfl | hL
  · exact hG.quiet hq (hgrant t ht hinv hgranted)
  · exact hfact hL

/-! ### Beginning and end -/

/-- What is known when a transaction is about to be undone. -/
def Undo (P : Platform) (config : Config) (Γ : Policy) (i : ℕ) (E : Err → World → Prop) (e : Err)
    (s : World) : Prop :=
  (∀ u, E e u) ∨
    ∃ ws L F, Protected P config Γ i L F ∧ Tx i ws L F s ∧ ∀ u, F u → E e u

/-- The commit of `ws` by thread `i`, and what is certain about it. -/
structure Commits (P : Platform) (config : Config) (Γ : Policy) (q : Call) (i : ℕ)
    (ws : List Write) (t u : World) : Prop where
  inv : (Γ.discipline P config).Inv t
  opened : t.store.opened i = some ws
  taken : Taken Γ q i .commit t
  fresh : ∀ w ∈ ws, ∀ k ∈ w.keys, k ∉ t.db.keys
  db : u.db = schema.applyAll ws t.db
  unique : u.db.Unique
  bank : u.bank = t.bank
  history : ∃ r, u.history = ⟨i, .commit, r, true⟩ :: t.history

section Ends

variable {E : Err → World → Prop} (hnet : ∀ u, Γ.Faulty → E .network u)

include hnet in
theorem wp_begin {Q : Unit → World → Prop}
    (h : ∀ t u, Own Γ P config q i .begin s t (.ok ()) u → Tx i [] [] (fun _ => True) u → Q () u) :
    (Γ.discipline P config).wp q i (perform .begin) Q E s := by
  refine wp_quiet rfl (fun _ => nofun) fun t r u ho => ?_
  rcases ho.answer with ⟨hf, rfl, -⟩ | ⟨ch, r', s', hp, hr, rfl⟩
  · exact hnet u hf
  obtain ⟨store, hb, hpair⟩ := Option.map_eq_some_iff.mp hp
  cases hpair
  rcases hr with rfl | ⟨hf, rfl⟩
  · obtain ⟨hnone, rfl⟩ := Store.begin_eq_some hb
    refine h t _ ho ⟨Function.update_self .., fun {w} => ⟨fun hlock => ?_, nofun⟩, trivial⟩
    -- Without an open transaction there were no locks.
    have hopen := ho.coherent.locked hlock
    rw [hnone] at hopen
    cases hopen
  · exact hnet _ hf

include hnet in
theorem wp_commit (hF : Protected P config Γ i L F) (hs : Tx i ws L F s)
    {Q : Unit → World → Prop}
    (h : ∀ t u, (Γ.discipline P config).Runs s t → Tx i ws L F t →
      Commits P config Γ q i ws t u →
      LockGuarded i t u ∧ Γ.Inv u ∧ Γ.Guar i t u)
    (hQ : ∀ t u, (Γ.discipline P config).Runs s t → (Γ.discipline P config).Runs s u →
      Commits P config Γ q i ws t u → Q () u) :
    (Γ.discipline P config).wp q i (perform .commit) Q E s := by
  refine wp_perform (fun t _ w hw => by cases hw) fun t r u ho => ?_
  have ht : Tx i ws L F t := hs.rely hF ho.rely
  rcases ho.answer with ⟨hf, rfl, rfl⟩ | ⟨ch, r', s', hp, hr, rfl⟩
  · have hg := ho.quiet_step ⟨rfl, rfl, .inr ⟨_, by exact trivial, rfl⟩⟩
    exact ⟨hg.1, hg.2, hnet _ hf⟩
  obtain ⟨store, hc, hpair⟩ := Option.map_eq_some_iff.mp hp
  cases hpair
  obtain ⟨ws', hopen, rfl⟩ := Store.commit_eq_some hc
  rw [ht.opened] at hopen
  cases hopen
  have hcommit := ho.stepped.store.unique ho.coherent ho.unique
  have hcs : Commits P config Γ q i ws t _ :=
    ⟨ho.inv, ht.opened, ho.taken rfl rfl, ht.fresh ho.coherent, rfl, hcommit, rfl, _, rfl⟩
  obtain ⟨hl, hp⟩ := h t _ ho.runs ht hcs
  have hg := ho.step hl hp
  refine ⟨hg.1, hg.2, ?_⟩
  rcases hr with rfl | ⟨hf, rfl⟩
  · exact hQ t _ ho.runs (ho.runs_after hg) hcs
  · exact hnet _ hf

include hnet in
/-- The commit of a transaction that has written nothing. -/
theorem wp_commit_nil (hF : Protected P config Γ i L F) (hs : Tx i [] L F s)
    {Q : Unit → World → Prop}
    (h : ∀ t u, Own Γ P config q i .commit s t (.ok ()) u → (Γ.discipline P config).Runs t u →
      t.store.opened i = some [] → u.db = t.db → Q () u) :
    (Γ.discipline P config).wp q i (perform .commit) Q E s := by
  refine wp_perform (fun t _ w hw => by cases hw) fun t r u ho => ?_
  have ht : Tx i [] L F t := hs.rely hF ho.rely
  have hq : Quiet t u := by
    rcases ho.answer with ⟨hf, rfl, rfl⟩ | ⟨ch, r', s', hp, hr, rfl⟩
    · exact ⟨rfl, rfl, .inr ⟨_, by exact trivial, rfl⟩⟩
    · obtain ⟨store, hc, hpair⟩ := Option.map_eq_some_iff.mp hp
      cases hpair
      obtain ⟨ws', hopen, rfl⟩ := Store.commit_eq_some hc
      rw [ht.opened] at hopen
      cases hopen
      exact ⟨rfl, rfl, .inr ⟨_, by exact trivial, rfl⟩⟩
  have hg := ho.quiet_step hq
  refine ⟨hg.1, hg.2, ?_⟩
  rcases ho.answer with ⟨hf, rfl, -⟩ | ⟨ch, r', s', hp, hr, rfl⟩
  · exact hnet u hf
  obtain ⟨store, hc, hpair⟩ := Option.map_eq_some_iff.mp hp
  cases hpair
  rcases hr with rfl | ⟨hf, rfl⟩
  · exact h t _ ho (.single ⟨ho.inv, hg.1, i, hg.2⟩) ht.opened hq.db
  · exact hnet _ hf

/-- A transaction: its body runs between `begin` and `commit`, and whatever
fails is undone. A fact that needs no lock is carried along. -/
theorem wp_transaction_keeping {body : Program α} {Q : α → World → Prop}
    (hnet : ∀ u, Γ.Faulty → E .network u) (hF : Protected P config Γ i [] F) (hs : F s)
    (h : ∀ u, (Γ.discipline P config).Runs s u → Tx i [] [] F u →
      (Γ.discipline P config).wp q i body
        (fun a v => (Γ.discipline P config).wp q i (perform .commit) (fun _ => Q a)
          (Undo P config Γ i E) v)
        (Undo P config Γ i E) u) :
    (Γ.discipline P config).wp q i (transaction body) Q E s := by
  have hundo : ∀ u, Γ.Faulty → Undo P config Γ i E .network u :=
    fun u hf => .inl fun v => hnet v hf
  refine RelyGuarantee.wp_tryCatch (RelyGuarantee.wp_mono (fun _ _ hQ => hQ) ?_ _
    (E := Undo P config Γ i E) ?_)
  · -- The rollback hands on what the transaction knew.
    intro e v hv
    refine RelyGuarantee.wp_bind (wp_quiet rfl (fun _ => nofun) fun t r u ho => ?_)
    have hE : E e u := by
      rcases hv with hall | ⟨ws, L, F, hprot, htx, hE⟩
      · exact hall u
      · exact hE u (hprot.quiet (ho.quiet rfl) (htx.rely hprot ho.rely).fact)
    obtain ⟨ch, -, he⟩ := ho.exec
    obtain ⟨s', hp, -⟩ := exec_infallible rfl he
    cases hp
    exact hE
  · refine RelyGuarantee.wp_bind (wp_begin hundo fun t u ho htx => ?_)
    have hu : F u := (hF.own hs ho rfl).2
    refine RelyGuarantee.wp_bind (RelyGuarantee.wp_mono ?_ (fun _ _ he => he) _
      (h u (ho.runs_quiet rfl) (htx.imp fun _ => hu)))
    exact fun a v hv => RelyGuarantee.wp_bind hv

theorem wp_transaction {body : Program α} {Q : α → World → Prop} (hnet : ∀ u, Γ.Faulty → E .network u)
    (h : ∀ u, (Γ.discipline P config).Runs s u → Tx i [] [] (fun _ => True) u →
      (Γ.discipline P config).wp q i body
        (fun a v => (Γ.discipline P config).wp q i (perform .commit) (fun _ => Q a)
          (Undo P config Γ i E) v)
        (Undo P config Γ i E) u) :
    (Γ.discipline P config).wp q i (transaction body) Q E s :=
  wp_transaction_keeping hnet .true trivial h

end Ends

end Policy

end WalletApi
