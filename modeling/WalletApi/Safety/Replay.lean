import WalletApi.Safety.Asking
import WalletApi.Safety.Reconciliation

/-!
A key that was used with another body.

`executeP2p` and `executeBankAccept` look a key up twice. The first lookup
compares the fingerprint of the body, the second does not: a request that passes
the first one before its rival commits is handed the rival's withdrawal by the
second one, whatever it asked for. A run shows this; in all runs in which no
withdrawal is committed while a request with its key and another body stands
between its two lookups, success means that the body is the one the key was used
with.
-/

namespace WalletApi

open Concurrency ReadCommitted World Policy Schedule

variable {P : Platform} {config : Config} {A : Call → ℕ → Cmd → Choice → World → Prop} {q : Call}
  {i : ℕ} {s t u : World} {w w' : Withdrawal} {actor : JwtPayloadUser} {header : Option String}
  {dto : CreateWithdrawalDto} {key : String} {r : Response}

/-- The withdrawals that have been made with a key. -/
def Db.withdrawalsOf (d : Db) (userId key : String) : List Withdrawal :=
  d.withdrawals.filter fun w => w.userId = userId ∧ w.idempotencyKey = key

theorem mem_withdrawalsOf {d : Db} {userId : String} :
    w ∈ d.withdrawalsOf userId key ↔
      w ∈ d.withdrawals ∧ w.userId = userId ∧ w.idempotencyKey = key := by
  rw [Db.withdrawalsOf, List.mem_filter, decide_eq_true_eq]

theorem eq_of_withdrawalsOf {d : Db} (hu : d.Unique) {userId : String}
    (hw : w ∈ d.withdrawalsOf userId key) (hw' : w' ∈ d.withdrawalsOf userId key) : w' = w := by
  obtain ⟨hmem, huser, hkey⟩ := mem_withdrawalsOf.mp hw
  obtain ⟨hmem', huser', hkey'⟩ := mem_withdrawalsOf.mp hw'
  exact hu.withdrawal_of_idempotencyKey hmem' hmem (huser'.trans huser.symm)
    (hkey'.trans hkey.symm)

/-- The withdrawals of a key are still there later. -/
theorem Db.Grows.withdrawalsOf {d d' : Db} (h : d.Grows d') {userId : String}
    (hw : w ∈ d.withdrawalsOf userId key) :
    ∃ w' ∈ d'.withdrawalsOf userId key, w'.core = w.core := by
  obtain ⟨hmem, huser, hkey⟩ := mem_withdrawalsOf.mp hw
  obtain ⟨w₁, hw₁, hcore⟩ := h.withdrawals w hmem
  obtain ⟨huser₁, hkey₁⟩ := Withdrawal.key_of_core hcore
  exact ⟨w₁, mem_withdrawalsOf.mpr ⟨hw₁, huser₁.trans huser, hkey₁.trans hkey⟩, hcore⟩

/-- The withdrawal of a key later is the one that was there. -/
theorem core_of_runs (h : ((bookkeeping A).discipline P config).Runs s u) (hu : u.db.Unique)
    {userId : String} (hw : w ∈ s.db.withdrawalsOf userId key)
    (hw' : w' ∈ u.db.withdrawalsOf userId key) : w'.core = w.core := by
  obtain ⟨w₁, hw₁, hcore⟩ := (grows_of_runs h).withdrawalsOf hw
  rw [eq_of_withdrawalsOf hu hw₁ hw', hcore]

/-! ### A different body -/

/-- A request that ends with nothing written, because its second lookup has found
the key in use, has the body the key was used with. -/
def replaysOwnBody (P : Platform) (call : Call) (i : ℕ) (c : Cmd) (ch : Choice) (s : World) :
    Bool :=
  match call, c with
  | .postWithdrawals actor header dto, .commit =>
      match requireIdempotencyKey header with
      | .ok key =>
          decide (ch.fault ≠ .none) || !(s.store.opened i).any List.isEmpty ||
            (s.db.withdrawalsOf actor.userId key).all (·.requestBodyHash = dto.hash P)
      | .error _ => true
  | _, _ => true

/-- The runs in which no second lookup finds a key that was used with another body. -/
def OwnBodies (P : Platform) (call : Call) (i : ℕ) (c : Cmd) (ch : Choice) (s : World) : Prop :=
  replaysOwnBody P call i c ch s = true

instance : ∀ call i c ch s, Decidable (OwnBodies P call i c ch s) :=
  fun call i c ch s => inferInstanceAs (Decidable (replaysOwnBody P call i c ch s = true))

theorem hash_of_replay (hkey : requireIdempotencyKey header = .ok key)
    (h : Replays P config (bookkeeping (OwnBodies P)) (.postWithdrawals actor header dto) i s
      actor.userId key (dto.hash P) w u) : w.requestBodyHash = dto.hash P := by
  obtain ⟨t, v, -, htv, -, hv, -, ⟨hw, huser, hwkey⟩, ⟨-, hhash, -⟩ | ⟨hopened, hgranted⟩⟩ := h
  · exact hhash
  · obtain ⟨ch, hfault, hallows⟩ := hgranted
    have hbody : replaysOwnBody P (.postWithdrawals actor header dto) i .commit ch v = true :=
      hallows
    simp only [replaysOwnBody, hkey, hfault, hopened, Option.any_some, List.isEmpty_nil,
      Bool.not_true, Bool.or_false, ne_eq, not_true_eq_false, decide_false, Bool.false_or] at hbody
    obtain ⟨w', hw', hcore⟩ :=
      (grows_of_runs htv).withdrawalsOf (mem_withdrawalsOf.mpr ⟨hw, huser, hwkey⟩)
    have hhash := of_decide_eq_true (List.all_eq_true.mp hbody w' hw')
    exact (Withdrawal.hash_of_core hcore).symm.trans hhash

/-- The withdrawal of the key, as a request that succeeds leaves it. -/
theorem hash_of_answers (hkey : requireIdempotencyKey header = .ok key)
    {response : WithdrawalResponse}
    (h : Answers P config (OwnBodies P) (.postWithdrawals actor header dto) i actor key dto
      response s) (hsu : ((bookkeeping (OwnBodies P)).discipline P config).Runs s u)
    (hu : u.db.Unique) (hw : w ∈ u.db.withdrawalsOf actor.userId key) :
    w.requestBodyHash = dto.hash P := by
  have later {t : World} {w₀ : Withdrawal}
      (hts : ((bookkeeping (OwnBodies P)).discipline P config).Runs t s)
      (hw₀ : w₀ ∈ t.db.withdrawalsOf actor.userId key) (hhash : w₀.requestBodyHash = dto.hash P) :
      w.requestBodyHash = dto.hash P :=
    (Withdrawal.hash_of_core (core_of_runs (hts.trans hsu) hu hw₀ hw)).trans hhash
  cases h with
  | replayed s₀ w₀ _ hreplays =>
      obtain ⟨t, v, -, htv, hvs, -, -, ⟨hw₀, huser, hwkey⟩, -⟩ := id hreplays
      exact later (htv.trans hvs) (mem_withdrawalsOf.mpr ⟨hw₀, huser, hwkey⟩)
        (hash_of_replay hkey hreplays)
  | created t v ws w₀ _ _ hvs _ hw₀ hboth hhash _ =>
      exact later hvs (mem_withdrawalsOf.mpr ⟨hw₀, hboth⟩) hhash

/-- A request for a withdrawal that has succeeded has the body that its key was
used with. -/
def OwnSuccess (cfg : Machine.Config (walletApi P config)) : Prop :=
  ∀ i actor header dto r key, ∀ w ∈ cfg.state.db.withdrawalsOf actor.userId key,
    cfg.threads i = some (.running (.postWithdrawals actor header dto) (.ret r)) →
    requireIdempotencyKey header = .ok key → w.requestBodyHash = dto.hash P

theorem ownSuccess_of_ownBodies {cfg : Machine.Config (walletApi P config)}
    (h : Machine.Reachable (api P config (OwnBodies P)) World.initial cfg) : OwnSuccess cfg := by
  intro i actor header dto r key w hw hth hkey
  have C := api_certified P config (OwnBodies P) .true
  obtain ⟨s, -, hrely, key', response, hkey', -, hanswers⟩ := C.returned h hth
  obtain ⟨hu, -, -⟩ := (C.inv h).2.2
  cases hkey.symm.trans hkey'
  exact hash_of_answers hkey hanswers hrely.runs hu hw

/-! ### Between the lookups -/

/-- What a request issues between its two lookups, the second one included. -/
def Cmd.betweenLookups : Cmd → Bool
  | .begin | .select .tx (.withdrawalByUserAndIdempotencyKey ..) => true
  | _ => false

/-- Thread `j` serves a request that has the key of the row, but another body, and stands
between its two lookups. -/
def standsBetween (P : Platform) (cfg : Machine.Config (walletApi P config)) (row : Withdrawal)
    (j : ℕ) : Bool :=
  match cfg.threads j with
  | some (.running (.postWithdrawals actor header dto) (.op c _)) =>
      Cmd.betweenLookups c && match requireIdempotencyKey header with
        | .ok key => decide (row.userId = actor.userId ∧ row.idempotencyKey = key ∧
            row.requestBodyHash ≠ dto.hash P)
        | .error _ => false
  | _ => false

/-- The row of a withdrawal that the write makes. -/
def Write.withdrawal : Write → Option Withdrawal
  | createWithdrawal row => some row
  | _ => none

/-- The action does not commit a withdrawal while thread `j` stands between the lookups of
its key for another body. -/
def sparesLookups (P : Platform) (config : Config) (cfg : Machine.Config (walletApi P config))
    (a : Machine.Action (walletApi P config)) (j : ℕ) : Bool :=
  match a with
  | .step i ch =>
      match cfg.threads i with
      | some (.running _ (.op c _)) =>
          !Cmd.isCommit c || decide (ch.fault = .failed) ||
            ((World.store cfg.state).buffer i).all fun w =>
              (Write.withdrawal w).all fun row => !standsBetween P cfg row j
      | _ => true
  | _ => true

/-- A thread that is not there is spared. -/
theorem sparesLookups_of_none (cfg : Machine.Config (walletApi P config))
    (a : Machine.Action (walletApi P config)) (i j : ℕ) (hnone : cfg.threads j = none)
    (_ : sparesLookups P config cfg a i = true) : sparesLookups P config cfg a j = true := by
  have hstands : ∀ row, standsBetween P cfg row j = false := by
    intro row
    simp only [standsBetween, hnone]
  unfold sparesLookups
  split
  · split
    · simp [hstands]
    · rfl
  · rfl

/-- What thread `i`, which serves the request, knows of the key when it issues a command. -/
structure Informed (P : Platform) (actor : JwtPayloadUser) (dto : CreateWithdrawalDto)
    (key : String) (cfg : Machine.Config (walletApi P config)) (i : ℕ) (c : Cmd) : Prop where
  /-- Between the lookups there is nothing to be found, unless a twin has been faster. -/
  between : c.betweenLookups = true →
    ∀ w ∈ (World.db cfg.state).withdrawalsOf actor.userId key, w.requestBodyHash = dto.hash P
  opened : c = .lookup .tx actor.userId key → (World.store cfg.state).opened i = some []
  commits : c = .commit → (∃ k, k ∈ keysWritten (own i (World.log cfg.state))) ∨
    ∃ w ∈ (World.db cfg.state).withdrawalsOf actor.userId key, w.requestBodyHash = dto.hash P

section Informed

variable {cfg cfg' : Machine.Config (walletApi P config)} {c : Cmd}

theorem withdrawalsOf_of_run_none {d : Db} {userId : String}
    (h : (Query.withdrawalByUserAndIdempotencyKey userId key).run d = none) :
    ∀ w ∈ d.withdrawalsOf userId key, w.requestBodyHash = dto.hash P := by
  intro w hw
  obtain ⟨hmem, hboth⟩ := mem_withdrawalsOf.mp hw
  exact absurd (decide_eq_true hboth) (List.find?_eq_none.mp h w hmem)

/-- The request learns by its own step. -/
theorem Informed.step {A : Machine.Assumptions (walletApi P config)}
    (hr : Machine.Reachable A World.initial cfg') {c₀ : Cmd} {ch : Choice}
    {r₀ : Except Err c₀.Resp} (h : Informed P actor dto key cfg i c₀)
    (he : World.exec P config i c₀ ch cfg.state = some (r₀, cfg'.state))
    {k : Except Err c.Resp → Program Response}
    (hth : cfg'.threads i = some (.running (.postWithdrawals actor header dto) (.op c k)))
    (hkey : requireIdempotencyKey header = .ok key) : Informed P actor dto key cfg' i c := by
  have horder := inOrder_of_thread hr hth hkey
  rw [World.log_exec he, own_cons_self] at horder
  -- What has been asked before decides which step this was.
  refine ⟨fun hbetween => ?_, ?_, ?_⟩
  · unfold Cmd.betweenLookups at hbetween
    split at hbetween
    · obtain ⟨older, heq⟩ := horder.begins rfl
      cases (List.cons.inj heq).1
      rw [(World.exec_quiet rfl he).db]
      exact withdrawalsOf_of_run_none (World.select_of_exec he).symm
    · obtain ⟨-, -, older, heq⟩ := horder.again _ _ rfl
      cases (List.cons.inj heq).1
      rw [(World.exec_quiet rfl he).db]
      exact h.between rfl
    · cases hbetween
  · rintro rfl
    obtain ⟨-, -, older, heq⟩ := horder.again _ _ rfl
    cases (List.cons.inj heq).1
    obtain ⟨s', hp, hs'⟩ := World.exec_eq_ok he
    obtain ⟨store, hbegin, hstore⟩ := Option.map_eq_some_iff.mp hp
    cases hstore
    obtain ⟨-, rfl⟩ := Store.begin_eq_some hbegin
    rw [hs']
    exact Function.update_self ..
  · rintro rfl
    rcases horder.commits rfl with hwritten | ⟨w, older, heq⟩
    · rw [World.log_exec he, own_cons_self]
      exact .inl hwritten
    · cases (List.cons.inj heq).1
      have hview : World.view cfg.state i .tx = World.db cfg.state := by
        show (World.store cfg.state).view i = _
        rw [Store.view, Store.buffer_of_opened (h.opened rfl)]
        rfl
      have hfound := (World.select_of_exec he).symm
      rw [hview] at hfound
      have hw : w ∈ (World.db cfg.state).withdrawalsOf actor.userId key :=
        mem_withdrawalsOf.mpr (find?_withdrawal hfound)
      rw [(World.exec_quiet rfl he).db]
      exact .inr ⟨w, hw, h.between rfl w hw⟩

/-- A request that has asked nothing yet knows nothing. -/
theorem Informed.unborn {A : Machine.Assumptions (walletApi P config)}
    (hr : Machine.Reachable A World.initial cfg)
    {k : Except Err c.Resp → Program Response}
    (hth : cfg.threads i = some (.running (.postWithdrawals actor header dto) (.op c k)))
    (hkey : requireIdempotencyKey header = .ok key) (hown : own i (World.log cfg.state) = []) :
    Informed P actor dto key cfg i c := by
  have horder := inOrder_of_thread hr hth hkey
  rw [hown] at horder
  refine ⟨fun hbetween => ?_, ?_, ?_⟩
  · unfold Cmd.betweenLookups at hbetween
    split at hbetween
    · obtain ⟨older, heq⟩ := horder.begins rfl
      cases heq
    · obtain ⟨-, -, older, heq⟩ := horder.again _ _ rfl
      cases heq
    · cases hbetween
  · rintro rfl
    obtain ⟨-, -, older, heq⟩ := horder.again _ _ rfl
    cases heq
  · rintro rfl
    rcases horder.commits rfl with ⟨k, hk⟩ | ⟨w, older, heq⟩
    · exact absurd hk List.not_mem_nil
    · cases heq

/-- What others do is no news, unless they commit another body between the lookups. -/
theorem Informed.aside (h : Informed P actor dto key cfg i c) (haside : Aside cfg cfg' i)
    (hgrows : (World.db cfg.state).Grows (World.db cfg'.state))
    (hrows : c.betweenLookups = true →
      ∀ w ∈ (World.db cfg'.state).withdrawalsOf actor.userId key,
        (∃ w₀ ∈ (World.db cfg.state).withdrawals, w.core = w₀.core) ∨
          w.requestBodyHash = dto.hash P) : Informed P actor dto key cfg' i c where
  between hbetween w hw := by
    rcases hrows hbetween w hw with ⟨w₀, hw₀, hcore⟩ | hhash
    · obtain ⟨-, huser, hkey⟩ := mem_withdrawalsOf.mp hw
      obtain ⟨huser', hkey'⟩ := Withdrawal.key_of_core hcore
      exact (Withdrawal.hash_of_core hcore).trans (h.between hbetween w₀
        (mem_withdrawalsOf.mpr ⟨hw₀, huser'.symm.trans huser, hkey'.symm.trans hkey⟩))
    · exact hhash
  opened hc := haside.opened.trans (h.opened hc)
  commits hc := by
    rw [haside.own]
    refine (h.commits hc).imp_right fun ⟨w, hw, hhash⟩ => ?_
    obtain ⟨w', hw', hcore⟩ := hgrows.withdrawalsOf hw
    exact ⟨w', hw', (Withdrawal.hash_of_core hcore).trans hhash⟩

/-- Whatever a spared request does not find between its lookups has its body. -/
theorem hash_of_spared {row w : Withdrawal} (hcore : w.core = row.core)
    (hbetween : c.betweenLookups = true) {k : Except Err c.Resp → Program Response}
    (hth : cfg.threads i = some (.running (.postWithdrawals actor header dto) (.op c k)))
    (hkey : requireIdempotencyKey header = .ok key)
    (hw : w ∈ (World.db cfg'.state).withdrawalsOf actor.userId key)
    (hspares : standsBetween P cfg row i = false) : w.requestBodyHash = dto.hash P := by
  obtain ⟨-, huser, hwkey⟩ := mem_withdrawalsOf.mp hw
  obtain ⟨huser', hkey'⟩ := Withdrawal.key_of_core hcore
  by_contra hne
  have hstands : standsBetween P cfg row i = true := by
    simp only [standsBetween, hth, hkey, hbetween, Bool.true_and]
    exact decide_eq_true ⟨huser'.symm.trans huser, hkey'.symm.trans hwkey,
      fun heq => hne ((Withdrawal.hash_of_core hcore).trans heq)⟩
  cases hspares.symm.trans hstands

theorem spared_of_makes {ch : Choice} {row : Withdrawal} (hmakes : CommitsRow cfg j row)
    (hfault : ch.fault ≠ .failed) (hspares : sparesLookups P config cfg (.step j ch) i = true) :
    standsBetween P cfg row i = false := by
  obtain ⟨⟨actor, header, dto, k, -, hth⟩, ws, hopened, hrow⟩ := hmakes
  simp only [sparesLookups, hth, Cmd.isCommit, Store.buffer_of_opened hopened, hfault,
    decide_false, Bool.not_true, Bool.false_or] at hspares
  have hrow' := List.all_eq_true.mp hspares _ hrow
  simpa [Write.withdrawal] using hrow'

/-- Every request is informed. -/
def AllInformed (cfg : Machine.Config (walletApi P config)) : Prop :=
  ∀ i actor header dto key (c : Cmd) (k : Except Err c.Resp → Program Response),
    cfg.threads i = some (.running (.postWithdrawals actor header dto) (.op c k)) →
    requireIdempotencyKey header = .ok key → Informed P actor dto key cfg i c

theorem allInformed_of_sparing
    (h : Machine.Sparing (requests P config) (sparesLookups P config) World.initial cfg) :
    AllInformed cfg := by
  refine h.invariant (fun _ _ _ _ _ _ _ hth => by cases hth) ?_
  intro cfg cfg' a hr hp hspares hn ih i actor header dto key c k hth hkey
  have hr' := Machine.Reachable.next a hr hp hn
  by_cases hi : i = a.thread
  · cases a with
    | spawn j call =>
        obtain rfl : i = j := hi
        obtain ⟨hnone, rfl⟩ := Machine.next_spawn_iff.mp hn
        exact .unborn hr' hth hkey ((asks_of_reachable hr).unborn hnone)
    | step j ch =>
        obtain rfl : i = j := hi
        obtain ⟨call, c₀, k₀, r₀, t, hth₀, he, hcfg⟩ := Machine.next_step_iff.mp hn
        have hstate : t = cfg'.state := by rw [hcfg, Machine.Config.state_set]
        have hset : cfg'.threads i = some (.running call (k₀ r₀)) := by
          rw [hcfg, Machine.Config.threads_set_self]
        obtain ⟨rfl, -⟩ := Machine.Thread.running.inj (Option.some.inj (hset.symm.trans hth))
        exact (ih i actor header dto key c₀ k₀ hth₀ hkey).step hr' (hstate ▸ he) hth hkey
    | crash j =>
        obtain rfl : i = j := hi
        obtain ⟨call, p, -, rfl⟩ := Machine.next_crash_iff.mp hn
        cases (Machine.Config.threads_set_self ..).symm.trans hth
  · have haside := aside_of_next hn hi
    have hth₀ := haside.threads.symm.trans hth
    refine (ih i actor header dto key c k hth₀ hkey).aside haside (grows_of_next hn)
      fun hbetween w hw => ?_
    rcases withdrawal_of_next (fun _ hcall => hcall) hr hn (mem_withdrawalsOf.mp hw).1 with
      hold | ⟨j, ch, row, rfl, hfault, hcore, hmakes⟩
    · exact .inl hold
    · exact .inr (hash_of_spared hcore hbetween hth₀ hkey hw
        (spared_of_makes hmakes hfault (hspares i)))

end Informed

/-- A request that commits nothing has been informed of its own body. -/
theorem ownBody_of_informed {cfg : Machine.Config (walletApi P config)}
    (h : Machine.Reachable (requests P config) World.initial cfg) (hinformed : AllInformed cfg)
    {call : Call} {c : Cmd} {ch : Choice} {k : Except Err c.Resp → Program Response}
    (hth : cfg.threads i = some (.running call (.op c k))) :
    OwnBodies P call i c ch cfg.state := by
  show replaysOwnBody P call i c ch cfg.state = true
  unfold replaysOwnBody
  split
  · rename_i actor header dto
    cases hkey : requireIdempotencyKey header with
    | error e => rfl
    | ok key =>
        rcases (hinformed i actor header dto key .commit k hth hkey).commits rfl with
          ⟨k', hk'⟩ | ⟨w, hw, hhash⟩
        · cases hopened : (World.store cfg.state).opened i with
          | none => simp
          | some ws =>
              obtain ⟨row, hrow, -⟩ := (attributed_of_reachable h).written hopened hk'
              have hne : ws ≠ [] := List.ne_nil_of_mem hrow
              simp [hne]
        · obtain ⟨hu, -, -⟩ := books_of_reachable h
          refine (Bool.or_eq_true ..).mpr (.inr (List.all_eq_true.mpr fun w' hw' => ?_))
          rw [eq_of_withdrawalsOf hu hw hw']
          exact decide_eq_true hhash
  · rfl

/-- As long as no withdrawal is committed while a request with its key and another body
stands between its two lookups, no second lookup finds another body. -/
theorem ownBodies_of_sparing {cfg : Machine.Config (walletApi P config)}
    (h : Machine.Sparing (requests P config) (sparesLookups P config) World.initial cfg) :
    Machine.Reachable (api P config (OwnBodies P)) World.initial cfg := by
  induction h with
  | initial => exact .initial
  | @next cfg cfg' a h hp hspares hn ih =>
      refine .next a ih ?_ hn
      cases a with
      | spawn i call => exact hp
      | crash i => trivial
      | step i ch =>
          intro call c k hth
          exact ownBody_of_informed h.reachable (allInformed_of_sparing h) hth

/-- As long as no withdrawal is committed while a request with its key and another body
stands between its two lookups, no request succeeds with a body that its key was not
used with. -/
theorem ownSuccess {cfg : Machine.Config (walletApi P config)}
    (h : Machine.Sparing (requests P config) (sparesLookups P config) World.initial cfg) :
    OwnSuccess cfg :=
  ownSuccess_of_ownBodies (ownBodies_of_sparing h)

/-- While Ada's withdrawal to her bank is past its lookups, she sends 400 to Bob with the
same key, which is faster. Then she repeats the latter request. -/
def rivalSchedule : List (Machine.Action (walletApi platform mockConfig)) :=
  fundedAda ++ .spawn 6 (.postWithdrawals ⟨"u1"⟩ (some idempotencyKey) toBank) :: calm 6 3 ++
    generate 6 ["uuid"] ++ calm 6 3 ++ sendToBob 7 idempotencyKey "x1" "r2" "r3" ++ calm 6 5 ++
    .spawn 8 (.postWithdrawals ⟨"u1"⟩ (some idempotencyKey) toBob) :: calm 8 6

/-- Whether the request has succeeded, if it has ended. -/
def succeeds (o : Option (Call × Except Err Response)) : Option Bool := o.map fun e => e.2.isOk

theorem ownSuccess_rival :
    ∃ cfg, Machine.replaySparing (requests platform mockConfig) (sparesLookups platform mockConfig)
        9 (.initial World.initial) rivalSchedule = some cfg ∧
      succeeds (ended cfg 6) = some false ∧ succeeds (ended cfg 7) = some true ∧
      succeeds (ended cfg 8) = some true ∧ OwnSuccess cfg := by
  have hrun : (Machine.replaySparing (requests platform mockConfig)
      (sparesLookups platform mockConfig) 9 (.initial World.initial) rivalSchedule).any fun cfg =>
        succeeds (ended cfg 6) = some false ∧ succeeds (ended cfg 7) = some true ∧
          succeeds (ended cfg 8) = some true := by decide +kernel
  obtain ⟨cfg, hcfg, hended⟩ := (Option.any_eq_true ..).mp hrun
  obtain ⟨h₆, h₇, h₈⟩ := of_decide_eq_true hended
  exact ⟨cfg, hcfg, h₆, h₇, h₈, ownSuccess (.of_replay sparesLookups_of_none (by decide) hcfg)⟩

/-- While Ada's withdrawal to her bank is on its way, she sends money to Bob with
the same key. -/
def otherBodySchedule : List (Machine.Action (walletApi platform mockConfig)) :=
  fundedAda ++ .spawn 6 (.postWithdrawals ⟨"u1"⟩ (some idempotencyKey) toBank) :: calm 6 3 ++
    generate 6 ["uuid"] ++ calm 6 1 ++ sendToBob 7 idempotencyKey "x1" "r2" "r3" ++ calm 6 3

def succeedsWithOtherBody (cfg : Machine.Config (walletApi platform mockConfig)) (i : ℕ) : Bool :=
  match ended cfg i with
  | some (.postWithdrawals actor header dto, .ok _) =>
      match requireIdempotencyKey header with
      | .ok key => (cfg.state.db.withdrawalsOf actor.userId key).any
          (·.requestBodyHash ≠ dto.hash platform)
      | .error _ => false
  | _ => false

/-- The withdrawal to the bank succeeds, although the key belongs to the money
for Bob. -/
theorem other_body_succeeds :
    ∃ cfg, Machine.replayUnder (requests platform mockConfig) (.initial World.initial)
        otherBodySchedule = some cfg ∧ ¬ OwnSuccess cfg := by
  have hrun : (Machine.replayUnder (requests platform mockConfig) (.initial World.initial)
      otherBodySchedule).any fun cfg => succeedsWithOtherBody cfg 6 := by decide +kernel
  obtain ⟨cfg, hcfg, hother⟩ := (Option.any_eq_true ..).mp hrun
  refine ⟨cfg, hcfg, fun hown => ?_⟩
  unfold succeedsWithOtherBody at hother
  split at hother
  · rename_i actor header dto r hr
    split at hother
    · rename_i key hkey
      obtain ⟨w, hw, hne⟩ := List.any_eq_true.mp hother
      exact of_decide_eq_true hne
        (hown 6 actor header dto r key w hw (threads_of_ended hr) hkey)
    · cases hother
  · cases hother

end WalletApi
