import WalletApi.Safety.Replay

/-!
Accepted withdrawals and their payout jobs.

The debit of a withdrawal to a bank is committed before its payout is enqueued,
and only the request that has made the withdrawal enqueues it. If that request
fails or stops in between, or has not got further yet, a client that repeats it is
told of success, and the payout is not enqueued. A run shows this. In all runs in
which no action parts a commit from its job, success means that the job has been
added.
-/

namespace WalletApi

open Concurrency ReadCommitted World Policy Schedule

variable {P : Platform} {config : Config} {i : ℕ} {s u v : World} {actor : JwtPayloadUser}
  {header : Option String} {dto : CreateWithdrawalDto} {key : String}

/-- The payout of the withdrawal has been enqueued, if it has one. -/
def World.payoutAdded (s : World) (w : Withdrawal) : Bool :=
  decide (w.destinationType ≠ .bank) || s.history.any fun e => e.added = some (payoutJob w.id)

/-- The withdrawals that a command, if it goes through, leads the request to answer with:
those of its key after the first lookup, if the body is the same, and all of them at the end
of a transaction in which nothing has been written. -/
def World.replayed (P : Platform) (call : Call) (i : ℕ) (c : Cmd) (s : World) : List Withdrawal :=
  match call, c with
  | .postWithdrawals _ _ dto, .select .pool (.withdrawalByUserAndIdempotencyKey userId key) =>
      (s.db.withdrawalsOf userId key).filter (·.requestBodyHash = dto.hash P)
  | .postWithdrawals actor header _, .commit =>
      match requireIdempotencyKey header with
      | .ok key => if (s.store.opened i).any List.isEmpty then s.db.withdrawalsOf actor.userId key
          else []
      | .error _ => []
  | _, _ => []

theorem mem_of_replayed {call : Call} {c : Cmd} {w : Withdrawal}
    (h : w ∈ s.replayed P call i c) : w ∈ s.db.withdrawals := by
  unfold World.replayed at h
  split at h
  · exact (mem_withdrawalsOf.mp (List.mem_filter.mp h).1).1
  · split at h
    · split at h
      · exact (mem_withdrawalsOf.mp h).1
      · exact absurd h List.not_mem_nil
    · exact absurd h List.not_mem_nil
  · exact absurd h List.not_mem_nil

/-- The runs in which no replay meets a withdrawal without a payout job. -/
def Queued (P : Platform) (call : Call) (i : ℕ) (c : Cmd) (ch : Choice) (s : World) : Prop :=
  ch.fault = .none → ∀ w ∈ s.replayed P call i c, s.payoutAdded w = true

/-- No request for a withdrawal has left one behind that waits for a payout nobody has
asked for. -/
def LeavesQueued (cfg : Machine.Config (walletApi P config)) : Prop :=
  ∀ i actor header dto r key, ∀ w ∈ cfg.state.db.withdrawalsOf actor.userId key,
    cfg.threads i = some (.running (.postWithdrawals actor header dto) (.ret r)) →
    requireIdempotencyKey header = .ok key → w.destinationType = .bank →
    w.status = .processing → ∃ e ∈ cfg.state.history, e.added = some (payoutJob w.id)

theorem exists_added {w : Withdrawal} (h : s.payoutAdded w = true) (hw : w.destinationType = .bank) :
    ∃ e ∈ s.history, e.added = some (payoutJob w.id) := by
  simp only [payoutAdded, hw, ne_eq, not_true_eq_false, decide_false, Bool.false_or] at h
  obtain ⟨e, he, hadded⟩ := List.any_eq_true.mp h
  exact ⟨e, he, of_decide_eq_true hadded⟩

theorem added_of_runs (h : ((bookkeeping (Queued P)).discipline P config).Runs s u) {job : Job}
    (hadded : ∃ e ∈ s.history, e.added = some job) : ∃ e ∈ u.history, e.added = some job := by
  obtain ⟨es, hes⟩ := history_of_runs h
  obtain ⟨e, he, hjob⟩ := hadded
  exact ⟨e, hes ▸ List.mem_append_right _ he, hjob⟩

/-- The withdrawal that a replay is about has its job. -/
theorem added_of_replay (hkey : requireIdempotencyKey header = .ok key) {w₀ w : Withdrawal}
    (h : Replays P config (bookkeeping (Queued P)) (.postWithdrawals actor header dto) i s
      actor.userId key (dto.hash P) w₀ u)
    (huv : ((bookkeeping (Queued P)).discipline P config).Runs u v) (hu : v.db.Unique)
    (hw : w ∈ v.db.withdrawalsOf actor.userId key) (hbank : w.destinationType = .bank) :
    ∃ e ∈ v.history, e.added = some (payoutJob w.id) := by
  obtain ⟨t, v', -, htv, hvu, -, -, ⟨hw₀, huser, hwkey⟩, hlookup⟩ := h
  have hmem : w₀ ∈ t.db.withdrawalsOf actor.userId key := mem_withdrawalsOf.mpr ⟨hw₀, huser, hwkey⟩
  have hcore := core_of_runs (htv.trans (hvu.trans huv)) hu hmem hw
  have hbank' : w₀.destinationType = .bank := (Withdrawal.kind_of_core hcore).symm.trans hbank
  rw [Withdrawal.id_of_core hcore]
  rcases hlookup with ⟨rfl, hhash, ch, hfault, hallows⟩ | ⟨hopened, ch, hfault, hallows⟩
  · have hqueued : ∀ w ∈ (t.db.withdrawalsOf actor.userId key).filter
        (·.requestBodyHash = dto.hash P), t.payoutAdded w = true := hallows hfault
    exact added_of_runs (htv.trans (hvu.trans huv)) (exists_added
      (hqueued w₀ (List.mem_filter.mpr ⟨hmem, decide_eq_true hhash⟩)) hbank')
  · obtain ⟨w₁, hw₁, hcore₁⟩ := (grows_of_runs htv).withdrawalsOf hmem
    have hreplayed : w₁ ∈ v'.replayed P (.postWithdrawals actor header dto) i .commit := by
      simpa [World.replayed, hkey, hopened] using hw₁
    have hadded := exists_added (hallows hfault w₁ hreplayed)
      ((Withdrawal.kind_of_core hcore₁).trans hbank')
    rw [Withdrawal.id_of_core hcore₁] at hadded
    exact added_of_runs (hvu.trans huv) hadded

theorem leavesQueued_of_queued {cfg : Machine.Config (walletApi P config)}
    (h : Machine.Reachable (api P config (Queued P)) World.initial cfg) : LeavesQueued cfg := by
  intro i actor header dto r key w hw hth hkey hbank _
  have C := api_certified P config (Queued P) .true
  obtain ⟨s, -, hrely, key', response, hkey', -, hanswers⟩ := C.returned h hth
  obtain ⟨hu, -, -⟩ := (C.inv h).2.2
  cases hkey.symm.trans hkey'
  cases hanswers with
  | replayed s₀ w₀ _ hreplays => exact added_of_replay hkey hreplays hrely.runs hu hw hbank
  | created t v ws w₀ _ _ hvs _ hw₀ hboth _ hjob =>
      have hcore := core_of_runs (hvs.trans hrely.runs) hu (mem_withdrawalsOf.mpr ⟨hw₀, hboth⟩) hw
      rcases hjob with hadded | hwallet
      · rw [Withdrawal.id_of_core hcore]
        exact added_of_runs hrely.runs hadded
      · cases hbank.symm.trans ((Withdrawal.kind_of_core hcore).trans hwallet)

/-! ### From the commit to the job -/

/-- The job that the command adds to a queue. -/
def Cmd.adds : Cmd → Option Job
  | .queueAdd job => some job
  | _ => none

theorem Cmd.eq_of_adds {c : Cmd} {job : Job} (h : c.adds = some job) : c = .queueAdd job := by
  unfold Cmd.adds at h
  split at h
  · rw [Option.some.inj h]
  · cases h

/-- The command enqueues a payout. -/
def Cmd.addsPayout (c : Cmd) : Bool := c.adds.any fun job => job.queue = .withdrawalPayout

/-- Thread `j` goes on to enqueue the payout of the withdrawal. -/
def enqueuesNext (cfg : Machine.Config (walletApi P config)) (w : Withdrawal) (j : ℕ) : Bool :=
  match cfg.threads j with
  | some (.running _ (.op c _)) => decide (Cmd.adds c = some (payoutJob w.id))
  | _ => false

/-- The command of thread `i`, a commit of a withdrawal to a bank or the addition of a
payout job, does not keep the request from adding the job. -/
def carriesOn (s : World) (i : ℕ) (c : Cmd) (ch : Choice) : Bool :=
  (!Cmd.isCommit c || decide (ch.fault ≠ .lost) ||
      (s.store.buffer i).all fun w => (Write.withdrawal w).all (·.destinationType ≠ .bank)) &&
    (!Cmd.addsPayout c || decide (ch.fault ≠ .failed))

/-- The action does not part the commit of a withdrawal to a bank from its payout job: it
neither stops nor fails the request in between, and does not answer another one with the
withdrawal that thread `j` is about to enqueue. -/
def sparesPayouts (P : Platform) (config : Config) (cfg : Machine.Config (walletApi P config))
    (a : Machine.Action (walletApi P config)) (j : ℕ) : Bool :=
  match a with
  | .spawn .. => true
  | .crash i =>
      match cfg.threads i with
      | some (.running _ (.op c _)) => !Cmd.addsPayout c
      | _ => true
  | .step i ch =>
      match cfg.threads i with
      | some (.running call (.op c _)) =>
          carriesOn cfg.state i c ch && (decide (ch.fault ≠ .none) ||
            (World.replayed P call i c cfg.state).all fun w => !enqueuesNext cfg w j)
      | _ => true

/-- A thread that is not there enqueues nothing. -/
theorem sparesPayouts_of_none (cfg : Machine.Config (walletApi P config))
    (a : Machine.Action (walletApi P config)) (i j : ℕ) (hnone : cfg.threads j = none)
    (h : sparesPayouts P config cfg a i = true) : sparesPayouts P config cfg a j = true := by
  have hnext : ∀ w, enqueuesNext cfg w j = false := by
    intro w
    simp only [enqueuesNext, hnone]
  cases a with
  | spawn k call => rfl
  | crash k => exact h
  | step k ch =>
      simp only [sparesPayouts] at h ⊢
      split at h
      · simp [hnext, (Bool.and_eq_true_iff.mp h).1]
      · rfl

section Kept

variable {cfg cfg' : Machine.Config (walletApi P config)} {j : ℕ} {w w' : Withdrawal} {ch : Choice}

/-- The payout of the withdrawal has been enqueued, or a request is about to enqueue it. -/
def PayoutKept (cfg : Machine.Config (walletApi P config)) (w : Withdrawal) : Prop :=
  (∃ e ∈ World.history cfg.state, e.added = some (payoutJob w.id)) ∨
    ∃ j, enqueuesNext cfg w j = true

theorem exists_of_enqueuesNext (h : enqueuesNext cfg w j = true) :
    ∃ call k, cfg.threads j = some (.running call (.op (.queueAdd (payoutJob w.id)) k)) := by
  unfold enqueuesNext at h
  split at h
  · rename_i call c k hth
    obtain rfl := Cmd.eq_of_adds (of_decide_eq_true h)
    exact ⟨call, k, hth⟩
  · cases h

theorem enqueuesNext_of_thread {call : Call}
    {k : Except Err (Cmd.Resp (.queueAdd (payoutJob w.id))) → Program Response}
    (hth : cfg.threads j = some (.running call (.op (.queueAdd (payoutJob w.id)) k))) :
    enqueuesNext cfg w j = true := by
  simp [enqueuesNext, hth, Cmd.adds]

theorem PayoutKept.of_core (h : PayoutKept cfg w) (hcore : w'.core = w.core) :
    PayoutKept cfg w' := by
  have hid := Withdrawal.id_of_core hcore
  unfold PayoutKept enqueuesNext at h ⊢
  rw [hid]
  exact h

/-- A step that adds a job does not fail, so it has added it. -/
theorem added_of_step {job : Job} {r : Except Err Unit} {t : World}
    (hfault : ch.fault ≠ .failed)
    (he : World.exec P config i (.queueAdd job) ch s = some (r, t)) :
    ∃ e ∈ t.history, e.added = some job := by
  rcases World.exec_eq_some he with ⟨-, hf, -⟩ | ⟨r', s', hp, -, rfl⟩
  · exact absurd hf hfault
  · cases hp
    exact ⟨_, .head _, rfl⟩

/-- An action that spares it keeps the payout of a withdrawal. -/
theorem PayoutKept.next {a : Machine.Action (walletApi P config)}
    (hspares : ∀ j, sparesPayouts P config cfg a j = true) (hn : Machine.next cfg a = some cfg')
    (h : PayoutKept cfg w) : PayoutKept cfg' w := by
  rcases h with ⟨e, he, hadded⟩ | ⟨j, hnext⟩
  · obtain ⟨es, hes⟩ := history_of_next hn
    exact .inl ⟨e, hes ▸ List.mem_append_right _ he, hadded⟩
  · obtain ⟨call, k, hth⟩ := exists_of_enqueuesNext hnext
    by_cases hj : j = a.thread
    · cases a with
      | spawn i call' =>
          obtain rfl : j = i := hj
          obtain ⟨hnone, -⟩ := Machine.next_spawn_iff.mp hn
          cases hnone.symm.trans hth
      | crash i =>
          obtain rfl : j = i := hj
          have hspared := hspares j
          simp only [sparesPayouts, hth] at hspared
          cases hspared
      | step i ch =>
          obtain rfl : j = i := hj
          have hspared := hspares j
          simp only [sparesPayouts, hth] at hspared
          have hcarries := (Bool.and_eq_true_iff.mp (Bool.and_eq_true_iff.mp hspared).1).2
          have hfault : ch.fault ≠ .failed := of_decide_eq_true hcarries
          obtain ⟨call', c, k', r, t, hth', he, rfl⟩ := Machine.next_step_iff.mp hn
          cases hth.symm.trans hth'
          exact .inl (added_of_step hfault he)
    · rw [← (aside_of_next hn hj).threads] at hth
      exact .inr ⟨j, enqueuesNext_of_thread hth⟩

/-- A request that commits a withdrawal to a bank is about to enqueue its payout. -/
theorem PayoutKept.made {A : Machine.Assumptions (walletApi P config)} {row : Withdrawal}
    (hr : Machine.Reachable A World.initial cfg) (hr' : Machine.Reachable A World.initial cfg')
    (hmakes : CommitsRow cfg i row) (hfailed : ch.fault ≠ .failed) (hbank : row.destinationType = .bank)
    (hspares : sparesPayouts P config cfg (.step i ch) i = true)
    (hn : Machine.next cfg (.step i ch) = some cfg') : PayoutKept cfg' row := by
  obtain ⟨⟨actor, header, dto, k, hkey, hth⟩, ws, hopened, hrow⟩ := hmakes
  have hlost : ch.fault ≠ .lost := by
    intro hlost
    simp only [sparesPayouts, hth] at hspares
    have hcarries := (Bool.and_eq_true_iff.mp (Bool.and_eq_true_iff.mp hspares).1).1
    simp only [Cmd.isCommit, hlost, Store.buffer_of_opened hopened, Bool.not_true, ne_eq,
      not_true_eq_false, decide_false, Bool.false_or] at hcarries
    have hkind := List.all_eq_true.mp hcarries _ hrow
    simp [Write.withdrawal, hbank] at hkind
  obtain ⟨call, c, k', r, t, hth', he, rfl⟩ := Machine.next_step_iff.mp hn
  cases hth.symm.trans hth'
  have hok : r = .ok () := by
    rcases World.exec_eq_some he with ⟨-, hf, -⟩ | ⟨r', s', hp, rfl | ⟨-, hf, -⟩, -⟩
    · exact absurd hf hfailed
    · obtain ⟨store, -, hstore⟩ := Option.map_eq_some_iff.mp hp
      cases hstore
      rfl
    · exact absurd hf hlost
  subst hok
  obtain ⟨e, hmem, hpid, hcmd⟩ := staged_logged hr i ws hopened _ hrow
  have hwritten : e.exchange ∈ own i (World.log cfg.state) := by
    refine mem_own.mpr (List.mem_map.mpr ⟨e, hmem, ?_⟩)
    rw [hpid]
  have hdue : Due (own i (World.log t)) (payoutJob row.id) := by
    rw [World.log_exec he, own_cons_self]
    exact ⟨_, row, rfl, hbank, rfl, e.exchange, hwritten, congrArg Cmd.makes hcmd⟩
  have hset := Machine.Config.threads_set_self cfg t i
    (.running (.postWithdrawals actor header dto) (k (.ok ())))
  obtain ⟨k', hk⟩ := next_of_due hr' hset hkey hdue
  have hthread := congrArg (Machine.Thread.running (M := walletApi P config)
    (.postWithdrawals actor header dto)) hk
  exact .inr ⟨i, enqueuesNext_of_thread (hset.trans (congrArg some hthread))⟩

theorem payoutKept_of_sparing
    (h : Machine.Sparing (requests P config) (sparesPayouts P config) World.initial cfg) :
    ∀ w ∈ (World.db cfg.state).withdrawals, w.destinationType = .bank → PayoutKept cfg w := by
  refine h.invariant (I := fun cfg => ∀ w ∈ (World.db cfg.state).withdrawals,
    w.destinationType = .bank → PayoutKept cfg w) (fun w hw => absurd hw List.not_mem_nil) ?_
  intro cfg cfg' a hr hp hspares hn ih w hw hbank
  rcases withdrawal_of_next (fun _ hcall => hcall) hr hn hw with
    ⟨w₀, hw₀, hcore⟩ | ⟨i, ch, row, rfl, hfault, hcore, hmakes⟩
  · have hkept := ih w₀ hw₀ ((Withdrawal.kind_of_core hcore).symm.trans hbank)
    exact (hkept.next hspares hn).of_core hcore
  · exact (PayoutKept.made hr (.next _ hr hp hn) hmakes hfault
      ((Withdrawal.kind_of_core hcore).symm.trans hbank) (hspares i) hn).of_core hcore

end Kept

/-- If no action parts a commit from its payout job, no replay meets a withdrawal without
one. -/
theorem queued_of_sparing {cfg : Machine.Config (walletApi P config)}
    (h : Machine.Sparing (requests P config) (sparesPayouts P config) World.initial cfg) :
    Machine.Reachable (api P config (Queued P)) World.initial cfg := by
  induction h with
  | initial => exact .initial
  | @next cfg cfg' a h hp hspares hn ih =>
      refine .next a ih ?_ hn
      cases a with
      | spawn i call => exact hp
      | crash i => trivial
      | step i ch =>
          intro call c k hth hfault w hw
          cases hbank : w.destinationType with
          | wallet => simp [World.payoutAdded, hbank]
          | bank =>
              rcases payoutKept_of_sparing h w (mem_of_replayed hw) hbank with
                ⟨e, he, hadded⟩ | ⟨j, hnext⟩
              · refine (Bool.or_eq_true ..).mpr (.inr (List.any_eq_true.mpr ⟨e, he, ?_⟩))
                exact decide_eq_true hadded
              · have hspared := hspares j
                simp only [sparesPayouts, hth, hfault, ne_eq, not_true_eq_false, decide_false,
                  Bool.false_or] at hspared
                have hnot := List.all_eq_true.mp (Bool.and_eq_true_iff.mp hspared).2 w hw
                rw [hnext] at hnot
                cases hnot

/-- If no action parts the commit of a withdrawal to a bank from its payout job, a request
that has succeeded for a withdrawal that is still processing leaves it with one. -/
theorem leavesQueued {cfg : Machine.Config (walletApi P config)}
    (h : Machine.Sparing (requests P config) (sparesPayouts P config) World.initial cfg) :
    LeavesQueued cfg :=
  leavesQueued_of_queued (queued_of_sparing h)

/-- Ada sends a withdrawal to her bank three times: the second request is done while the
first one is between its lookups, and the third one comes when both have ended. -/
def repeatPayoutSchedule : List (Machine.Action (walletApi platform mockConfig)) :=
  fundedAda ++ .spawn 6 (.postWithdrawals ⟨"u1"⟩ (some idempotencyKey) toBank) :: calm 6 3 ++
    generate 6 ["uuid'"] ++ calm 6 1 ++ payToBank 7 idempotencyKey "uuid" "x1" "r2" ++ calm 6 3 ++
    .spawn 8 (.postWithdrawals ⟨"u1"⟩ (some idempotencyKey) toBank) :: calm 8 3 ++
    generate 8 ["uuid''"] ++ calm 8 1

theorem leavesQueued_repeat :
    ∃ cfg, Machine.replaySparing (requests platform mockConfig) (sparesPayouts platform mockConfig)
        9 (.initial World.initial) repeatPayoutSchedule = some cfg ∧
      succeeds (ended cfg 6) = some true ∧ succeeds (ended cfg 7) = some true ∧
      succeeds (ended cfg 8) = some true ∧ LeavesQueued cfg := by
  have hrun : (Machine.replaySparing (requests platform mockConfig)
      (sparesPayouts platform mockConfig) 9 (.initial World.initial) repeatPayoutSchedule).any
        fun cfg => succeeds (ended cfg 6) = some true ∧ succeeds (ended cfg 7) = some true ∧
          succeeds (ended cfg 8) = some true := by decide +kernel
  obtain ⟨cfg, hcfg, hended⟩ := (Option.any_eq_true ..).mp hrun
  obtain ⟨h₆, h₇, h₈⟩ := of_decide_eq_true hended
  exact ⟨cfg, hcfg, h₆, h₇, h₈, leavesQueued (.of_replay sparesPayouts_of_none (by decide) hcfg)⟩

/-- The queue cannot be reached after the commit, so the request fails, and Ada repeats it. -/
def unqueuedSchedule : List (Machine.Action (walletApi platform mockConfig)) :=
  fundedAda ++ (payToBank 6 idempotencyKey "uuid" "x1" "r2").dropLast ++
    [.step 6 { fault := .failed },
      .spawn 7 (.postWithdrawals ⟨"u1"⟩ (some idempotencyKey) toBank)] ++ calm 7 3 ++
    generate 7 ["uuid'"] ++ calm 7 1

def succeedsWithoutJob (cfg : Machine.Config (walletApi platform mockConfig)) (i : ℕ) : Bool :=
  match ended cfg i with
  | some (.postWithdrawals actor header _, .ok _) =>
      match requireIdempotencyKey header with
      | .ok key => (cfg.state.db.withdrawalsOf actor.userId key).any fun w =>
          w.destinationType = .bank ∧ w.status = .processing ∧
            ∀ e ∈ cfg.state.history, e.added ≠ some (payoutJob w.id)
      | .error _ => false
  | _ => false

/-- The repeated request succeeds, but nobody has enqueued the payout. -/
theorem succeeds_without_job :
    ∃ cfg, Machine.replayUnder (requests platform mockConfig) (.initial World.initial)
        unqueuedSchedule = some cfg ∧ succeeds (ended cfg 6) = some false ∧ ¬LeavesQueued cfg := by
  have hrun : (Machine.replayUnder (requests platform mockConfig) (.initial World.initial)
      unqueuedSchedule).any fun cfg =>
        succeeds (ended cfg 6) = some false ∧ succeedsWithoutJob cfg 7 = true := by decide +kernel
  obtain ⟨cfg, hcfg, hended⟩ := (Option.any_eq_true ..).mp hrun
  obtain ⟨hfailed, hwithout⟩ := of_decide_eq_true hended
  refine ⟨cfg, hcfg, hfailed, fun hleaves => ?_⟩
  unfold succeedsWithoutJob at hwithout
  split at hwithout
  · rename_i actor header dto r hr
    split at hwithout
    · rename_i key hkey
      obtain ⟨w, hw, hbad⟩ := List.any_eq_true.mp hwithout
      obtain ⟨hbank, hs, hnone⟩ := of_decide_eq_true hbad
      obtain ⟨e, he, hadded⟩ :=
        hleaves 7 actor header dto r key w hw (threads_of_ended hr) hkey hbank hs
      exact hnone e he hadded
    · cases hwithout
  · cases hwithout

end WalletApi
