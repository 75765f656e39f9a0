import WalletApi.Safety.Reconciliation

/-!
Terminal statuses of withdrawals.

Both workers read a withdrawal, ask the provider, and then write a status without
looking again. Two executions that overlap can therefore disagree: the one that
is late overwrites a terminal status, or posts a reversal for a withdrawal that
has been paid out. A run shows this. As long as no execution writes after another
one has written a different terminal status since its own read, terminal statuses
are final.
-/

namespace WalletApi

open Concurrency World Policy Schedule

variable {P : Platform} {config : Config} {i : ℕ} {s t : World} {w : Withdrawal}
  {cfg cfg' : Machine.Config (walletApi P config)}

/-! ### The runs without the race -/

/-- The events, newest first, that are later than some read of the withdrawal by
the thread. -/
def afterRead (i : ℕ) (id : String) : List Event → List Event
  | [] => []
  | e :: es => if es.any (·.reads i id) then e :: afterRead i id es else []

theorem mem_afterRead {id : String} {es h : List Event} {e₀ e : Event}
    (hreads : e₀.reads i id = true) (he : e ∈ es) : e ∈ afterRead i id (es ++ e₀ :: h) := by
  induction es with
  | nil => exact absurd he List.not_mem_nil
  | cons e' es ih =>
      have hany : (es ++ e₀ :: h).any (·.reads i id) = true :=
        List.any_eq_true.mpr ⟨e₀, List.mem_append_right _ (.head _), hreads⟩
      rw [List.cons_append, afterRead, if_pos hany]
      rcases List.mem_cons.mp he with rfl | hrest
      · exact .head _
      · exact .tail _ (ih hrest)

/-- No other terminal status has been written since the thread read the withdrawal. -/
def writesInTime (i : ℕ) (id : String) (status : WithdrawalStatus) (s : World) : Bool :=
  (afterRead i id s.history).all fun e =>
    match e.statusWritten id with
    | some status' => !status'.terminal || status' = status
    | none => true

/-- The withdrawal has not become successful since the thread read it. -/
def reversesInTime (i : ℕ) (id : String) (s : World) : Bool :=
  (afterRead i id s.history).all fun e => e.statusWritten id ≠ some .successful

/-- A status is written, and a reversal committed, in time. -/
def settlesInTime (i : ℕ) (c : Cmd) (ch : Choice) (s : World) : Bool :=
  match c with
  | .write .pool (.updateWithdrawal id data) =>
      match data.status with
      | some status => decide (ch.fault = .failed) || writesInTime i id status s
      | none => true
  | .commit =>
      match s.store.opened i with
      | some [.createWalletTransaction r] =>
          match r.withdrawalId with
          | some id =>
              decide (ch.fault = .failed) || decide (r.purpose ≠ .reversal) || reversesInTime i id s
          | none => true
      | _ => true
  | _ => true

/-- The runs in which no execution of a worker is overtaken by another one. -/
def NotOvertaken (_ : Call) (i : ℕ) (c : Cmd) (ch : Choice) (s : World) : Prop :=
  settlesInTime i c ch s = true

instance : ∀ call i c ch s, Decidable (NotOvertaken call i c ch s) :=
  fun _ i c ch s => inferInstanceAs (Decidable (settlesInTime i c ch s = true))

/-! ### One step -/

/-- From `cfg` to `cfg'` no terminal status is changed, and no reversal is posted
for a withdrawal that is successful. -/
structure StaysFinal (d d' : Db) : Prop where
  status : ∀ w ∈ d.withdrawals, w.status.terminal = true → ∀ w' ∈ d'.withdrawals, w'.id = w.id →
    w'.status = w.status
  reversal : ∀ w ∈ d.withdrawals, w.status = .successful → ∀ r ∈ d'.walletTransactions,
    r.purpose = .reversal → r.withdrawalId = some w.id → r ∈ d.walletTransactions

/-- A terminal status that a thread has watched since its read was written since. -/
theorem World.Watched.written (h : s.Watched i w.id) (hw : w ∈ s.db.withdrawals)
    (hterminal : w.status.terminal = true) :
    ∃ e ∈ afterRead i w.id s.history, e.statusWritten w.id = some w.status := by
  obtain ⟨es, e₀, h, status, hhistory, hreads, hopen, hwritten⟩ := h
  rcases hwritten w hw rfl with hstatus | ⟨e, he, hwrote⟩
  · rw [hstatus, hopen] at hterminal
    cases hterminal
  · exact ⟨e, hhistory ▸ mem_afterRead hreads he, hwrote⟩

theorem staysFinal_of_moved (h : Moved NotOvertaken i s t) : StaysFinal s.db t.db where
  status w hw hterminal w' hw' hid := by
    rcases h.status w hw w' hw' hid with hsame | ⟨-, hwatched, q, ch, data, hfault, hdata, hallows⟩
    · exact hsame
    · obtain ⟨e, he, hwrote⟩ := hwatched.written hw hterminal
      have htime : settlesInTime i (.write .pool (.updateWithdrawal w.id data)) ch s = true :=
        hallows
      simp only [settlesInTime, hdata, hfault, decide_false, Bool.false_or] at htime
      have hevent := List.all_eq_true.mp htime e he
      simp only [hwrote, hterminal, Bool.not_true, Bool.false_or] at hevent
      exact (of_decide_eq_true hevent).symm
  reversal w hw hs r hr hp hid := by
    rcases h.reversal r hr hp with hold | ⟨id, hid', hwatched, q, ch, hfault, hopened, hallows⟩
    · exact hold
    · cases hid.symm.trans hid'
      obtain ⟨e, he, hwrote⟩ := hwatched.written hw (by rw [hs]; rfl)
      have htime : settlesInTime i .commit ch s = true := hallows
      simp only [settlesInTime, hopened, hid, hfault, hp, ne_eq, not_true_eq_false, decide_false,
        Bool.false_or] at htime
      rw [hs] at hwrote
      exact absurd hwrote (of_decide_eq_true (List.all_eq_true.mp htime e he))

/-! ### Runs -/

theorem StaysFinal.refl {d : Db} (hu : d.Unique) : StaysFinal d d where
  status _ hw _ _ hw' hid := by rw [hu.withdrawal_ext hw' hw hid]
  reversal _ _ _ _ hr _ _ := hr

theorem StaysFinal.trans {d d' d'' : Db} (h : StaysFinal d d') (hg : d.Grows d')
    (h' : StaysFinal d' d'') : StaysFinal d d'' where
  status w hw hterminal w'' hw'' hid := by
    obtain ⟨w', hw', hcore⟩ := hg.withdrawals w hw
    have hid' := Withdrawal.id_of_core hcore
    have hstatus := h.status w hw hterminal w' hw' hid'
    exact (h'.status w' hw' (hstatus ▸ hterminal) w'' hw'' (hid.trans hid'.symm)).trans hstatus
  reversal w hw hs r hr hp hid := by
    obtain ⟨w', hw', hcore⟩ := hg.withdrawals w hw
    have hid' := Withdrawal.id_of_core hcore
    have hstatus := h.status w hw (by rw [hs]; rfl) w' hw' hid'
    exact h.reversal w hw hs r (h'.reversal w' hw' (hstatus.trans hs) r hr hp (hid'.symm ▸ hid))
      hp hid

/-- As long as no worker is overtaken by another one between its read and its
write, terminal statuses are final, and nothing is given back that has been paid
out. -/
theorem staysFinal (h : Machine.Reachable (api P config NotOvertaken) World.initial cfg)
    (hrun : Machine.Run (api P config NotOvertaken) cfg cfg') :
    StaysFinal cfg.state.db cfg'.state.db := by
  have C := api_certified P config NotOvertaken .true
  induction hrun with
  | refl => exact .refl (C.inv h).2.1
  | @tail mid last hmid hlast ih =>
      obtain ⟨a, hp, hn⟩ := hlast
      have hmid' : Machine.Reachable (api P config NotOvertaken) World.initial mid := h.run hmid
      refine ih.trans (grows_of_run hmid) ?_
      rcases C.guar_of_next hmid' hp hn with heq | ⟨i, hg⟩
      · rw [heq]
        exact .refl (C.inv hmid').2.1
      · exact staysFinal_of_moved hg.2.2

/-! ### Two runs -/

/-- The payout of a withdrawal has been taken on, and a worker has read it in order
to settle it. -/
def beforeSettle : List (Machine.Action (walletApi platform liveConfig)) :=
  fundedAda ++ payToBank 6 idempotencyKey "uuid" "x1" "r2" ++ payout 7 "x1" (accepts "p1") ++
    readForSettle 8 "x1"

/-- The worker learns that the transfer was successful, and says so. -/
def settleSuccessful : List (Machine.Action (walletApi platform liveConfig)) :=
  steps 8 [reports "successful", {}]

theorem staysFinal_schedule :
    ∃ cfg cfg', Machine.Run (api platform liveConfig NotOvertaken) cfg cfg' ∧
      (∃ w ∈ cfg.state.db.withdrawals, w.status = .successful) ∧
      StaysFinal cfg.state.db cfg'.state.db := by
  have hrun : (Machine.replayUnder (api platform liveConfig NotOvertaken) (.initial World.initial)
      (beforeSettle ++ settleSuccessful)).any fun cfg =>
        (∃ w ∈ cfg.state.db.withdrawals, w.status = .successful) ∧
          (Machine.replayUnder (api platform liveConfig NotOvertaken) cfg
            (readForSettle 9 "x1")).isSome := by decide +kernel
  obtain ⟨cfg, hcfg, h⟩ := (Option.any_eq_true ..).mp hrun
  obtain ⟨hs, hsome⟩ := of_decide_eq_true h
  obtain ⟨cfg', hcfg'⟩ := Option.isSome_iff_exists.mp hsome
  exact ⟨cfg, cfg', .replayUnder hcfg', hs, staysFinal (.replayUnder hcfg) (.replayUnder hcfg')⟩

/-- A second worker, that has read the withdrawal before, is told otherwise. -/
def settleFailed : List (Machine.Action (walletApi platform liveConfig)) :=
  steps 9 [reports "failed"] ++ calm 9 5 ++ generate 9 ["r3"] ++ calm 9 4

/-- The second worker gives the withdrawal back that has been paid out. -/
theorem overtaken_worker_reverses :
    ∃ cfg cfg', Machine.replayUnder (requests platform liveConfig) (.initial World.initial)
        (beforeSettle ++ readForSettle 9 "x1" ++ settleSuccessful) = some cfg ∧
      Machine.replayUnder (requests platform liveConfig) cfg settleFailed = some cfg' ∧
      ¬ StaysFinal cfg.state.db cfg'.state.db := by
  have hrun : (Machine.replayUnder (requests platform liveConfig) (.initial World.initial)
      (beforeSettle ++ readForSettle 9 "x1" ++ settleSuccessful)).any fun cfg =>
        (Machine.replayUnder (requests platform liveConfig) cfg settleFailed).any fun cfg' =>
          ∃ w ∈ cfg.state.db.withdrawals, ∃ w' ∈ cfg'.state.db.withdrawals,
            w.status = .successful ∧ w'.id = w.id ∧ w'.status = .reversed := by decide +kernel
  obtain ⟨cfg, hcfg, h⟩ := (Option.any_eq_true ..).mp hrun
  obtain ⟨cfg', hcfg', h'⟩ := (Option.any_eq_true ..).mp h
  obtain ⟨w, hw, w', hw', hs, hid, hs'⟩ := of_decide_eq_true h'
  refine ⟨cfg, cfg', hcfg, hcfg', fun hfinal => ?_⟩
  have hsame := hfinal.status w hw (by rw [hs]; rfl) w' hw' hid
  rw [hs, hs'] at hsame
  cases hsame

end WalletApi
