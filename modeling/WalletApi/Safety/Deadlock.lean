import Mathlib.Data.String.Basic
import WalletApi.Concurrency.LockOrder
import WalletApi.Concurrency.Typestate
import WalletApi.Runs.Commits

/-!
The wallet locks never deadlock.

Every operation on the journal asks for the locks of wallets in ascending order;
this is a demand of the common discipline, so it holds of every run. What is left
to show is that a lock is always held by an operation that is still on its way:
whatever happens inside a transaction, the operation does not come to an end
before a commit or a rollback has been answered.
-/

namespace WalletApi

open Concurrency ReadCommitted World Policy WithdrawalRepository WalletLedgerService

variable {P : Platform} {config : Config} {q : Call} {i : ℕ} {s : World} {α β : Type} {d : Db}

/-! ### The operations -/

/-- One of the six operations on the journal, with any arguments. -/
def Call.transacts : Call → Bool
  | executeP2p _ | executeBankAccept _ | postCreditPending _ | completeCreditSuccessful _
  | postDebitSuccessful _ | postReversalCredit _ => true
  | _ => false

variable (P config) in
def transactions : Machine.Assumptions (walletApi P config) := .calls fun call => call.transacts

instance : DecidablePred (transactions P config).admits :=
  fun call => inferInstanceAs (Decidable (call.transacts = true))

instance : ∀ call i c ch s, Decidable ((transactions P config).allows call i c ch s) :=
  fun _ _ _ _ _ => .isTrue trivial

/-- A world with the given tables, in which nothing has happened yet. -/
def World.ofDb (d : Db) : World := { World.initial with store := .ofDb d }

/-- The discipline by itself. -/
def unconditional : Policy where
  Inv _ := True
  Guar _ _ _ := True
  Allows _ _ _ _ _ := True
  quiet _ _ := ⟨trivial, trivial⟩

theorem transactions_certified (hd : d.Unique) :
    Certified (walletApi P config) (transactions P config) (World.ofDb d)
      (unconditional.discipline P config) (fun _ _ _ _ => True) (fun _ _ _ _ => True) where
  initial := ⟨Store.Coherent.ofDb (T := schema) d, hd, trivial⟩
  covers _ _ _ he := ⟨_, trivial, he⟩
  crash _ hs := crash_step hs
  call {call i s} hcall _ := by
    have mapped {α : Type} {f : α → Response} {p : Program α}
        (h : (unconditional.discipline P config).wp call i p (fun _ _ => True) (fun _ _ => True) s) :
        (unconditional.discipline P config).wp call i (f <$> p) (fun _ _ => True)
          (fun _ _ => True) s := wp_map h
    have granted {s t : World} : unconditional.Inv t ∧ unconditional.Guar i s t :=
      ⟨trivial, trivial⟩
    cases call with
    | executeP2p data =>
        exact mapped (wp_executeP2p (fun _ => True) (fun _ _ _ => trivial) .true
          (fun _ _ _ _ => trivial) (fun _ _ _ _ _ _ _ _ _ _ => granted) (fun _ _ _ => trivial)
          fun _ _ _ _ _ _ _ _ => trivial)
    | executeBankAccept data =>
        exact mapped (wp_executeBankAccept (fun _ => True) (fun _ _ _ => trivial) .true
          (fun _ _ _ _ => trivial) (fun _ _ _ _ _ _ _ _ _ => granted) (fun _ _ _ => trivial)
          fun _ _ _ _ _ _ _ => trivial)
    | postCreditPending input =>
        exact mapped (wp_postCreditPending (.any fun _ _ => trivial) (fun _ _ _ _ _ _ => granted)
          fun _ _ _ => trivial)
    | completeCreditSuccessful input =>
        exact mapped (wp_completeCreditSuccessful (fun _ _ => trivial)
          (fun _ _ _ _ _ _ _ _ _ => granted) fun _ _ _ => trivial)
    | postDebitSuccessful input =>
        exact mapped (wp_postDebitSuccessful (.any fun _ _ => trivial)
          (fun _ _ _ _ _ _ _ => granted) fun _ _ _ => trivial)
    | postReversalCredit input =>
        exact mapped (wp_postReversalCredit (.any fun _ _ => trivial)
          (fun _ _ _ _ _ _ _ _ => granted) fun _ _ _ => trivial)
    | _ => cases hcall

/-! ### Open transactions

The typestate of a thread is whether it may have a transaction open. -/

/-- A commit that is not answered may not have been carried out. -/
def mayBeOpen (o : Bool) (c : Cmd) (r : Except Err c.Resp) : Bool :=
  match c, r.isOk with
  | .begin, _ => true
  | .rollback, _ | .commit, true => false
  | _, _ => o

/-- The program leaves no transaction open, if none is open before. -/
abbrev Closes (p : Program α) : Prop :=
  p.Tracks (S := signature) mayBeOpen false (· = false) (· = false)

/-- The commands that neither begin nor end a transaction. -/
abbrev Keeps (c : signature.Cmd) : Prop := ∀ o r, mayBeOpen o c r = o

theorem keeps_of_bounds (c : Cmd) (hc : c.bounds = false) : Keeps c := by
  intro o r
  cases c with
  | begin => cases hc
  | commit => cases hc
  | rollback => cases hc
  | _ => rfl

theorem keeps_of_inner (c : Cmd) (hc : c.inner = true) : Keeps c := by
  refine keeps_of_bounds c ?_
  obtain ⟨-, hbounds⟩ := Bool.and_eq_true_iff.mp hc
  simpa using hbounds

namespace Closes

theorem ret {a : α} : Closes (.ret a) := rfl

theorem keeps {p : Program α} (hp : p.Within Keeps) : Closes p := .within hp rfl rfl

theorem bind {p : Program β} {f : β → Program α} (hp : Closes p) (hf : ∀ b, Closes (f b)) :
    Closes (p >>= f) := by
  refine Prog.Tracks.bind (hp.mono (fun o ho b => ?_) fun _ h => h)
  subst ho
  exact hf b

theorem map {f : β → α} {p : Program β} (hp : Closes p) : Closes (f <$> p) :=
  hp.bind fun _ => ret

theorem tryCatch {p : Program α} {h : Err → Program α} (hp : Closes p) (hh : ∀ e, Closes (h e)) :
    Closes (tryCatch p h) := by
  refine Prog.Tracks.tryCatch (hp.mono (fun _ h => h) fun o ho e => ?_)
  subst ho
  exact hh e

/-- A transaction is closed on every path: what fails is rolled back. -/
theorem transaction {body : Program α} (hbody : body.Within Keeps) :
    Closes (transaction body) := by
  have undo (o : Bool) (e : Err) : Prog.Tracks (S := signature) mayBeOpen o
      (perform .rollback >>= fun _ => (throw e : Program α)) (· = false) (· = false) :=
    .bind (.perform (fun _ _ => rfl) fun _ => rfl)
  refine Prog.Tracks.tryCatch (.bind (.perform (fun _ _ => ?_) fun _ e => undo _ e))
  refine .bind (.within hbody (fun a => ?_) fun e => undo _ e)
  exact .bind (.perform (fun _ _ => rfl) fun _ e => undo _ e)

end Closes

theorem closes_of_transacts {call : Call} (hcall : call.transacts = true) :
    Closes (program P config call) := by
  have written (w : Write) : Keeps (.write .tx w) := keeps_of_bounds _ rfl
  have lookup {client : Client} {qy : Query} : (select client qy).Within (S := signature) Keeps :=
    .perform (keeps_of_bounds _ rfl)
  have checked {p : Prop} [Decidable p] {e : Err} : (throwIf p e).Within Keeps := within_throwIf
  cases call with
  | executeP2p data =>
      refine .map (.bind (.keeps lookup) fun existing => ?_)
      cases existing with
      | some w => exact .keeps within_replay
      | none =>
          refine .tryCatch (.transaction (within_p2pTransaction keeps_of_inner
            (keeps_of_bounds _ rfl) fun _ _ _ w _ => written w)) fun e => ?_
          exact .keeps (.ite (fun _ => .fail) fun _ => .fail)
  | executeBankAccept data =>
      refine .map (.bind (.keeps lookup) fun existing => ?_)
      cases existing with
      | some w => exact .keeps within_replay
      | none =>
          refine .tryCatch (.transaction (within_bankTransaction keeps_of_inner
            (keeps_of_bounds _ rfl) fun _ _ w _ => written w)) fun e => ?_
          exact .keeps (.ite (fun _ => .fail) fun _ => .fail)
  | postCreditPending input =>
      refine .map (.bind (.keeps checked) fun _ => .bind (.keeps lookup) fun existing => ?_)
      cases existing with
      | some r => exact .ret
      | none =>
          exact .transaction (within_pendingTransaction keeps_of_inner fun _ _ => written _)
  | completeCreditSuccessful input =>
      exact .map (.transaction (within_completeTransaction keeps_of_inner fun _ => written _))
  | postDebitSuccessful input =>
      refine .map (.bind (.keeps checked) fun _ => .bind (.keeps lookup) fun existing => ?_)
      cases existing with
      | some r => exact .ret
      | none =>
          refine .tryCatch (.transaction (within_debitTransaction keeps_of_inner
            fun _ _ => written _)) fun e => ?_
          exact .keeps (.ite (fun _ => .fail) fun _ => .fail)
  | postReversalCredit input =>
      refine .map (.bind (.keeps checked) fun _ => .bind (.keeps lookup) fun existing => ?_)
      cases existing with
      | some r => exact .ret
      | none =>
          refine .bind (.keeps lookup) fun _ => .bind (.keeps within_orThrow) fun original => ?_
          refine .bind (.keeps (.bind checked fun _ => .bind checked fun _ => checked)) fun _ => ?_
          refine .tryCatch (.transaction (within_reversalTransaction keeps_of_inner
            fun _ _ => written _)) fun e => ?_
          exact .keeps (.ite (fun _ => .fail) fun _ => .fail)
  | _ => cases hcall

/-- What the typestate tells: without it there is no open transaction. -/
def OpenOnlyIf (i : ℕ) (o : Bool) (s : World) : Prop := (s.store.opened i).isSome → o = true

theorem closed_of_rollback {ch : Choice} {s t : World} {r : Except Err Unit}
    (h : World.exec P config i .rollback ch s = some (r, t)) : t.store.opened i = none := by
  obtain ⟨s', hp, rfl⟩ := exec_infallible rfl h
  cases hp
  exact Function.update_self ..

theorem openOnlyIf_reads : Machine.Reads (walletApi P config) mayBeOpen OpenOnlyIf where
  step {i c ch s r t o} he h hopen := by
    have closed (hnone : t.store.opened i = none) : mayBeOpen o c r = true := by
      rw [hnone] at hopen
      cases hopen
    rcases exec_buffers he with ht | ⟨rfl, -, -⟩ | ⟨ws, w, rfl, hws, -⟩ | ⟨-, ht⟩
    · rw [ht] at hopen
      cases c with
      | begin => rfl
      | rollback =>
          have he' : World.exec P config i .rollback ch s = some (r, t) := he
          exact closed (closed_of_rollback he')
      | commit =>
          cases r with
          | error e => exact h hopen
          | ok a =>
              obtain ⟨ws, -, -, hnone⟩ := committed_of_exec rfl he
              exact closed hnone
      | _ => exact h hopen
    · rfl
    · exact h (by rw [hws]; rfl)
    · rw [ht, Function.update_self] at hopen
      cases hopen
  others hj he h hopen := by
    have hstep := (exec_store he).owned
    rw [hstep.opened hj] at hopen
    exact h hopen
  crash {i j s o} h hopen := by
    by_cases hj : j = i
    · subst hj
      simp [walletApi, World.crash, Store.rollback, Store.release] at hopen
    · refine h ?_
      simpa [walletApi, World.crash, Store.rollback, Store.release, Function.update_of_ne hj]
        using hopen

/-! ### The result -/

section Result

variable {cfg : Machine.Config (walletApi P config)}

/-- The call of the thread has not come to an end. -/
def Unfinished (cfg : Machine.Config (walletApi P config)) (i : ℕ) : Prop :=
  ∃ call c k, cfg.threads i = some (.running call (.op c k))

/-- The thread asks for the lock of a wallet that another thread holds. -/
def WaitsFor (cfg : Machine.Config (walletApi P config)) (i : ℕ) (walletId : String) : Prop :=
  ∃ call k j, cfg.threads i = some (.running call (.op (.lockWalletRow walletId) k)) ∧
    (World.store cfg.state).locks walletId = some j ∧ j ≠ i

/-- A lock is held by a call that is still on its way. -/
theorem unfinished_of_lock (hd : d.Unique)
    (h : Machine.Reachable (transactions P config) (World.ofDb d) cfg) {walletId : String} {j : ℕ}
    (hlock : (World.store cfg.state).locks walletId = some j) : Unfinished cfg j := by
  have hcoherent : (World.store cfg.state).Coherent := ((transactions_certified hd).inv h).1
  have hopen := hcoherent.locked hlock
  have htracked := h.tracked openOnlyIf_reads (fun _ hsome => by cases hsome)
    (fun j s hsome => ?_) (fun call hcall => closes_of_transacts hcall) j
  · cases hth : cfg.threads j with
    | none =>
        rw [hth] at htracked
        cases htracked hopen
    | some th =>
        rw [hth] at htracked
        cases th with
        | crashed call => cases htracked hopen
        | running call p =>
            obtain ⟨o, htracks, hread⟩ := htracked
            cases hread hopen
            cases p with
            | ret a => cases htracks
            | fail e => cases htracks
            | op c k => exact ⟨call, c, k, hth⟩
  · simp [walletApi, World.crash, Store.rollback, Store.release] at hsome

/-- Whichever of the operations run at the same time, over whichever wallets, and
whatever fails: in no reachable state does every unfinished operation wait for a
lock that another one holds. For `sortWalletIds` sorts by a strict total order,
and every operation asks for its locks in that order. -/
theorem no_deadlock (hd : d.Unique)
    (h : Machine.Reachable (transactions P config) (World.ofDb d) cfg) :
    ((∃ i, Unfinished cfg i) → ∃ i, Unfinished cfg i ∧ ∀ walletId, ¬WaitsFor cfg i walletId) ∧
    (∀ i call (walletId held : String) k,
      cfg.threads i = some (.running call (.op (.lockWalletRow walletId) k)) →
      (World.store cfg.state).locks held = some i → held ≤ walletId) ∧
    IsStrictTotalOrder String (· < ·) ∧
    ∀ ids, (sortWalletIds ids).Perm ids ∧ (sortWalletIds ids).Pairwise fun a b => ¬b < a := by
  have ascending {i : ℕ} {call : Call} {walletId held : String}
      {k : Except Err Bool → Program Response}
      (hth : cfg.threads i = some (.running call (.op (.lockWalletRow walletId) k)))
      (hheld : (World.store cfg.state).locks held = some i) : held ≤ walletId :=
    (transactions_certified hd).demand h hth walletId rfl held hheld
  refine ⟨fun hunfinished => ?_, fun i call walletId held k hth hheld => ascending hth hheld,
    inferInstance, fun ids => ⟨List.perm_insertionSort _ _, ?_⟩⟩
  · have hfinite : {i | Unfinished cfg i}.Finite := h.threads_finite.subset fun i hi => by
      obtain ⟨call, c, k, hth⟩ := hi
      exact fun hnone => by cases hth.symm.trans hnone
    refine @exists_not_waiting ℕ String _ _ (World.store cfg.state).locks (WaitsFor cfg) hfinite
      hunfinished (fun i walletId hwaits => ?_) fun i held walletId hwaits hheld => ?_
    · obtain ⟨call, k, j, -, hlock, hj⟩ := hwaits
      exact ⟨j, unfinished_of_lock hd h hlock, hj, hlock⟩
    · obtain ⟨call, k, j, hth, -, -⟩ := hwaits
      exact ascending hth hheld
  · exact (List.pairwise_insertionSort _ _).imp fun hle => not_lt.mpr hle

end Result

/-- Ada and Bob have wallets. -/
def twoWallets : Db :=
  { Db.empty with
    wallets :=
      [⟨"w1", "u1", "NGN", .active⟩, ⟨"w2", "u2", "NGN", .active⟩] }

/-- They send each other money, and both begin with Ada's wallet. -/
def opposite : List (Machine.Action (walletApi Schedule.platform Schedule.mockConfig)) :=
  [.spawn 0 (.executeP2p
      { userId := "u1"
        senderWalletId := "w1"
        destinationWalletId := "w2"
        amount := 400
        currency := "NGN"
        idempotencyKey := "k1"
        requestBodyHash := "h1" }),
    .spawn 1 (.executeP2p
      { userId := "u2"
        senderWalletId := "w2"
        destinationWalletId := "w1"
        amount := 400
        currency := "NGN"
        idempotencyKey := "k2"
        requestBodyHash := "h2" })] ++
    Schedule.calm 0 4 ++ Schedule.calm 1 3

/-- The wallet that the thread waits for. -/
def waitingFor (cfg : Machine.Config (walletApi P config)) (i : ℕ) : Option String :=
  match cfg.threads i with
  | some (.running _ (.op (.lockWalletRow walletId) _)) =>
      ((World.store cfg.state).locks walletId).bind fun j => if j = i then none else some walletId
  | _ => none

theorem waitsFor_of_waitingFor {cfg : Machine.Config (walletApi P config)} {walletId : String}
    (h : waitingFor cfg i = some walletId) : WaitsFor cfg i walletId := by
  unfold waitingFor at h
  split at h
  · rename_i call walletId' k hth
    obtain ⟨j, hlock, hj⟩ := Option.bind_eq_some_iff.mp h
    split at hj
    · cases hj
    · rename_i hne
      cases hj
      exact ⟨call, k, j, hth, hlock, hne⟩
  · cases h

theorem no_deadlock_opposite :
    ∃ cfg, Machine.replayUnder (transactions Schedule.platform Schedule.mockConfig)
        (.initial (World.ofDb twoWallets)) opposite = some cfg ∧
      WaitsFor cfg 1 "w1" ∧ ∃ i, Unfinished cfg i ∧ ∀ walletId, ¬WaitsFor cfg i walletId := by
  have hrun : (Machine.replayUnder (transactions Schedule.platform Schedule.mockConfig)
      (.initial (World.ofDb twoWallets)) opposite).any fun cfg =>
        waitingFor cfg 1 = some "w1" := by decide +kernel
  obtain ⟨cfg, hcfg, hwaiting⟩ := (Option.any_eq_true ..).mp hrun
  have hwaits := waitsFor_of_waitingFor (of_decide_eq_true hwaiting)
  obtain ⟨call, k, j, hth, -⟩ := id hwaits
  have hunique : twoWallets.keys.Nodup := by decide
  exact ⟨cfg, hcfg, hwaits, (no_deadlock hunique (.replayUnder hcfg)).1 ⟨1, call, _, k, hth⟩⟩

end WalletApi
