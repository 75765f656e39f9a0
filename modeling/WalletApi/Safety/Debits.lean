import WalletApi.Concurrency.Settling
import WalletApi.Safety.Competition
import WalletApi.Safety.Progress

/-!
Concurrent debits succeed exactly as often as the money allows.

What is left to show is that requests which compete for a wallet come to their ends.
They cannot wait for each other's entries in the unique indexes, because their keys are
different and what they generate is new. So they wait for the locks of wallets only,
and these are taken in ascending order.
-/

namespace WalletApi

open Concurrency ReadCommitted Machine World Policy WithdrawalRepository WalletTransactionRepository

variable {P : Platform} {config : Config} {α : Type} {i j : ℕ} {s t : World} {b : ℤ}

/-! ### The programs of the requests -/

/-- The command takes no job. -/
abbrev Untaking (c : signature.Cmd) : Prop := Cmd.scope c ≠ .take

theorem untaking_of_inner (c : signature.Cmd) (h : Inner c) : Untaking c := by
  intro htake
  have hinside : Phase.next .inside (Cmd.scope c) false = .inside := h (.error .network)
  rw [htake] at hinside
  cases hinside

theorem untaking_transaction {body : Program α} (h : body.Within Inner) :
    (transaction body).Within Untaking := by
  refine .tryCatch (.bind (.perform nofun) fun _ => .bind (h.mono untaking_of_inner) fun a => ?_)
    fun e => .bind (.perform nofun) fun _ => .fail
  exact .bind (.perform nofun) fun _ => .ret

theorem untaking_rethrow {body : Program α} (h : body.Within Inner) :
    (rethrowWalletMissing (transaction body)).Within Untaking :=
  .tryCatch (untaking_transaction h) fun _ => .ite (fun _ => .fail) fun _ => .fail

/-- The entries that only the request with the key makes. -/
def ownKeys (userId key : String) : List Key :=
  .withdrawalIdempotencyKey userId key ::
    (withdrawalRowKeys userId key).map .walletTransactionIdempotencyKey

theorem start_of_rowKey {userId key a : String} (h : a ∈ withdrawalRowKeys userId key) :
    ∃ start ∈ keyStarts, a = start ++ userId ++ ":" ++ key := by
  simp only [withdrawalRowKeys, List.mem_cons, List.not_mem_nil, or_false] at h
  rcases h with h | h | h
  · exact ⟨_, by decide, h⟩
  · exact ⟨_, by decide, h⟩
  · exact ⟨_, by decide, h⟩

theorem eq_of_ownKeys {userId key key' : String} {k : Key} (hkey : isUuid4 key = true)
    (hkey' : isUuid4 key' = true) (h : k ∈ ownKeys userId key) (h' : k ∈ ownKeys userId key') :
    key = key' := by
  have hrows {a : String} (ha : a ∈ withdrawalRowKeys userId key)
      (ha' : a ∈ withdrawalRowKeys userId key') : key = key' := by
    obtain ⟨start, hstart, rfl⟩ := start_of_rowKey ha
    obtain ⟨start', hstart', heq⟩ := start_of_rowKey ha'
    by_cases hsame : start = start'
    · subst hsame
      exact (key_inj hkey hkey' heq).2
    · simp only [String.append_assoc] at heq
      exact absurd heq (ne_of_keyStarts hstart hstart' hsame)
  rcases List.mem_cons.mp h with rfl | h
  · rcases List.mem_cons.mp h' with heq | h'
    · cases heq
      rfl
    · obtain ⟨_, -, heq⟩ := List.mem_map.mp h'
      cases heq
  · obtain ⟨a, ha, rfl⟩ := List.mem_map.mp h
    rcases List.mem_cons.mp h' with heq | h'
    · cases heq
    · obtain ⟨a', ha', heq⟩ := List.mem_map.mp h'
      cases heq
      exact hrows ha ha'

theorem entries_of_withdrawal (w : Withdrawal) : ∀ k ∈ (Write.createWithdrawal w).keys,
    k.generated = true ∨ k ∈ ownKeys w.userId w.idempotencyKey := by
  intro k hk
  rcases List.mem_cons.mp hk with rfl | hk
  · exact .inl rfl
  · rcases List.mem_cons.mp hk with rfl | hk
    · exact .inr (.head _)
    · obtain ⟨reference, -, rfl⟩ := List.mem_map.mp hk
      exact .inl rfl

theorem entries_of_row {userId key : String} {row : WalletTransaction}
    (h : row.idempotencyKey ∈ withdrawalRowKeys userId key) :
    ∀ k ∈ (Write.createWalletTransaction row).keys, k.generated = true ∨ k ∈ ownKeys userId key := by
  intro k hk
  rcases List.mem_cons.mp hk with rfl | hk
  · exact .inl rfl
  · rw [List.mem_singleton.mp hk]
    exact .inr (.tail _ (List.mem_map_of_mem h))

namespace Outflow

def userId : Outflow → String
  | p2p data => data.userId
  | bank data => data.userId

/-- What a request writes is in its transaction, and the entries are its own. -/
def Makes (o : Outflow) (c : Cmd) : Prop :=
  ∀ client w, c = .write client w → client = .tx ∧
    ∀ k ∈ w.keys, k.generated = true ∨ k ∈ ownKeys o.userId o.idempotencyKey

theorem untaking (o : Outflow) : (program P config o.call).Within Untaking := by
  cases o with
  | p2p data =>
      refine .map (.bind (.perform nofun) fun existing => ?_)
      cases existing with
      | some w => exact within_replay
      | none => exact untaking_rethrow inner_p2pTransaction
  | bank data =>
      refine .map (.bind (.perform nofun) fun existing => ?_)
      cases existing with
      | some w => exact within_replay
      | none => exact untaking_rethrow inner_bankTransaction

theorem makes_of_common (o : Outflow) : ∀ c : Cmd, c.common = true → o.Makes c := by
  rintro c hc client w rfl
  cases hc

theorem makes_select (o : Outflow) {client : Client} {qy : Query} : o.Makes (.select client qy) := by
  intro client w h
  cases h

theorem makes (o : Outflow) : (program P config o.call).Within o.Makes := by
  cases o with
  | p2p data =>
      refine .map (within_executeP2p (makes_of_common _) (fun _ => makes_select _)
        fun a b c w hw client w' heq => ?_)
      cases heq
      refine ⟨rfl, ?_⟩
      simp only [ExecuteP2pWithdrawalData.writes, List.mem_cons, List.not_mem_nil, or_false] at hw
      rcases hw with rfl | rfl | rfl | rfl
      · exact entries_of_withdrawal _
      · exact entries_of_row (.head _)
      · exact entries_of_row (.tail _ (.head _))
      · exact fun _ hk => absurd hk List.not_mem_nil
  | bank data =>
      refine .map (within_executeBankAccept (makes_of_common _) (fun _ => makes_select _)
        fun a b w hw client w' heq => ?_)
      cases heq
      refine ⟨rfl, ?_⟩
      simp only [ExecuteBankWithdrawalData.writes, List.mem_cons, List.not_mem_nil, or_false] at hw
      rcases hw with rfl | rfl | rfl
      · exact entries_of_withdrawal _
      · exact entries_of_row (.tail _ (.tail _ (.head _)))
      · exact fun _ hk => absurd hk List.not_mem_nil

theorem tracks (o : Outflow) : (program P config o.call).Tracks (S := signature) Phase.after .fresh
    Phase.Closed Phase.Closed := by
  cases o with
  | p2p data => exact (Orderly.map orderly_executeP2p).fresh
  | bank data => exact (Orderly.map orderly_executeBankAccept).fresh

end Outflow

/-! ### Nobody waits for long -/

variable (P config) in
/-- The calls from outside and all requests for money to leave a wallet. -/
def outflows : Assumptions (walletApi P config) :=
  .calls fun call => call.isApi = true ∨ ∃ o : Outflow, call = o.call

/-- The thread serves a call that makes the write, if it is a request for money. -/
def Makes (cfg : Machine.Config (walletApi P config)) (i : ℕ) (w : Write) : Prop :=
  ∃ th, cfg.threads i = some th ∧ ∀ o : Outflow, th.call = o.call → o.Makes (.write .tx w)

theorem Makes.next {cfg cfg' : Machine.Config (walletApi P config)} {a : Action (walletApi P config)}
    (hn : next cfg a = some cfg') {w : Write} (h : Makes cfg i w) : Makes cfg' i w := by
  obtain ⟨th, hth, hw⟩ := h
  obtain ⟨th', hth', hcall⟩ := call_of_next hn hth
  refine ⟨th', hth', ?_⟩
  rw [hcall]
  exact hw

section Runs

variable {cfg cfg' : Machine.Config (walletApi P config)}

theorem tracks_outflows {call : Call} (h : (outflows P config).admits call) :
    (program P config call).Tracks (S := signature) Phase.after .fresh Phase.Closed Phase.Closed := by
  rcases h with hapi | ⟨o, rfl⟩
  · exact tracks_program hapi
  · exact o.tracks

/-- What all commands of a request are like, the next command of its thread is like. -/
theorem within_of_thread {F : Outflow → Cmd → Prop} (hF : ∀ o : Outflow, (program P config o.call).Within (F o))
    (h : Reachable (outflows P config) World.initial cfg) {call : Call} {c : Cmd}
    {k : Except Err c.Resp → Program Response} (hth : cfg.threads i = some (.running call (.op c k)))
    {o : Outflow} (ho : call = o.call) : F o c := by
  have hwithin := h.within (C := fun call c => ∀ o : Outflow, call = o.call → F o c) ?_ hth
  · exact hwithin.1 o ho
  · intro call' _
    by_cases hcall : ∃ o : Outflow, call' = o.call
    · obtain ⟨o, rfl⟩ := hcall
      exact (hF o).mono fun c hc o' ho' => Outflow.call_injective ho' ▸ hc
    · exact .all fun c o ho => absurd ⟨o, ho⟩ hcall

/-- What a request has in its buffer. -/
theorem staged_of_outflows (h : Reachable (outflows P config) World.initial cfg) :
    World.Staged (Makes cfg) cfg.state := by
  induction h with
  | initial => exact fun _ _ hopen => by cases hopen
  | @next cfg cfg' a hr _ hn ih =>
      cases a with
      | spawn i call =>
          have hkeep {j : ℕ} {w : Write} : Makes cfg j w → Makes cfg' j w := .next hn
          obtain ⟨-, rfl⟩ := next_spawn_iff.mp hn
          exact fun j ws hopen w hw => hkeep (ih j ws hopen w hw)
      | step i ch =>
          have hkeep {j : ℕ} {w : Write} : Makes cfg j w → Makes cfg' j w := .next hn
          obtain ⟨call, c, k, r, t, hth, he, rfl⟩ := next_step_iff.mp hn
          exact World.Staged.exec ih he (fun _ _ => hkeep) fun w hw =>
            hkeep ⟨_, hth, fun o ho => hw ▸ within_of_thread Outflow.makes hr hth ho⟩
      | crash i =>
          have hkeep {j : ℕ} {w : Write} : Makes cfg j w → Makes cfg' j w := .next hn
          obtain ⟨call, p, -, rfl⟩ := next_crash_iff.mp hn
          exact World.Staged.crash fun j ws hopen w hw => hkeep (ih j ws hopen w hw)

namespace Contest

variable (C : Contest)

theorem outflows_of_run (h : Reachable (requests P config) World.initial cfg)
    (hrun : Run (C.assumptions P config) cfg cfg') : Reachable (outflows P config) World.initial cfg' := by
  have hbefore : Reachable (outflows P config) World.initial cfg :=
    h.mono (fun _ hcall => Or.inl hcall) fun _ _ _ _ _ _ => trivial
  refine hbefore.run (hrun.mono (fun call hcall => ?_) fun _ _ _ _ _ _ => trivial)
  rcases hcall with hapi | ⟨i, -, hcall⟩
  · exact .inl hapi
  · exact .inr ⟨_, hcall⟩

/-- Everybody has made its request, and nobody else is under way. -/
structure Left (cfg₀ cfg : Machine.Config (walletApi P config)) : Prop where
  run : Run (C.assumptions P config) cfg₀ cfg
  made : ∀ i ∈ C.threads, ∃ p, cfg.threads i = some (.running (C.request i).call p)
  others : ∀ j, j ∉ C.threads → ¬Unfinished cfg j

theorem Left.step {cfg₀ : Machine.Config (walletApi P config)} {ch : Choice} (h : C.Left cfg₀ cfg)
    (hi : i ∈ C.threads) (hp : (C.assumptions P config).Permits cfg (.step i ch))
    (hn : next cfg (.step i ch) = some cfg') : C.Left cfg₀ cfg' := by
  refine ⟨h.run.tail ⟨_, hp, hn⟩, fun j hj => ?_, fun j hj hunfinished => ?_⟩
  · obtain ⟨p, hth⟩ := h.made j hj
    obtain ⟨call, c, k, r, t, hth', -, rfl⟩ := next_step_iff.mp hn
    by_cases hji : j = i
    · subst hji
      cases hth.symm.trans hth'
      exact ⟨_, Config.threads_set_self ..⟩
    · exact ⟨p, (Config.threads_set_of_ne _ _ _ hji).trans hth⟩
  · obtain ⟨call, c, k, r, t, -, -, rfl⟩ := next_step_iff.mp hn
    obtain ⟨call', c', k', hth⟩ := hunfinished
    have hji : j ≠ i := fun heq => hj (heq ▸ hi)
    rw [Config.threads_set_of_ne _ _ _ hji] at hth
    exact h.others j hj ⟨call', c', k', hth⟩

theorem userId_eq (hi : i ∈ C.threads) : (C.request i).userId = C.wallet.userId := by
  have hdebits := C.debits i hi
  cases hrequest : C.request i with
  | p2p data => exact (hrequest ▸ hdebits).1
  | bank data => exact (hrequest ▸ hdebits).1

/-- What the requests generate is new. -/
def Lucky (cfg : Machine.Config (walletApi P config)) : Prop :=
  ∀ i ∈ C.threads, ∀ call c k, cfg.threads i = some (.running call (.op c k)) →
    Cmd.EntersNew cfg.state c

/-- The requests do not wait for entries of each other. -/
theorem claimant {cfg₀ : Machine.Config (walletApi P config)}
    (h : Reachable (requests P config) World.initial cfg₀) (hleft : C.Left cfg₀ cfg)
    (hcoherent : (World.store cfg.state).Coherent) (hlucky : C.Lucky cfg) (hi : i ∈ C.threads)
    {call : Call} {client : Client} {w : Write} {k : Except Err w.Result → Program Response}
    (hth : cfg.threads i = some (.running call (.op (.write client w) k))) {x : Key} (hx : x ∈ w.keys)
    (hclaim : (World.store cfg.state).claims x = some j) : j = i := by
  have hreach := C.outflows_of_run h hleft.run
  have hnew := hlucky i hi _ _ _ hth
  obtain ⟨p, hown⟩ := hleft.made i hi
  cases hth.symm.trans hown
  obtain ⟨rfl, hentries⟩ := within_of_thread Outflow.makes hreach hth rfl client w rfl
  obtain ⟨ws, hopen, w', hw', hx'⟩ := hcoherent.claimed.mp hclaim
  have hj : j ∈ C.threads := by
    by_contra hj
    cases (opened_of_ended (fun _ => tracks_outflows) hreach (hleft.others j hj)).symm.trans hopen
  obtain ⟨p', hth'⟩ := hleft.made j hj
  obtain ⟨th, hth'', hmade⟩ := staged_of_outflows hreach j ws hopen w' hw'
  cases hth'.symm.trans hth''
  obtain ⟨-, hentries'⟩ := hmade _ rfl .tx w' rfl
  -- A generated entry is new, and any other one tells which request has made it.
  have hold : x.generated ≠ true := by
    intro hgen
    have hnone := (hnew.new hx hgen).2
    rw [hclaim] at hnone
    cases hnone
  rcases hentries x hx with hgen | hmine
  · exact absurd hgen hold
  · rcases hentries' x hx' with hgen | htheirs
    · exact absurd hgen hold
    · rw [C.userId_eq hi] at hmine
      rw [C.userId_eq hj] at htheirs
      exact C.distinct j hj i hi (eq_of_ownKeys (C.uuid j hj) (C.uuid i hi) htheirs hmine)

theorem waits_ascending {cfg₀ : Machine.Config (walletApi P config)} {walletId held : String}
    (hfits : C.Fits) (h : Reachable (requests P config) World.initial cfg₀) (hfair : C.Fair (World.db cfg₀.state))
    (hrun : Run (C.assumptions P config) cfg₀ cfg) (hwaits : WaitsFor cfg i walletId)
    (hheld : (World.store cfg.state).locks held = some i) : held ≤ walletId := by
  obtain ⟨call, k, j, hth, -, -⟩ := hwaits
  have hkept := (C.kept_of_fair h hfair).run (C.stretch hfits) hrun
  obtain ⟨s, -, hrely, hwp⟩ := hkept.threads i call _ hth
  exact (hwp cfg.state hkept.inv hrely).1 walletId rfl held hheld

/-- As long as somebody is under way, somebody can go on. -/
theorem can_go_on {cfg₀ : Machine.Config (walletApi P config)}
    (hfits : C.Fits) (h : Reachable (requests P config) World.initial cfg₀) (hfair : C.Fair (World.db cfg₀.state))
    (hleft : C.Left cfg₀ cfg) (hlucky : C.Lucky cfg) (hunfinished : ∃ i, Unfinished cfg i) :
    ∃ i ∈ C.threads, ∃ ch cfg', (C.assumptions P config).Permits cfg (.step i ch) ∧
      next cfg (.step i ch) = some cfg' := by
  have hreach := C.outflows_of_run h hleft.run
  have hcoherent : (World.store cfg.state).Coherent :=
    ((C.kept_of_fair h hfair).run (C.stretch hfits) hleft.run).inv.1
  have hfinite : {i | Unfinished cfg i}.Finite := hreach.threads_finite.subset fun i hi => by
    obtain ⟨call, c, k, hth⟩ := hi
    exact fun hnone => by cases hth.symm.trans hnone
  -- Locks are waited for in ascending order, so somebody does not wait for a lock.
  obtain ⟨i, hi, hfree⟩ := @exists_not_waiting ℕ String _ _ (World.store cfg.state).locks
    (WaitsFor cfg) hfinite hunfinished (fun i walletId hwaits => by
      obtain ⟨call, k, j, -, hlock, hj⟩ := hwaits
      refine ⟨j, ?_, hj, hlock⟩
      by_contra hend
      have hopen := hcoherent.locked hlock
      rw [opened_of_ended (fun _ => tracks_outflows) hreach hend] at hopen
      cases hopen) fun i held walletId hwaits hheld => C.waits_ascending hfits h hfair hleft.run hwaits hheld
  have hmember : i ∈ C.threads := by
    by_contra hi'
    exact hleft.others i hi' hi
  obtain ⟨call, c, k, hth⟩ := hi
  obtain ⟨p, hown⟩ := hleft.made i hmember
  cases hth.symm.trans hown
  have hclear : Clear i c cfg.state := by
    refine ⟨fun walletId j hc hlock => ?_, fun client w x j hc hx hclaim => ?_⟩
    · by_contra hj
      subst hc
      exact hfree walletId ⟨_, k, j, hth, hlock, hj⟩
    · subst hc
      exact C.claimant h hleft hcoherent hlucky hmember hth hx hclaim
  have htracked := tracked_of_reachable (fun _ => tracks_outflows) hreach i
  rw [hth] at htracked
  obtain ⟨o, htracks, htells⟩ := htracked
  have huntaking : Untaking c :=
    within_of_thread (F := fun _ => Untaking) Outflow.untaking hreach hth rfl
  obtain ⟨r, t, he⟩ := exec_of_perform {} rfl
    (isSome_perform hcoherent hclear (fun _ => huntaking) htells (in_order htracks))
  refine ⟨i, hmember, {}, _, fun call' c' k' hth' => ?_, next_step_iff.mpr ⟨_, _, _, _, _, hth, he, rfl⟩⟩
  cases hth.symm.trans hth'
  exact ⟨rfl, fun _ => ⟨hlucky i hmember _ _ _ hth, rfl⟩, fun hne => absurd ⟨hmember, rfl⟩ hne⟩

/-! ### The result -/

/-- A number of debits that has used up the money, or has served everybody. -/
theorem eq_min_ediv {k n : ℕ} {balance amount : ℤ} (hamount : 1 ≤ amount) (hk : k ≤ n)
    (hsolvent : 0 ≤ balance - amount * k) (hstop : k ≠ n → balance - amount * k < amount) :
    (k : ℤ) = min (n : ℤ) (balance / amount) := by
  have hle : (k : ℤ) ≤ balance / amount :=
    Int.le_ediv_of_mul_le (by omega) (by rw [mul_comm]; omega)
  by_cases heq : k = n
  · subst heq
    exact (min_eq_left hle).symm
  · have hlt : balance / amount < k + 1 := by
      refine Int.ediv_lt_of_lt_mul (by omega) ?_
      rw [add_mul, one_mul, mul_comm]
      have hpoor := hstop heq
      omega
    rw [min_eq_right (by omega)]
    omega

/-- As many requests as the balance pays for have succeeded, and the others have been
refused and have left no row behind. -/
structure Outcome (balance : ℤ) (cfg : Machine.Config (walletApi P config)) : Prop where
  successes : ((C.threads.filter fun i => succeeded cfg i).card : ℤ) =
    min (C.threads.card : ℤ) (balance / C.amount)
  refused : ∀ i ∈ C.threads, succeeded cfg i = false → C.Refused cfg i ∧
    (World.db cfg.state).FreeKey C.wallet.userId (C.request i).idempotencyKey
  balance : sumSuccessfulBalance (World.db cfg.state) C.wallet.id =
    balance - C.amount * min (C.threads.card : ℤ) (balance / C.amount)

theorem outcome_of_ended {cfg₀ : Machine.Config (walletApi P config)}
    (hfits : C.Fits) (h : Reachable (requests P config) World.initial cfg₀) (hfair : C.Fair (World.db cfg₀.state))
    (hrun : Run (C.assumptions P config) cfg₀ cfg)
    (hended : ∀ i ∈ C.threads, ∃ r, Schedule.ended cfg i = some ((C.request i).call, r)) :
    C.Outcome (sumSuccessfulBalance (World.db cfg₀.state) C.wallet.id) cfg := by
  have hkept := (C.kept_of_fair h hfair).run (C.stretch hfits) hrun
  have hbooks : (World.db cfg.state).Books := hkept.inv.2.2.1.2.1
  have hbalance := hkept.inv.2.2.2.balance
  have hend := fun i hi => C.ended_as hkept hi (hended i hi)
  -- Those that have succeeded are those whose keys have been used.
  have hfilter : (C.threads.filter fun i => succeeded cfg i).card = C.taken (World.db cfg.state) := by
    rw [taken]
    congr 1
    refine Finset.filter_congr fun i hi => ?_
    rcases hend i hi with ⟨hs, hu⟩ | ⟨hs, -, hu, -⟩
    · rw [hs, hu]
    · rw [hs, hu]
  have hcount : (C.taken (World.db cfg.state) : ℤ) =
      min (C.threads.card : ℤ) (sumSuccessfulBalance (World.db cfg₀.state) C.wallet.id / C.amount) := by
    refine eq_min_ediv C.amount_min (Finset.card_filter_le _ _) ?_ fun hne => ?_
    · rw [← hbalance]
      exact hbooks.solvent.balance _
    · -- Somebody has been refused, and the balance has not grown since.
      rw [← hbalance]
      by_contra hrich
      refine hne (congrArg Finset.card (Finset.filter_true_of_mem fun i hi => ?_))
      rcases hend i hi with ⟨-, hu⟩ | ⟨-, -, -, hpoor⟩
      · exact hu
      · exact absurd hpoor hrich
  refine ⟨by rw [hfilter, hcount], fun i hi hs => ?_, by rw [← hcount]; exact hbalance⟩
  rcases hend i hi with ⟨hs', -⟩ | ⟨-, hrefused, hunused, -⟩
  · rw [hs] at hs'
    cases hs'
  · exact ⟨hrefused, C.freeKey hbooks hi hunused⟩

/-- Requests for one amount from one wallet, each with a key of its own, in any
interleaving, with texts that the columns can hold: when all have ended, as many have
succeeded as the balance pays for, and the others have been refused. And they do all
end, once they are left to themselves. -/
theorem concurrent_debits (hfits : C.Fits)
    (h : Reachable (requests P config) World.initial cfg)
    (hfair : C.Fair (World.db cfg.state)) (hrun : Run (C.assumptions P config) cfg cfg') :
    ((∀ i ∈ C.threads, ∃ r, Schedule.ended cfg' i = some ((C.request i).call, r)) →
      C.Outcome (sumSuccessfulBalance (World.db cfg.state) C.wallet.id) cfg') ∧
    ((∀ i ∈ C.threads, ∃ p, cfg'.threads i = some (.running (C.request i).call p)) →
      (∀ j, j ∉ C.threads → ¬Unfinished cfg' j) →
      Settles (C.assumptions P config) C.threads C.Lucky
        (C.Outcome (sumSuccessfulBalance (World.db cfg.state) C.wallet.id)) cfg') := by
  refine ⟨C.outcome_of_ended hfits h hfair hrun, fun hmade hothers => ?_⟩
  refine settles_of (I := C.Left cfg) (fun hleft hi hp hn => hleft.step C hi hp hn) ?_
    ⟨hrun, hmade, hothers⟩
  intro mid hleft hlucky hnot
  refine C.can_go_on hfits h hfair hleft hlucky ?_
  by_contra hnone
  refine hnot (C.outcome_of_ended hfits h hfair hleft.run fun i hi => ?_)
  obtain ⟨p, hth⟩ := hleft.made i hi
  cases p with
  | ret a => exact ⟨.ok a, by rw [Schedule.ended, hth]⟩
  | fail e => exact ⟨.error e, by rw [Schedule.ended, hth]⟩
  | op c k => exact absurd ⟨i, _, c, k, hth⟩ hnone

end Contest

end Runs

/-! ### Runs -/

section Schedules

open Schedule

/-- What Ada asks for: twice a transfer to Bob, and once to her bank account. -/
def adaRequest (i : ℕ) : Outflow :=
  if i = 7 then .bank { adaWithdraws with amount := 400, idempotencyKey := secondKey }
  else .p2p { adaSends with idempotencyKey := if i = 6 then idempotencyKey else thirdKey }

theorem one_le_share : (1 : ℤ) ≤ 400 := by decide

theorem share_le_max : (400 : ℤ) ≤ 2147483647 := by decide

theorem adaRequest_debits :
    ∀ i ∈ ({6, 7, 8} : Finset ℕ), (adaRequest i).Debits ⟨"w1", "u1", "NGN", .active⟩ 400 := by decide

theorem adaRequest_uuid :
    ∀ i ∈ ({6, 7, 8} : Finset ℕ), isUuid4 (adaRequest i).idempotencyKey = true := by decide +kernel

theorem adaRequest_distinct : ∀ i ∈ ({6, 7, 8} : Finset ℕ), ∀ j ∈ ({6, 7, 8} : Finset ℕ),
    (adaRequest i).idempotencyKey = (adaRequest j).idempotencyKey → i = j := by decide +kernel

/-- Each of the three requests is for 400 kobo, and Ada has 1000. -/
def adaContest : Contest where
  wallet := ⟨"w1", "u1", "NGN", .active⟩
  amount := 400
  threads := {6, 7, 8}
  request := adaRequest
  amount_min := one_le_share
  amount_max := share_le_max
  debits := adaRequest_debits
  uuid := adaRequest_uuid
  distinct := adaRequest_distinct

theorem adaContest_fits : adaContest.Fits := by decide +kernel

/-- The bank is served between the two, and the third request comes too late. -/
def contest : List (Machine.Action (walletApi platform mockConfig)) :=
  [.spawn 6 (adaContest.request 6).call, .spawn 7 (adaContest.request 7).call,
      .spawn 8 (adaContest.request 8).call] ++
    calm 8 1 ++ calm 7 3 ++ calm 6 4 ++ calm 8 2 ++ calm 6 2 ++
    generate 6 ["x1", "", "r2", "", "r3"] ++ calm 6 3 ++
    calm 7 2 ++ generate 7 ["x2", "", "r4"] ++ calm 7 3 ++ calm 8 4

/-- Two of the three requests succeed, and 200 kobo are left. -/
theorem concurrent_debits_schedule :
    ∃ cfg cfg', replayUnder (requests platform mockConfig) (.initial World.initial) fundedAda = some cfg ∧
      replayUnder (adaContest.assumptions platform mockConfig) cfg contest = some cfg' ∧
      (adaContest.threads.filter fun i => Contest.succeeded cfg' i).card = 2 ∧
      adaContest.Refused cfg' 8 ∧ sumSuccessfulBalance (World.db cfg'.state) "w1" = 200 := by
  have hrun : (replayUnder (requests platform mockConfig) (.initial World.initial) fundedAda).any
      fun cfg => adaContest.Fair (World.db cfg.state) ∧
        sumSuccessfulBalance (World.db cfg.state) "w1" = 1000 ∧
        (replayUnder (adaContest.assumptions platform mockConfig) cfg contest).any fun cfg' =>
          (∀ i ∈ adaContest.threads,
            (ended cfg' i).any fun x => x.1 = (adaContest.request i).call) ∧
          Contest.succeeded cfg' 8 = false := by decide +kernel
  obtain ⟨cfg, hcfg, hstate⟩ := (Option.any_eq_true ..).mp hrun
  obtain ⟨hfair, hbalance, hafter⟩ := of_decide_eq_true hstate
  obtain ⟨cfg', hcfg', hstate'⟩ := (Option.any_eq_true ..).mp hafter
  obtain ⟨hended, hlast⟩ := of_decide_eq_true hstate'
  obtain ⟨hcount, hrefused, hleft⟩ := (adaContest.concurrent_debits adaContest_fits (.replayUnder hcfg) hfair
    (.replayUnder hcfg')).1 fun i hi => by
      obtain ⟨⟨call, r⟩, hr, hcall⟩ := (Option.any_eq_true ..).mp (hended i hi)
      have hcall : call = (adaContest.request i).call := of_decide_eq_true hcall
      exact ⟨r, hcall ▸ hr⟩
  have hshare : min (adaContest.threads.card : ℤ)
      (sumSuccessfulBalance (World.db cfg.state) adaContest.wallet.id / adaContest.amount) = 2 := by
    show min (adaContest.threads.card : ℤ) (sumSuccessfulBalance (World.db cfg.state) "w1" / 400) = 2
    rw [hbalance]
    decide +kernel
  rw [hshare] at hcount hleft
  refine ⟨cfg, cfg', hcfg, hcfg', by exact_mod_cast hcount, (hrefused 8 (by decide) hlast).1, ?_⟩
  show sumSuccessfulBalance (World.db cfg'.state) adaContest.wallet.id = 200
  rw [hleft]
  show sumSuccessfulBalance (World.db cfg.state) "w1" - 400 * 2 = 200
  rw [hbalance]
  norm_num

/-- A request of Ada's for her bank account, whose holder has U+0000 in the name. -/
def nulRequest : Outflow :=
  .bank { adaWithdraws with amount := 400, accountName := "Ada\x00" }

theorem nulRequest_uuid : isUuid4 nulRequest.idempotencyKey = true := by decide +kernel

/-- It is the only one. -/
def nulContest : Contest where
  wallet := ⟨"w1", "u1", "NGN", .active⟩
  amount := 400
  threads := {6}
  request _ := nulRequest
  amount_min := one_le_share
  amount_max := share_le_max
  debits _ _ := ⟨rfl, rfl, rfl⟩
  uuid _ _ := nulRequest_uuid
  distinct _ hi _ hj _ := (Finset.mem_singleton.mp hi).trans (Finset.mem_singleton.mp hj).symm

/-- The database turns the withdrawal down, and the transaction is undone. -/
def nulRefused : List (Machine.Action (walletApi platform mockConfig)) :=
  .spawn 6 (nulContest.request 6).call :: calm 6 5 ++ generate 6 ["x1"] ++ calm 6 2

/-- The only request is within the balance of 1000 kobo and nothing fails, and it ends in
an error of the database: no request succeeds. -/
theorem nul_request_refused :
    ∃ cfg cfg', replayUnder (requests platform mockConfig) (.initial World.initial) fundedAda = some cfg ∧
      nulContest.Fair (World.db cfg.state) ∧
      sumSuccessfulBalance (World.db cfg.state) nulContest.wallet.id = 1000 ∧
      replayUnder (nulContest.assumptions platform mockConfig) cfg nulRefused = some cfg' ∧
      (∀ i ∈ nulContest.threads, ∃ r, ended cfg' i = some ((nulContest.request i).call, r)) ∧
      ¬nulContest.Outcome (sumSuccessfulBalance (World.db cfg.state) nulContest.wallet.id) cfg' := by
  have hrun : (replayUnder (requests platform mockConfig) (.initial World.initial) fundedAda).any
      fun cfg => nulContest.Fair (World.db cfg.state) ∧
        sumSuccessfulBalance (World.db cfg.state) nulContest.wallet.id = 1000 ∧
        (replayUnder (nulContest.assumptions platform mockConfig) cfg nulRefused).any fun cfg' =>
          (ended cfg' 6).any (fun x => x.1 = (nulContest.request 6).call) ∧
            Contest.succeeded cfg' 6 = false := by decide +kernel
  obtain ⟨cfg, hcfg, hstate⟩ := (Option.any_eq_true ..).mp hrun
  obtain ⟨hfair, hbalance, hafter⟩ := of_decide_eq_true hstate
  obtain ⟨cfg', hcfg', hstate'⟩ := (Option.any_eq_true ..).mp hafter
  obtain ⟨hended, hfailed⟩ := of_decide_eq_true hstate'
  refine ⟨cfg, cfg', hcfg, hfair, hbalance, hcfg', fun i hi => ?_, fun houtcome => ?_⟩
  · rw [Finset.mem_singleton.mp hi]
    obtain ⟨⟨call, r⟩, hr, hcall⟩ := (Option.any_eq_true ..).mp hended
    have hcall : call = (nulContest.request 6).call := of_decide_eq_true hcall
    exact ⟨r, hcall ▸ hr⟩
  · -- One success is what the balance pays for.
    have hsuccesses := houtcome.successes
    have hnone : (nulContest.threads.filter fun i => Contest.succeeded cfg' i) = ∅ := by
      rw [Finset.filter_eq_empty_iff]
      intro i hi
      rw [Finset.mem_singleton.mp hi, hfailed]
      nofun
    rw [hnone, hbalance] at hsuccesses
    exact absurd hsuccesses (by decide +kernel)

end Schedules

end WalletApi
