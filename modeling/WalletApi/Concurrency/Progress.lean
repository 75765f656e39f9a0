import WalletApi.Concurrency.Finishing
import WalletApi.Concurrency.Typestate

/-!
Progress from typestates.

A typestate may say more than what a thread has open: it may say which command is
in order where. If a command that is out of order leads to a typestate from which
no program ends well, then a program that ends well never issues one
(`Prog.Tracks.ne_of_absorbing`). And where every command that is in order can be executed, a
thread that is left alone comes to its end (`finishes_of_tracks`).
-/

namespace Concurrency

variable {S : Signature} {α τ : Type}

namespace Prog

/-- From a typestate that is never left, a program ends only there. -/
theorem Tracks.absorbed {after : Transition S τ} {bad : τ}
    (hbad : ∀ c r, after bad c r = bad) {Q : τ → Prop} [Nonempty S.Err] {p : Prog S α}
    (h : p.Tracks after bad Q Q) : Q bad := by
  induction p with
  | ret a => exact h
  | fail e => exact h
  | op c k ih =>
      obtain ⟨e⟩ := ‹Nonempty S.Err›
      have hk := h (.error e)
      rw [hbad] at hk
      exact ih _ hk

/-- A program that ends well issues no command that is out of order. -/
theorem Tracks.ne_of_absorbing {after : Transition S τ} {bad : τ}
    (hbad : ∀ c r, after bad c r = bad) {Q : τ → Prop} (hQ : ¬Q bad) [Nonempty S.Err] {o : τ}
    {c : S.Cmd} {k : Except S.Err (S.Resp c) → Prog S α} (h : (op c k).Tracks after o Q Q)
    (r : Except S.Err (S.Resp c)) : after o c r ≠ bad := by
  intro heq
  have hk := h r
  rw [heq] at hk
  exact hQ (hk.absorbed hbad)

end Prog

namespace Machine

variable {M : Machine} {A : Assumptions M} {i : ℕ}

/-- An invariant of one thread together with the shared state: the thread keeps it
with each of its own actions, and the others leave it alone. -/
theorem Reachable.threadwise {s₀ : M.State} {J : Option (Thread M) → M.State → Prop} {cfg : Config M}
    (hinitial : J none s₀)
    (hspawn : ∀ {call s}, A.admits call → J none s → J (some (.running call (M.program call))) s)
    (hstep : ∀ {call c k ch s r t}, M.exec i c ch s = some (r, t) →
      J (some (.running call (.op c k))) s → J (some (.running call (k r))) t)
    (hcrash : ∀ {call p s}, J (some (.running call p)) s → J (some (.crashed call)) (M.crash i s))
    (hothers : ∀ {j c ch s r t th}, j ≠ i → M.exec j c ch s = some (r, t) → J th s → J th t)
    (hotherCrash : ∀ {j s th}, j ≠ i → J th s → J th (M.crash j s)) (h : Reachable A s₀ cfg) :
    J (cfg.threads i) cfg.state := by
  induction h with
  | initial => exact hinitial
  | next a _ hp hn ih =>
      cases a with
      | spawn j call =>
          obtain ⟨hnone, rfl⟩ := next_spawn_iff.mp hn
          by_cases hj : i = j
          · subst hj
            rw [hnone] at ih
            rw [Config.threads_set_self]
            exact hspawn hp ih
          · rw [Config.threads_set_of_ne _ _ _ hj]
            exact ih
      | step j ch =>
          obtain ⟨call, c, k, r, t, hth, he, rfl⟩ := next_step_iff.mp hn
          by_cases hj : i = j
          · subst hj
            rw [hth] at ih
            rw [Config.threads_set_self]
            exact hstep he ih
          · rw [Config.threads_set_of_ne _ _ _ hj]
            exact hothers (fun h => hj h.symm) he ih
      | crash j =>
          obtain ⟨call, p, hth, rfl⟩ := next_crash_iff.mp hn
          by_cases hj : i = j
          · subst hj
            rw [hth] at ih
            rw [Config.threads_set_self]
            exact hcrash ih
          · rw [Config.threads_set_of_ne _ _ _ hj]
            exact hotherCrash (fun h => hj h.symm) ih

/-- A thread that is left alone ends well, if every command that its typestate lets
it issue can be executed. `I` is what is known of the state besides. -/
theorem finishes_of_tracks {after : Transition M.sig τ} {Q : τ → Prop} {I : τ → M.State → Prop}
    {call : M.Call}
    (hstep : ∀ {c ch s r t o}, M.exec i c ch s = some (r, t) → I o s → I (after o c r) t)
    (hcan : ∀ {c k s o}, (Prog.op c k : Prog M.sig M.Result).Tracks after o Q Q → I o s →
      Enabled A call i c s)
    {p : Prog M.sig M.Result} : ∀ {cfg : Config M} {o : τ}, p.Tracks after o Q Q → I o cfg.state →
      cfg.threads i = some (.running call p) → Finishes A i (fun _ s => ∃ o, Q o ∧ I o s) cfg := by
  induction p with
  | ret a => exact fun h hI hth => .returned hth ⟨_, h, hI⟩
  | fail e => exact fun h hI hth => .thrown hth ⟨_, h, hI⟩
  | op c k ih =>
      intro cfg o h hI hth
      refine .step ?_ fun ch cfg' hp hn => ?_
      · obtain ⟨ch, r, t, ha, he⟩ := hcan h hI
        refine ⟨ch, _, fun call' c' k' hth' => ?_, next_step_iff.mpr ⟨_, _, _, _, _, hth, he, rfl⟩⟩
        cases hth.symm.trans hth'
        exact ha
      · obtain ⟨call', c', k', r, t, hth', he, rfl⟩ := next_step_iff.mp hn
        cases hth.symm.trans hth'
        exact ih r (h r) (hstep he hI) (Config.threads_set_self ..)

end Machine

end Concurrency
