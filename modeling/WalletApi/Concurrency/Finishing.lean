import WalletApi.Concurrency.Serial

/-!
What becomes of a call that is left alone.

While nobody else takes a step, a thread comes to an end unless one of its
commands has to wait, because a program is a finite tree. `Finishes` says so of
a configuration, and how the thread ends, whatever the environment decides at
its commands: total correctness, with waiting as the only way to diverge.

The logic of `sole` gives total correctness when the demand on a command is that
the machine can execute it (`Enabled`).
-/

namespace Concurrency

namespace Machine

variable {M : Machine} {A : Assumptions M} {i : ℕ}

/-- Left alone, thread `i` comes to an end, and ends in `Q`. -/
inductive Finishes (A : Assumptions M) (i : ℕ) (Q : Except M.sig.Err M.Result → M.State → Prop) :
    Config M → Prop
  | returned {cfg : Config M} {call : M.Call} {a : M.Result}
      (h : cfg.threads i = some (.running call (.ret a))) (hQ : Q (.ok a) cfg.state) :
      Finishes A i Q cfg
  | thrown {cfg : Config M} {call : M.Call} {e : M.sig.Err}
      (h : cfg.threads i = some (.running call (.fail e))) (hQ : Q (.error e) cfg.state) :
      Finishes A i Q cfg
  | step {cfg : Config M}
      (hcan : ∃ ch cfg', A.Permits cfg (.step i ch) ∧ next cfg (.step i ch) = some cfg')
      (hnext : ∀ ch cfg', A.Permits cfg (.step i ch) → next cfg (.step i ch) = some cfg' →
        Finishes A i Q cfg') :
      Finishes A i Q cfg

/-- A call is made, and the thread that serves it is left alone. -/
def Serves (A : Assumptions M) (i : ℕ) (call : M.Call) (cfg : Config M)
    (Q : Except M.sig.Err M.Result → M.State → Prop) : Prop :=
  ∀ cfg', next cfg (.spawn i call) = some cfg' → Finishes A i Q cfg'

namespace Finishes

variable {Q Q' : Except M.sig.Err M.Result → M.State → Prop} {cfg : Config M}

theorem mono (h : Finishes A i Q cfg) (hQ : ∀ r s, Q r s → Q' r s) : Finishes A i Q' cfg := by
  induction h with
  | returned hth hend => exact .returned hth (hQ _ _ hend)
  | thrown hth hend => exact .thrown hth (hQ _ _ hend)
  | step hcan _ ih => exact .step hcan ih

/-- A thread at its end takes no step. -/
theorem not_step {p : Prog M.sig M.Result} {call : M.Call} {ch : M.Choice} {cfg' : Config M}
    (h : cfg.threads i = some (.running call p)) (hp : p.Done) :
    next cfg (.step i ch) ≠ some cfg' := by
  intro hn
  obtain ⟨call', c, k, r, t, hth, -, -⟩ := next_step_iff.mp hn
  cases h.symm.trans hth
  exact hp

/-- However the thread ends, every run of it ends so. -/
theorem meet (h : Finishes A i Q cfg) (h' : Finishes A i Q' cfg) : ∃ r s, Q r s ∧ Q' r s := by
  induction h with
  | returned hth hend =>
      cases h' with
      | returned hth' hend' =>
          cases hth.symm.trans hth'
          exact ⟨_, _, hend, hend'⟩
      | thrown hth' _ => cases hth.symm.trans hth'
      | step hcan _ =>
          obtain ⟨ch, mid, -, hn⟩ := hcan
          exact absurd hn (not_step hth trivial)
  | thrown hth hend =>
      cases h' with
      | returned hth' _ => cases hth.symm.trans hth'
      | thrown hth' hend' =>
          cases hth.symm.trans hth'
          exact ⟨_, _, hend, hend'⟩
      | step hcan _ =>
          obtain ⟨ch, mid, -, hn⟩ := hcan
          exact absurd hn (not_step hth trivial)
  | step hcan _ ih =>
      obtain ⟨ch, mid, hp, hn⟩ := hcan
      cases h' with
      | returned hth' _ => exact absurd hn (not_step hth' trivial)
      | thrown hth' _ => exact absurd hn (not_step hth' trivial)
      | step _ hnext' => exact ih ch mid hp hn (hnext' ch mid hp hn)

end Finishes

/-! ### From the programs to the runs -/

/-- The machine can execute the command. -/
def Enabled (A : Assumptions M) (call : M.Call) (i : ℕ) (c : M.sig.Cmd) (s : M.State) : Prop :=
  ∃ ch r t, A.allows call i c ch s ∧ M.exec i c ch s = some (r, t)

/-- Total correctness of a program that serves `call` alone. -/
def Total (A : Assumptions M) (i : ℕ) (call : M.Call) {α : Type} (p : Prog M.sig α)
    (Q : Except M.sig.Err α → M.State → Prop) (s : M.State) : Prop :=
  (sole A i (fun _ => True) (Enabled A call i)).wp call i p (fun a => Q (.ok a))
    (fun e => Q (.error e)) s

namespace Total

variable {call : M.Call} {α β : Type} {s : M.State} {Q : Except M.sig.Err α → M.State → Prop}

theorem mono {Q' : Except M.sig.Err α → M.State → Prop} {p : Prog M.sig α}
    (h : Total A i call p Q s) (hQ : ∀ r s, Q r s → Q' r s) : Total A i call p Q' s :=
  RelyGuarantee.wp_mono (fun a => hQ (.ok a)) (fun e => hQ (.error e)) p h

theorem ret {a : α} (h : Q (.ok a) s) : Total A i call (.ret a) Q s := h

theorem fail {e : M.sig.Err} (h : Q (.error e) s) : Total A i call (.fail e) Q s := h

/-- A failure skips what follows. -/
theorem bind {p : Prog M.sig β} {f : β → Prog M.sig α}
    (h : Total A i call p
      (Sole.Ends (fun b => Total A i call (f b) Q) fun e => Q (.error e)) s) :
    Total A i call (p >>= f) Q s :=
  RelyGuarantee.wp_bind h

/-- What is known after the first part is enough for the second. -/
theorem seq {p : Prog M.sig β} {f : β → Prog M.sig α} {R : Except M.sig.Err β → M.State → Prop}
    (h : Total A i call p R s) (hok : ∀ b t, R (.ok b) t → Total A i call (f b) Q t)
    (herr : ∀ e t, R (.error e) t → Q (.error e) t) : Total A i call (p >>= f) Q s := by
  refine bind (h.mono fun r t hr => ?_)
  cases r with
  | ok b => exact hok b t hr
  | error e => exact herr e t hr

theorem map {f : β → α} {p : Prog M.sig β} (h : Total A i call p (fun r => Q (r.map f)) s) :
    Total A i call (f <$> p) Q s :=
  RelyGuarantee.wp_bind h

theorem tryCatch {p : Prog M.sig α} {h : M.sig.Err → Prog M.sig α}
    (hp : Total A i call p
      (Sole.Ends (fun a => Q (.ok a)) fun e => Total A i call (h e) Q) s) :
    Total A i call (tryCatch p h) Q s :=
  RelyGuarantee.wp_tryCatch hp

/-- A command that can be executed, whatever comes of it. -/
theorem perform {c : M.sig.Cmd} {Q : Except M.sig.Err (M.sig.Resp c) → M.State → Prop}
    (hcan : Enabled A call i c s)
    (h : ∀ ch r t, A.allows call i c ch s → M.exec i c ch s = some (r, t) → Q r t) :
    Total A i call (.perform c) Q s := by
  refine Sole.wp_perform hcan fun ch r t ha he => ⟨trivial, ?_⟩
  cases r with
  | ok a => exact h ch _ t ha he
  | error e => exact h ch _ t ha he

/-- Soundness. -/
theorem finishes {Q : Except M.sig.Err M.Result → M.State → Prop} {p : Prog M.sig M.Result} :
    ∀ {cfg : Config M}, Total A i call p Q cfg.state →
      cfg.threads i = some (.running call p) → Finishes A i Q cfg := by
  induction p with
  | ret a => exact fun h hth => .returned hth h
  | fail e => exact fun h hth => .thrown hth h
  | op c k ih =>
      intro cfg h hth
      refine .step ?_ fun ch cfg' hp hn => ?_
      · obtain ⟨ch, r, t, ha, he⟩ := (h _ trivial .refl).1
        refine ⟨ch, _, fun call' c' k' hth' => ?_, next_step_iff.mpr ⟨_, _, _, _, _, hth, he, rfl⟩⟩
        cases hth.symm.trans hth'
        exact ha
      · obtain ⟨call', c', k', r, t, hth', he, rfl⟩ := next_step_iff.mp hn
        cases hth.symm.trans hth'
        obtain ⟨-, hwp⟩ := Sole.wp_step h trivial (hp _ _ _ hth) he
        exact ih r hwp (Config.threads_set_self ..)

theorem serves {Q : Except M.sig.Err M.Result → M.State → Prop} {cfg : Config M}
    (h : Total A i call (M.program call) Q cfg.state) : Serves A i call cfg Q := by
  intro cfg' hn
  obtain ⟨-, rfl⟩ := next_spawn_iff.mp hn
  exact finishes h (Config.threads_set_self ..)

end Total

/-- A call that ends well exactly if `b` holds. -/
theorem Serves.iff {b : Prop} {Q R : Except M.sig.Err M.Result → M.State → Prop} {call : M.Call}
    {cfg : Config M} (h : Serves A i call cfg fun r s => b ∧ Q r s ∨ ¬b ∧ R r s)
    (hi : cfg.threads i = none) (hQR : ∀ r s, Q r s → ¬R r s) : Serves A i call cfg Q ↔ b := by
  constructor
  · intro hQ
    have hn := (@next_spawn_iff M cfg _ i call).mpr ⟨hi, rfl⟩
    obtain ⟨r, s, hends, hq⟩ := (h _ hn).meet (hQ _ hn)
    rcases hends with ⟨hb, -⟩ | ⟨-, hr⟩
    · exact hb
    · exact absurd hr (hQR r s hq)
  · intro hb cfg' hn
    refine (h cfg' hn).mono fun r s hends => ?_
    rcases hends with ⟨-, hq⟩ | ⟨hnb, -⟩
    · exact hq
    · exact absurd hb hnb

end Machine

end Concurrency
