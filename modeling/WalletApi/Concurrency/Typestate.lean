import WalletApi.Concurrency.Footprint

/-!
Typestates: what the answers so far say about what a thread has open.

A typestate is computed from the commands of a program and their answers alone.
`Tracks` says in which typestates a program may end, by returning or by throwing,
whatever it is answered. Where the typestate of a running thread tells something
about the shared state that no other thread can change, it does so in every run,
and for a thread that has come to an end as well (`Reachable.tracked`).
-/

namespace Concurrency

variable {S : Signature} {α β τ : Type}

/-- How a command and its answer change the typestate. -/
abbrev Transition (S : Signature) (τ : Type) :=
  τ → (c : S.Cmd) → Except S.Err (S.Resp c) → τ

namespace Prog

/-- From the typestate `o` the program returns in a typestate of `Q`, or throws in
one of `E`. -/
def Tracks (after : Transition S τ) : τ → Prog S α → (τ → Prop) → (τ → Prop) → Prop
  | o, .ret _, Q, _ => Q o
  | o, .fail _, _, E => E o
  | o, .op c k, Q, E => ∀ r, Tracks after (after o c r) (k r) Q E

namespace Tracks

variable {after : Transition S τ} {o : τ} {Q E : τ → Prop}

theorem mono {Q' E' : τ → Prop} (hQ : ∀ o, Q o → Q' o) (hE : ∀ o, E o → E' o) {p : Prog S α}
    (h : p.Tracks after o Q E) : p.Tracks after o Q' E' := by
  induction p generalizing o with
  | ret a => exact hQ o h
  | fail e => exact hE o h
  | op c k ih => exact fun r => ih r (h r)

theorem perform {c : S.Cmd} (hok : ∀ a, Q (after o c (.ok a)))
    (herr : ∀ e, E (after o c (.error e))) : (Prog.perform c).Tracks after o Q E := by
  intro r
  cases r with
  | ok a => exact hok a
  | error e => exact herr e

theorem bind {p : Prog S β} {f : β → Prog S α}
    (h : p.Tracks after o (fun o => ∀ b, (f b).Tracks after o Q E) E) :
    (p >>= f).Tracks after o Q E := by
  show (p.bind f).Tracks after o Q E
  induction p generalizing o with
  | ret b => exact h b
  | fail e => exact h
  | op c k ih => exact fun r => ih r (h r)

theorem tryCatch {p : Prog S α} {h : S.Err → Prog S α}
    (hp : p.Tracks after o Q fun o => ∀ e, (h e).Tracks after o Q E) :
    (tryCatch p h).Tracks after o Q E := by
  show (p.tryCatch h).Tracks after o Q E
  induction p generalizing o with
  | ret a => exact hp
  | fail e => exact hp e
  | op c k ih => exact fun r => ih r (hp r)

/-- A program of commands that leave the typestate alone. -/
theorem within {p : Prog S α} (hp : p.Within fun c => ∀ o r, after o c r = o) (hQ : Q o)
    (hE : E o) : p.Tracks after o Q E := by
  induction p with
  | ret a => exact hQ
  | fail e => exact hE
  | op c k ih =>
      intro r
      rw [hp.1 o r]
      exact ih r (hp.2 r)

end Tracks

end Prog

namespace Machine

variable {M : Machine} {A : Assumptions M} {s₀ : M.State} {cfg : Config M}

/-- What a typestate tells about the shared state. -/
structure Reads (M : Machine) (after : Transition M.sig τ) (R : ℕ → τ → M.State → Prop) : Prop where
  step : ∀ {i c ch s r t o}, M.exec i c ch s = some (r, t) → R i o s → R i (after o c r) t
  others : ∀ {i j c ch s r t o}, j ≠ i → M.exec i c ch s = some (r, t) → R j o s → R j o t
  crash : ∀ {i j s o}, R j o s → R j o (M.crash i s)

/-- The typestate of a thread tells `R`. A thread that has not begun, or has
stopped, is where the others begin. -/
def Tracked (after : Transition M.sig τ) (o₀ : τ) (Q R : τ → Prop) : Option (Thread M) → Prop
  | none | some (.crashed _) => R o₀
  | some (.running _ p) => ∃ o, p.Tracks after o Q Q ∧ R o

theorem Tracked.mono {after : Transition M.sig τ} {o₀ : τ} {Q R R' : τ → Prop}
    {th : Option (Thread M)} (hR : ∀ o, R o → R' o) (h : Tracked after o₀ Q R th) :
    Tracked after o₀ Q R' th := by
  cases th with
  | none => exact hR o₀ h
  | some th =>
      cases th with
      | running call p => exact h.imp fun o ho => ⟨ho.1, hR o ho.2⟩
      | crashed call => exact hR o₀ h

theorem Reachable.tracked {after : Transition M.sig τ} {o₀ : τ} {Q : τ → Prop}
    {R : ℕ → τ → M.State → Prop} (hR : Reads M after R) (hinitial : ∀ i, R i o₀ s₀)
    (hcrash : ∀ i s, R i o₀ (M.crash i s))
    (hcall : ∀ call, A.admits call → (M.program call).Tracks after o₀ Q Q)
    (h : Reachable A s₀ cfg) (i : ℕ) :
    Tracked after o₀ Q (fun o => R i o cfg.state) (cfg.threads i) := by
  induction h with
  | initial => exact hinitial i
  | next a _ hp hn ih =>
      cases a with
      | spawn j call =>
          obtain ⟨hnone, rfl⟩ := next_spawn_iff.mp hn
          by_cases hij : i = j
          · subst hij
            rw [hnone] at ih
            rw [Config.threads_set_self]
            exact ⟨o₀, hcall call hp, ih⟩
          · rw [Config.threads_set_of_ne _ _ _ hij]
            exact ih
      | step j ch =>
          obtain ⟨call, c, k, r, t, hth, he, rfl⟩ := next_step_iff.mp hn
          by_cases hij : i = j
          · subst hij
            rw [hth] at ih
            obtain ⟨o, htracks, hread⟩ := ih
            rw [Config.threads_set_self]
            exact ⟨after o c r, htracks r, hR.step he hread⟩
          · rw [Config.threads_set_of_ne _ _ _ hij]
            exact ih.mono fun o => hR.others hij he
      | crash j =>
          obtain ⟨call, p, hth, rfl⟩ := next_crash_iff.mp hn
          by_cases hij : i = j
          · subst hij
            rw [Config.threads_set_self]
            exact hcrash i _
          · rw [Config.threads_set_of_ne _ _ _ hij]
            exact ih.mono fun o => hR.crash

end Machine

end Concurrency
