import WalletApi.Concurrency.Footprint

/-!
Commands that a thread issues at most once.

`Once C` says of a program that no path through it issues two commands of `C`. Like a
footprint this is read off the text. In a run it bounds how often such a command has
been issued by one thread, whatever the others do and wherever the thread stops: as
long as the rest of its program may issue one, it has issued none.
-/

namespace Concurrency

variable {S : Signature} {α β : Type}

namespace Prog

variable {C : S.Cmd → Bool}

/-- No path issues two commands of `C`. -/
def Once (C : S.Cmd → Bool) : Prog S α → Prop
  | .ret _ | .fail _ => True
  | .op c k => ∀ r, if C c then (k r).Within fun c => C c = false else (k r).Once C

namespace Once

theorem ret {a : α} : (.ret a : Prog S α).Once C := trivial

theorem fail {e : S.Err} : (.fail e : Prog S α).Once C := trivial

theorem perform {c : S.Cmd} : (Prog.perform c).Once C := by
  intro r
  split
  · cases r with
    | ok a => exact .ret
    | error e => exact .fail
  · cases r with
    | ok a => exact .ret
    | error e => exact .fail

/-- A program that issues no command of `C`. -/
theorem of_within {p : Prog S α} (h : p.Within fun c => C c = false) : p.Once C := by
  induction p with
  | ret a => exact .ret
  | fail e => exact .fail
  | op c k ih =>
      intro r
      rw [if_neg (by rw [h.1]; nofun)]
      exact ih r (h.2 r)

/-- If the first part may issue one, the second part may not. -/
theorem bind {p : Prog S β} {f : β → Prog S α} (hp : p.Once C)
    (hf : ∀ b, (f b).Within fun c => C c = false) : (p >>= f).Once C := by
  show (p.bind f).Once C
  induction p with
  | ret b => exact of_within (hf b)
  | fail e => exact .fail
  | op c k ih =>
      intro r
      have hr := hp r
      split at hr
      · rename_i hc
        rw [if_pos hc]
        exact hr.bind hf
      · rename_i hc
        rw [if_neg hc]
        exact ih r hr

/-- If the first part issues none, the second part may issue one. -/
theorem after {p : Prog S β} {f : β → Prog S α} (hp : p.Within fun c => C c = false)
    (hf : ∀ b, (f b).Once C) : (p >>= f).Once C := by
  show (p.bind f).Once C
  induction p with
  | ret b => exact hf b
  | fail e => exact .fail
  | op c k ih =>
      intro r
      rw [if_neg (by rw [hp.1]; nofun)]
      exact ih r (hp.2 r)

theorem map {p : Prog S β} {f : β → α} (hp : p.Once C) : (f <$> p).Once C :=
  hp.bind fun _ => .ret

end Once

end Prog

namespace Machine

variable {M : Machine} {A : Assumptions M} {s₀ : M.State} {cfg : Config M}

/-- `count i` goes up with the commands of `C` that thread `i` issues. -/
structure Counts (M : Machine) (C : M.sig.Cmd → Bool) (count : ℕ → M.State → ℕ) : Prop where
  step : ∀ {i c ch s r t}, M.exec i c ch s = some (r, t) →
    count i t = count i s + if C c then 1 else 0
  others : ∀ {i j c ch s r t}, j ≠ i → M.exec i c ch s = some (r, t) → count j t = count j s
  crash : ∀ {i j s}, count j (M.crash i s) = count j s

/-- A thread may issue a command of `C` only if it has issued none so far. -/
def Thread.Spends (C : M.sig.Cmd → Bool) (count : ℕ) : Option (Thread M) → Prop
  | none => count = 0
  | some (.running _ p) => count = 0 ∧ p.Once C ∨ count = 1 ∧ p.Within fun c => C c = false
  | some (.crashed _) => count ≤ 1

theorem Thread.Spends.le_one {C : M.sig.Cmd → Bool} {count : ℕ} {th : Option (Thread M)}
    (h : Spends C count th) : count ≤ 1 := by
  cases th with
  | none =>
      have hzero : count = 0 := h
      omega
  | some th =>
      cases th with
      | running call p =>
          rcases h with ⟨hzero, -⟩ | ⟨hone, -⟩
          · omega
          · omega
      | crashed call => exact h

theorem Reachable.spends {C : M.sig.Cmd → Bool} {count : ℕ → M.State → ℕ} (hcount : Counts M C count)
    (hinitial : ∀ i, count i s₀ = 0) (hcall : ∀ call, A.admits call → (M.program call).Once C)
    (h : Reachable A s₀ cfg) (i : ℕ) :
    Thread.Spends C (count i cfg.state) (cfg.threads i) := by
  induction h with
  | initial => exact hinitial i
  | next a _ hp hn ih =>
      cases a with
      | spawn j call =>
          obtain ⟨hnone, rfl⟩ := next_spawn_iff.mp hn
          by_cases hij : i = j
          · subst hij
            rw [hnone] at ih
            rw [Config.threads_set_self]
            exact .inl ⟨ih, hcall call hp⟩
          · rw [Config.threads_set_of_ne _ _ _ hij]
            exact ih
      | step j ch =>
          obtain ⟨call, c, k, r, t, hth, he, rfl⟩ := next_step_iff.mp hn
          by_cases hij : i = j
          · subst hij
            rw [hth] at ih
            rw [Config.threads_set_self, Config.state_set, hcount.step he]
            rcases ih with ⟨hzero, honce⟩ | ⟨hone, hwithin⟩
            · have hr := honce r
              split at hr
              · rename_i hc
                exact .inr ⟨by rw [if_pos hc, hzero], hr⟩
              · rename_i hc
                exact .inl ⟨by rw [if_neg hc, hzero], hr⟩
            · exact .inr ⟨by rw [if_neg (by rw [hwithin.1]; nofun), hone], hwithin.2 r⟩
          · rw [Config.threads_set_of_ne _ _ _ hij, Config.state_set, hcount.others hij he]
            exact ih
      | crash j =>
          obtain ⟨call, p, hth, rfl⟩ := next_crash_iff.mp hn
          rw [Config.state_set, hcount.crash]
          by_cases hij : i = j
          · subst hij
            rw [hth] at ih
            rw [Config.threads_set_self]
            exact Thread.Spends.le_one ih
          · rw [Config.threads_set_of_ne _ _ _ hij]
            exact ih

/-- In every run each thread issues at most one command of `C`. -/
theorem Reachable.at_most_once {C : M.sig.Cmd → Bool} {count : ℕ → M.State → ℕ}
    (hcount : Counts M C count) (hinitial : ∀ i, count i s₀ = 0)
    (hcall : ∀ call, A.admits call → (M.program call).Once C) (h : Reachable A s₀ cfg) (i : ℕ) :
    count i cfg.state ≤ 1 :=
  (h.spends hcount hinitial hcall i).le_one

end Machine

end Concurrency
