import WalletApi.Concurrency.Machine

/-!
Footprints: which commands a program can issue at all.

A program keeps within a set of commands if no path through its tree leaves the
set. This is a matter of the text of the program alone, and needs neither states
nor schedules: what is put together from programs within a set is within it. In
a run the part of a program that a thread has still to execute keeps within the
footprint of the whole, so that a command which a step issues tells something
about the call that the thread serves.
-/

namespace Concurrency

namespace Prog

variable {S : Signature} {α β : Type} {C D : S.Cmd → Prop}

/-- Every command that the program may issue is in `C`. -/
def Within (C : S.Cmd → Prop) : Prog S α → Prop
  | .ret _ | .fail _ => True
  | .op c k => C c ∧ ∀ r, (k r).Within C

theorem Within.ret {a : α} : (.ret a : Prog S α).Within C := trivial

theorem Within.fail {e : S.Err} : (.fail e : Prog S α).Within C := trivial

theorem Within.perform {c : S.Cmd} (h : C c) : (perform c).Within C := by
  refine ⟨h, fun r => ?_⟩
  cases r with
  | ok a => exact .ret
  | error e => exact .fail

theorem Within.mono (hCD : ∀ c, C c → D c) {p : Prog S α} (h : p.Within C) : p.Within D := by
  induction p with
  | ret a => exact .ret
  | fail e => exact .fail
  | op c k ih => exact ⟨hCD c h.1, fun r => ih r (h.2 r)⟩

/-- Without a restriction. -/
theorem Within.all {p : Prog S α} (h : ∀ c, C c) : p.Within C := by
  induction p with
  | ret a => exact .ret
  | fail e => exact .fail
  | op c k ih => exact ⟨h c, ih⟩

theorem Within.bind {p : Prog S α} {f : α → Prog S β} (hp : p.Within C)
    (hf : ∀ a, (f a).Within C) : (p >>= f).Within C := by
  show (p.bind f).Within C
  induction p with
  | ret a => exact hf a
  | fail e => exact .fail
  | op c k ih => exact ⟨hp.1, fun r => ih r (hp.2 r)⟩

theorem Within.map {p : Prog S α} {f : α → β} (hp : p.Within C) : (f <$> p).Within C :=
  hp.bind fun _ => .ret

theorem Within.tryCatch {p : Prog S α} {h : S.Err → Prog S α} (hp : p.Within C)
    (hh : ∀ e, (h e).Within C) : (tryCatch p h).Within C := by
  show (p.tryCatch h).Within C
  induction p with
  | ret a => exact .ret
  | fail e => exact hh e
  | op c k ih => exact ⟨hp.1, fun r => ih r (hp.2 r)⟩

theorem Within.ite {p : Prop} [Decidable p] {x y : Prog S α} (hx : p → x.Within C)
    (hy : ¬p → y.Within C) : (if p then x else y).Within C := by
  split
  · exact hx (by assumption)
  · exact hy (by assumption)

end Prog

namespace Machine

variable {M : Machine} {A : Assumptions M} {s : M.State} {cfg : Config M}
  {C : M.Call → M.sig.Cmd → Prop}

/-- The call that a thread serves, or has served. -/
def Thread.call : Thread M → M.Call
  | .running call _ => call
  | .crashed call => call

/-- What a thread has still to execute is within the footprint of its call. -/
theorem Reachable.within (hC : ∀ call, A.admits call → (M.program call).Within (C call))
    (h : Reachable A s cfg) {i : ℕ} {call : M.Call} {p : Prog M.sig M.Result}
    (hth : cfg.threads i = some (.running call p)) : p.Within (C call) := by
  induction h generalizing i call p with
  | initial => cases hth
  | next a _ hp hn ih =>
      cases a with
      | spawn j call' =>
          obtain ⟨-, rfl⟩ := next_spawn_iff.mp hn
          by_cases hij : i = j
          · subst hij
            rw [Config.threads_set_self] at hth
            cases hth
            exact hC _ hp
          · rw [Config.threads_set_of_ne _ _ _ hij] at hth
            exact ih hth
      | step j ch =>
          obtain ⟨call', c, k, r, t, hj, -, rfl⟩ := next_step_iff.mp hn
          by_cases hij : i = j
          · subst hij
            rw [Config.threads_set_self] at hth
            cases hth
            exact (ih hj).2 r
          · rw [Config.threads_set_of_ne _ _ _ hij] at hth
            exact ih hth
      | crash j =>
          obtain ⟨call', p', hj, rfl⟩ := next_crash_iff.mp hn
          by_cases hij : i = j
          · subst hij
            rw [Config.threads_set_self] at hth
            cases hth
          · rw [Config.threads_set_of_ne _ _ _ hij] at hth
            exact ih hth

/-- A thread serves one call as long as it is there. -/
theorem call_of_next {cfg' : Config M} {a : Action M} (h : next cfg a = some cfg') {i : ℕ}
    {th : Thread M} (hth : cfg.threads i = some th) :
    ∃ th', cfg'.threads i = some th' ∧ th'.call = th.call := by
  cases a with
  | spawn j call =>
      obtain ⟨hnone, rfl⟩ := next_spawn_iff.mp h
      have hij : i ≠ j := by
        rintro rfl
        cases hnone.symm.trans hth
      exact ⟨th, by rw [Config.threads_set_of_ne _ _ _ hij]; exact hth, rfl⟩
  | step j ch =>
      obtain ⟨call, c, k, r, t, hj, -, rfl⟩ := next_step_iff.mp h
      by_cases hij : i = j
      · subst hij
        cases hj.symm.trans hth
        exact ⟨_, Config.threads_set_self .., rfl⟩
      · exact ⟨th, by rw [Config.threads_set_of_ne _ _ _ hij]; exact hth, rfl⟩
  | crash j =>
      obtain ⟨call, p, hj, rfl⟩ := next_crash_iff.mp h
      by_cases hij : i = j
      · subst hij
        cases hj.symm.trans hth
        exact ⟨_, Config.threads_set_self .., rfl⟩
      · exact ⟨th, by rw [Config.threads_set_of_ne _ _ _ hij]; exact hth, rfl⟩

end Machine

end Concurrency
