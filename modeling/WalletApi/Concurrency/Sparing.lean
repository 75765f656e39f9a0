import WalletApi.Concurrency.Machine

/-!
Schedules that spare the threads.

Assumptions restrict what a thread may be scheduled to do by the state that is
shared. Here a schedule is restricted by what it does to each thread: an action may
be ruled out because of where some thread stands in its program. There is no bound
on the number of threads, so the condition cannot be decided; for a given schedule
it is enough to look at the threads that it spawns.
-/

namespace Concurrency

namespace Machine

variable {M : Machine}

/-- The configurations of runs under the assumptions whose actions spare every thread. -/
inductive Sparing (A : Assumptions M) (spares : Config M → Action M → ℕ → Bool) (s : M.State) :
    Config M → Prop
  | initial : Sparing A spares s (.initial s)
  | next {cfg cfg' : Config M} (a : Action M) (h : Sparing A spares s cfg) (hp : A.Permits cfg a)
      (hspares : ∀ j, spares cfg a j = true) (hn : next cfg a = some cfg') :
      Sparing A spares s cfg'

theorem Sparing.reachable {A : Assumptions M} {spares : Config M → Action M → ℕ → Bool}
    {s : M.State} {cfg : Config M} (h : Sparing A spares s cfg) : Reachable A s cfg := by
  induction h with
  | initial => exact .initial
  | next a _ hp _ hn ih => exact .next a ih hp hn

/-- What holds at the start and is kept by every action that spares the threads holds in
every configuration of such a run. -/
theorem Sparing.invariant {A : Assumptions M} {spares : Config M → Action M → ℕ → Bool}
    {s : M.State} {I : Config M → Prop} (hinitial : I (.initial s))
    (hnext : ∀ {cfg cfg' : Config M} {a : Action M}, Reachable A s cfg → A.Permits cfg a →
      (∀ j, spares cfg a j = true) → Machine.next cfg a = some cfg' → I cfg → I cfg')
    {cfg : Config M} (h : Sparing A spares s cfg) : I cfg := by
  induction h with
  | initial => exact hinitial
  | next a h hp hspares hn ih => exact hnext h.reachable hp hspares hn ih

/-! ### The other threads -/

/-- The thread that the action is about. -/
def Action.thread : Action M → ℕ
  | .spawn i _ | .step i _ | .crash i => i

/-- An action leaves all threads but its own where they are. -/
theorem threads_of_next {cfg cfg' : Config M} {a : Action M} {j : ℕ}
    (hn : Machine.next cfg a = some cfg') (hj : j ≠ a.thread) : cfg'.threads j = cfg.threads j := by
  cases a with
  | spawn i call =>
      obtain ⟨-, rfl⟩ := next_spawn_iff.mp hn
      exact Config.threads_set_of_ne _ _ _ hj
  | step i ch =>
      obtain ⟨call, c, k, r, t, -, -, rfl⟩ := next_step_iff.mp hn
      exact Config.threads_set_of_ne _ _ _ hj
  | crash i =>
      obtain ⟨call, p, -, rfl⟩ := next_crash_iff.mp hn
      exact Config.threads_set_of_ne _ _ _ hj

/-- A thread that is not there does nothing but arrive. -/
theorem exists_of_next {cfg cfg' : Config M} {a : Action M} (hn : Machine.next cfg a = some cfg') :
    (∃ call, a = .spawn a.thread call) ∨ cfg.threads a.thread ≠ none := by
  cases a with
  | spawn i call => exact .inl ⟨call, rfl⟩
  | step i ch =>
      obtain ⟨call, c, k, r, t, hi, -⟩ := next_step_iff.mp hn
      exact .inr fun hnone => by cases hnone.symm.trans hi
  | crash i =>
      obtain ⟨call, p, hi, -⟩ := next_crash_iff.mp hn
      exact .inr fun hnone => by cases hnone.symm.trans hi

/-! ### Replaying -/

/-- No thread has a number from `n` on. -/
def Config.Below (n : ℕ) (cfg : Config M) : Prop := ∀ j, n ≤ j → cfg.threads j = none

/-- The action spawns no thread with a number from `n` on. -/
def Action.below (n : ℕ) : Action M → Bool
  | .spawn i _ => i < n
  | _ => true

theorem Config.Below.next {n : ℕ} {cfg cfg' : Config M} {a : Action M} (h : cfg.Below n)
    (ha : a.below n = true) (hn : Machine.next cfg a = some cfg') : cfg'.Below n := by
  intro j hj
  have hthread : j ≠ a.thread := by
    rintro rfl
    rcases exists_of_next hn with ⟨call, hspawn⟩ | hthere
    · rw [hspawn] at ha
      exact absurd hj (Nat.not_le.mpr (of_decide_eq_true ha))
    · exact hthere (h _ hj)
  rw [threads_of_next hn hthread]
  exact h j hj

section Replay

variable (A : Assumptions M) [DecidablePred A.admits]
  [∀ call i c ch s, Decidable (A.allows call i c ch s)] (spares : Config M → Action M → ℕ → Bool)

/-- Replay a schedule of threads below `n` as long as its actions are permitted and spare
these threads. -/
def replaySparing (n : ℕ) (cfg : Config M) : List (Action M) → Option (Config M)
  | [] => some cfg
  | a :: as =>
      if permits A cfg a && a.below n && (List.range n).all (spares cfg a) then
        (next cfg a).bind fun cfg' => replaySparing n cfg' as
      else none

variable {A spares}

/-- A schedule that replays so is a run that spares every thread, if a thread that is not
there is spared whenever another one is. -/
theorem Sparing.replay
    (hnone : ∀ cfg a i j, cfg.threads j = none → spares cfg a i = true → spares cfg a j = true)
    {n : ℕ} (hpos : 0 < n) {s : M.State} {as : List (Action M)} :
    ∀ {cfg cfg' : Config M}, Sparing A spares s cfg → cfg.Below n →
      replaySparing A spares n cfg as = some cfg' → Sparing A spares s cfg' := by
  induction as with
  | nil =>
      intro cfg cfg' h _ hreplay
      cases hreplay
      exact h
  | cons a as ih =>
      intro cfg cfg' h hbelow hreplay
      simp only [replaySparing] at hreplay
      split at hreplay
      · rename_i hmeets
        obtain ⟨mid, hmid, hrest⟩ := Option.bind_eq_some_iff.mp hreplay
        simp only [Bool.and_eq_true, List.all_eq_true, List.mem_range] at hmeets
        obtain ⟨⟨hp, ha⟩, hspares⟩ := hmeets
        refine ih (.next a h (permits_of_eq_true hp) (fun j => ?_) hmid) (hbelow.next ha hmid) hrest
        by_cases hj : j < n
        · exact hspares j hj
        · exact hnone cfg a 0 j (hbelow j (Nat.not_lt.mp hj)) (hspares 0 hpos)
      · cases hreplay

theorem Sparing.of_replay
    (hnone : ∀ cfg a i j, cfg.threads j = none → spares cfg a i = true → spares cfg a j = true)
    {n : ℕ} (hpos : 0 < n) {s : M.State} {as : List (Action M)} {cfg : Config M}
    (h : replaySparing A spares n (.initial s) as = some cfg) : Sparing A spares s cfg :=
  .replay hnone hpos .initial (fun _ _ => rfl) h

end Replay

end Machine

end Concurrency
