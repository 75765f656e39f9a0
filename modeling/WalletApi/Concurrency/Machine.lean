import Mathlib.Data.Nat.Notation
import Mathlib.Logic.Function.Basic
import Mathlib.Logic.Relation
import WalletApi.Concurrency.Program

/-!
Interleaving semantics of an unbounded set of programs over one shared state.

A machine says what the calls are, which program serves each of them, and what
one command does to the shared state. What the environment decides at a command
(a generated identifier, the answer of a remote party, a fault) is the `Choice`
of the step, so that `exec` is a function and a run can be replayed.

A configuration has one thread for each call made so far. At any moment a new
call may arrive, a thread whose command is enabled may take one step, or a
thread may stop for good; `crash` is what the shared state keeps of a thread
that stopped. A command for which `exec` gives `none` is blocked.
-/

namespace Concurrency

structure Machine where
  sig : Signature
  State : Type
  Choice : Type
  Call : Type
  Result : Type
  /-- The program that serves a call. -/
  program : Call → Prog sig Result
  /-- One command of the given thread; `none` while it has to wait. -/
  exec : ℕ → (c : sig.Cmd) → Choice → State → Option (Except sig.Err (sig.Resp c) × State)
  /-- What becomes of the shared state when the given thread stops. -/
  crash : ℕ → State → State

namespace Machine

variable (M : Machine)

inductive Thread
  | running (call : M.Call) (p : Prog M.sig M.Result)
  | crashed (call : M.Call)

structure Config where
  state : M.State
  threads : ℕ → Option (Thread M)

inductive Action
  | spawn (i : ℕ) (call : M.Call)
  | step (i : ℕ) (ch : M.Choice)
  | crash (i : ℕ)

variable {M}

/-- The configuration in which no call has been made. -/
def Config.initial (s : M.State) : Config M := ⟨s, fun _ => none⟩

/-- The shared state becomes `s` and thread `i` becomes `th`. -/
def Config.set (cfg : Config M) (s : M.State) (i : ℕ) (th : Thread M) : Config M :=
  ⟨s, Function.update cfg.threads i (some th)⟩

@[simp] theorem Config.state_set (cfg : Config M) (s : M.State) (i : ℕ) (th : Thread M) :
    (cfg.set s i th).state = s := rfl

@[simp] theorem Config.threads_set_self (cfg : Config M) (s : M.State) (i : ℕ)
    (th : Thread M) : (cfg.set s i th).threads i = some th :=
  Function.update_self ..

theorem Config.threads_set_of_ne (cfg : Config M) (s : M.State) {i j : ℕ} (th : Thread M)
    (h : j ≠ i) : (cfg.set s i th).threads j = cfg.threads j :=
  Function.update_of_ne h ..

/-- One action of the schedule; `none` where it is not possible. -/
def next (cfg : Config M) : Action M → Option (Config M)
  | .spawn i call =>
      match cfg.threads i with
      | none => some (cfg.set cfg.state i (.running call (M.program call)))
      | some _ => none
  | .step i ch =>
      match cfg.threads i with
      | some (.running call (.op c k)) =>
          (M.exec i c ch cfg.state).map fun rs => cfg.set rs.2 i (.running call (k rs.1))
      | _ => none
  | .crash i =>
      match cfg.threads i with
      | some (.running call _) =>
          some (cfg.set (M.crash i cfg.state) i (.crashed call))
      | _ => none

/-- What is assumed of the environment: the calls that are made, and the steps
that a thread may be scheduled to take. -/
structure Assumptions (M : Machine) where
  admits : M.Call → Prop
  allows : M.Call → ℕ → M.sig.Cmd → M.Choice → M.State → Prop

/-- Only the calls are restricted. -/
def Assumptions.calls (admits : M.Call → Prop) : Assumptions M :=
  ⟨admits, fun _ _ _ _ _ => True⟩

/-- The action is one that the assumptions leave to the environment. -/
def Assumptions.Permits (A : Assumptions M) (cfg : Config M) : Action M → Prop
  | .spawn _ call => A.admits call
  | .step i ch =>
      ∀ call c k, cfg.threads i = some (.running call (.op c k)) →
        A.allows call i c ch cfg.state
  | .crash _ => True

/-- The configurations that some run from `s` under the assumptions reaches. -/
inductive Reachable (A : Assumptions M) (s : M.State) : Config M → Prop
  | initial : Reachable A s (.initial s)
  | next {cfg cfg' : Config M} (a : Action M) (hr : Reachable A s cfg) (hp : A.Permits cfg a)
      (hn : next cfg a = some cfg') : Reachable A s cfg'

theorem Reachable.mono {A B : Assumptions M} {s : M.State} {cfg : Config M}
    (hadmits : ∀ call, A.admits call → B.admits call)
    (hallows : ∀ call i c ch t, A.allows call i c ch t → B.allows call i c ch t)
    (h : Reachable A s cfg) : Reachable B s cfg := by
  induction h with
  | initial => exact .initial
  | next a _ hp hn ih =>
      refine .next a ih ?_ hn
      cases a with
      | spawn i call => exact hadmits _ hp
      | step i ch => exact fun call c k ht => hallows _ _ _ _ _ (hp call c k ht)
      | crash i => trivial

/-- Some run under the assumptions leads from the one configuration to the other. -/
def Run (A : Assumptions M) : Config M → Config M → Prop :=
  Relation.ReflTransGen fun cfg cfg' => ∃ a, A.Permits cfg a ∧ next cfg a = some cfg'

theorem Run.mono {A B : Assumptions M} {cfg cfg' : Config M}
    (hadmits : ∀ call, A.admits call → B.admits call)
    (hallows : ∀ call i c ch t, A.allows call i c ch t → B.allows call i c ch t)
    (h : Run A cfg cfg') : Run B cfg cfg' := by
  induction h with
  | refl => exact .refl
  | tail _ hlast ih =>
      obtain ⟨a, hp, hn⟩ := hlast
      refine ih.tail ⟨a, ?_, hn⟩
      cases a with
      | spawn i call => exact hadmits _ hp
      | step i ch => exact fun call c k ht => hallows _ _ _ _ _ (hp call c k ht)
      | crash i => trivial

theorem Reachable.run {A : Assumptions M} {s : M.State} {cfg cfg' : Config M}
    (hr : Reachable A s cfg) (h : Run A cfg cfg') : Reachable A s cfg' := by
  induction h with
  | refl => exact hr
  | tail _ hlast ih =>
      obtain ⟨a, hp, hn⟩ := hlast
      exact .next a ih hp hn

/-! ### Replaying under assumptions -/

section Replay

variable (A : Assumptions M) [DecidablePred A.admits]
  [∀ call i c ch s, Decidable (A.allows call i c ch s)]

/-- The decision whether an action is permitted. -/
def permits (cfg : Config M) : Action M → Bool
  | .spawn _ call => A.admits call
  | .step i ch =>
      match cfg.threads i with
      | some (.running call (.op c _)) => A.allows call i c ch cfg.state
      | _ => true
  | .crash _ => true

/-- Replay a schedule as long as its actions are permitted. -/
def replayUnder (cfg : Config M) : List (Action M) → Option (Config M)
  | [] => some cfg
  | a :: as =>
      if permits A cfg a then (next cfg a).bind fun cfg' => replayUnder cfg' as else none

variable {A}

theorem permits_of_eq_true {cfg : Config M} {a : Action M} (h : permits A cfg a = true) :
    A.Permits cfg a := by
  cases a with
  | spawn i call =>
      have hadmits : A.admits call := of_decide_eq_true h
      exact hadmits
  | step i ch =>
      intro call c k ht
      simp only [permits, ht] at h
      exact of_decide_eq_true h
  | crash i => trivial

/-- A schedule that replays under the assumptions is a run under them. -/
theorem Run.replayUnder {as : List (Action M)} :
    ∀ {cfg cfg' : Config M}, Machine.replayUnder A cfg as = some cfg' → Run A cfg cfg' := by
  induction as with
  | nil =>
      intro cfg cfg' h
      cases h
      exact .refl
  | cons a as ih =>
      intro cfg cfg' h
      simp only [Machine.replayUnder] at h
      split at h
      · rename_i hp
        obtain ⟨mid, hmid, hrest⟩ := Option.bind_eq_some_iff.mp h
        exact (Relation.ReflTransGen.single ⟨a, permits_of_eq_true hp, hmid⟩).trans (ih hrest)
      · cases h

theorem replayUnder_single {cfg cfg' : Config M} {a : Action M}
    (h : Machine.replayUnder A cfg [a] = some cfg') : A.Permits cfg a ∧ next cfg a = some cfg' := by
  simp only [Machine.replayUnder] at h
  split at h
  · rename_i hp
    obtain ⟨mid, hmid, hrest⟩ := Option.bind_eq_some_iff.mp h
    cases hrest
    exact ⟨permits_of_eq_true hp, hmid⟩
  · cases h

/-- A schedule that is replayed in two parts. -/
theorem replayUnder_append (as bs : List (Action M)) :
    ∀ cfg : Config M, Machine.replayUnder A cfg (as ++ bs) =
      (Machine.replayUnder A cfg as).bind fun mid => Machine.replayUnder A mid bs := by
  induction as with
  | nil => exact fun cfg => rfl
  | cons a as ih =>
      intro cfg
      simp only [List.cons_append, Machine.replayUnder]
      split
      · rw [Option.bind_assoc]
        exact congrArg _ (funext ih)
      · rfl

theorem Reachable.replayUnder {s : M.State} {as : List (Action M)} {cfg : Config M}
    (h : Machine.replayUnder A (.initial s) as = some cfg) : Reachable A s cfg :=
  Reachable.initial.run (Run.replayUnder h)

end Replay

/-- What a step of a thread does to the configuration. -/
theorem next_step_iff {cfg cfg' : Config M} {i : ℕ} {ch : M.Choice} :
    next cfg (.step i ch) = some cfg' ↔
      ∃ call c k r s, cfg.threads i = some (.running call (.op c k)) ∧
        M.exec i c ch cfg.state = some (r, s) ∧
        cfg' = cfg.set s i (.running call (k r)) := by
  constructor
  · intro h
    simp only [next] at h
    split at h
    · rename_i call c k ht
      obtain ⟨⟨r, s⟩, he, rfl⟩ := Option.map_eq_some_iff.mp h
      exact ⟨call, c, k, r, s, ht, he, rfl⟩
    · cases h
  · rintro ⟨call, c, k, r, s, ht, he, rfl⟩
    simp [next, ht, he]

theorem next_spawn_iff {cfg cfg' : Config M} {i : ℕ} {call : M.Call} :
    next cfg (.spawn i call) = some cfg' ↔
      cfg.threads i = none ∧
        cfg' = cfg.set cfg.state i (.running call (M.program call)) := by
  simp only [next]
  split <;> rename_i ht
  · simp [ht, eq_comm]
  · simp [ht]

theorem next_crash_iff {cfg cfg' : Config M} {i : ℕ} :
    next cfg (.crash i) = some cfg' ↔
      ∃ call p, cfg.threads i = some (.running call p) ∧
        cfg' = cfg.set (M.crash i cfg.state) i (.crashed call) := by
  constructor
  · intro h
    simp only [next] at h
    split at h
    · rename_i call p ht
      exact ⟨call, p, ht, (Option.some.inj h).symm⟩
    · cases h
  · rintro ⟨call, p, ht, rfl⟩
    simp [next, ht]

/-- What holds at the start and is kept by every command and every crash holds in
every reachable state. -/
theorem Reachable.invariant {A : Assumptions M} {s₀ : M.State} {I : M.State → Prop}
    (hinitial : I s₀)
    (hstep : ∀ {call i c ch s r t}, A.allows call i c ch s → M.exec i c ch s = some (r, t) →
      I s → I t)
    (hcrash : ∀ {i s}, I s → I (M.crash i s)) {cfg : Config M} (h : Reachable A s₀ cfg) :
    I cfg.state := by
  induction h with
  | initial => exact hinitial
  | next a _ hp hn ih =>
      cases a with
      | spawn i call =>
          obtain ⟨-, rfl⟩ := next_spawn_iff.mp hn
          exact ih
      | step i ch =>
          obtain ⟨call, c, k, r, t, hth, he, rfl⟩ := next_step_iff.mp hn
          exact hstep (hp call c k hth) he ih
      | crash i =>
          obtain ⟨call, p, -, rfl⟩ := next_crash_iff.mp hn
          exact hcrash ih

end Machine

end Concurrency
