import Mathlib.Data.DFinsupp.WellFounded
import Mathlib.Data.Finset.Defs
import WalletApi.Concurrency.Machine

/-!
Several threads that come to their ends together.

A program is a finite tree, so threads that nobody else disturbs take finitely many
steps, in whatever order. If one of them can always take the next step, then they all
come to their ends (`settles_of`): termination and the absence of deadlocks make up
total correctness.
-/

namespace Concurrency

namespace Machine

variable {M : Machine} {A : Assumptions M} {T : Finset ℕ} {Lucky Q : Config M → Prop}
  {cfg cfg' : Config M} {i : ℕ} {ch : M.Choice}

/-- However the threads `T` take their steps, it comes to `Q` after finitely many of
them, unless the environment lets them down on the way. -/
inductive Settles (A : Assumptions M) (T : Finset ℕ) (Lucky Q : Config M → Prop) : Config M → Prop
  | done {cfg : Config M} (h : Q cfg) : Settles A T Lucky Q cfg
  | unlucky {cfg : Config M} (h : ¬Lucky cfg) : Settles A T Lucky Q cfg
  | step {cfg : Config M}
      (hcan : ∃ i ∈ T, ∃ ch cfg', A.Permits cfg (.step i ch) ∧ next cfg (.step i ch) = some cfg')
      (hnext : ∀ i ∈ T, ∀ ch cfg', A.Permits cfg (.step i ch) → next cfg (.step i ch) = some cfg' →
        Settles A T Lucky Q cfg') :
      Settles A T Lucky Q cfg

/-- The thread has taken a step. -/
def Advances (th' th : Option (Thread M)) : Prop :=
  ∃ call c k r, th = some (.running call (.op c k)) ∧ th' = some (.running call (k r))

theorem wellFounded_advances : WellFounded (Advances (M := M)) := by
  -- A program is a tree, and each step goes down to a subtree.
  have running : ∀ (p : Prog M.sig M.Result) (call : M.Call),
      Acc Advances (some (Thread.running (M := M) call p)) := by
    intro p
    induction p with
    | ret a => exact fun call => ⟨_, fun th ⟨_, _, _, _, heq, _⟩ => by cases heq⟩
    | fail e => exact fun call => ⟨_, fun th ⟨_, _, _, _, heq, _⟩ => by cases heq⟩
    | op c k ih =>
        refine fun call => ⟨_, fun th ⟨call', c', k', r, heq, hth⟩ => ?_⟩
        cases heq
        rw [hth]
        exact ih r call
  refine ⟨fun th => ?_⟩
  cases th with
  | none => exact ⟨_, fun th ⟨_, _, _, _, heq, _⟩ => by cases heq⟩
  | some th =>
      cases th with
      | running call p => exact running p call
      | crashed call => exact ⟨_, fun th ⟨_, _, _, _, heq, _⟩ => by cases heq⟩

/-- One of the threads `T` has taken a step, and nothing has become of the others. -/
def Proceeds (T : Finset ℕ) (cfg' cfg : Config M) : Prop :=
  ∃ i ∈ T, Advances (cfg'.threads i) (cfg.threads i) ∧ ∀ j, j ≠ i → cfg'.threads j = cfg.threads j

theorem wellFounded_proceeds : WellFounded (Proceeds (M := M) T) := by
  -- One thread goes down and the others stay, which is lexicographic in any order of them.
  have hlex : WellFounded (Pi.Lex (ι := T) (β := fun _ => Option (Thread M)) (· < ·) Advances) :=
    Pi.Lex.wellFounded (· < ·) fun _ => wellFounded_advances
  refine Subrelation.wf ?_ (InvImage.wf (fun (cfg : Config M) (i : T) => cfg.threads i) hlex)
  rintro cfg' cfg ⟨i, hi, hadvances, hothers⟩
  refine ⟨⟨i, hi⟩, fun j hj => hothers j fun heq => ?_, hadvances⟩
  exact absurd (Subtype.ext heq) (ne_of_lt hj)

theorem proceeds_of_next (hi : i ∈ T) (hn : next cfg (.step i ch) = some cfg') :
    Proceeds T cfg' cfg := by
  obtain ⟨call, c, k, r, t, hth, -, rfl⟩ := next_step_iff.mp hn
  exact ⟨i, hi, ⟨call, c, k, r, hth, Config.threads_set_self ..⟩, fun j hj =>
    Config.threads_set_of_ne _ _ _ hj⟩

/-- If one of them can take a step as long as they have not come to `Q`, they come to
`Q` in the end. -/
theorem settles_of {I : Config M → Prop}
    (hstep : ∀ {cfg cfg' i ch}, I cfg → i ∈ T → A.Permits cfg (.step i ch) →
      next cfg (.step i ch) = some cfg' → I cfg')
    (hcan : ∀ {cfg}, I cfg → Lucky cfg → ¬Q cfg →
      ∃ i ∈ T, ∃ ch cfg', A.Permits cfg (.step i ch) ∧ next cfg (.step i ch) = some cfg')
    (h : I cfg) : Settles A T Lucky Q cfg := by
  -- The induction is on what the threads have left to do.
  induction cfg using (wellFounded_proceeds (T := T)).induction with
  | _ cfg ih =>
      by_cases hdone : Q cfg
      · exact .done hdone
      by_cases hlucky : Lucky cfg
      · refine .step (hcan h hlucky hdone) fun i hi ch cfg' hp hn => ?_
        exact ih cfg' (proceeds_of_next hi hn) (hstep h hi hp hn)
      · exact .unlucky hlucky

end Machine

end Concurrency
