import Mathlib.Data.Set.Finite.Basic
import Mathlib.Order.Preorder.Finite
import WalletApi.Concurrency.Machine

/-!
Locks that are taken in ascending order cannot deadlock.

Agents own resources and wait for further ones. If whoever waits wants a resource
above all that it owns, and every owner that somebody waits for is itself one of
the agents, then some agent waits for nothing: among the resources that are
waited for, the owner of a greatest one would have to wait for a greater one.
-/

namespace Concurrency

/-- `waits i r`: agent `i` waits for the resource `r`, which another one owns. -/
theorem exists_not_waiting {ι ρ : Type} [LinearOrder ρ] {agents : Set ι} {owner : ρ → Option ι}
    {waits : ι → ρ → Prop} (hfinite : agents.Finite) (hne : agents.Nonempty)
    (hwaits : ∀ i r, waits i r → ∃ j ∈ agents, j ≠ i ∧ owner r = some j)
    (hascending : ∀ i r r', waits i r' → owner r = some i → r ≤ r') :
    ∃ i ∈ agents, ∀ r, ¬waits i r := by
  by_contra hall
  have hall : ∀ i ∈ agents, ∃ r, waits i r := by
    intro i hi
    by_contra hnone
    exact hall ⟨i, hi, fun r hr => hnone ⟨r, hr⟩⟩
  obtain ⟨i₀, hi₀⟩ := id hne
  have : Nonempty ρ := (hall i₀ hi₀).nonempty
  choose! wanted hwanted using hall
  obtain ⟨i, hi, hmax⟩ := hfinite.exists_maximalFor wanted agents hne
  obtain ⟨j, hj, hji, howner⟩ := hwaits i _ (hwanted i hi)
  have hle : wanted i ≤ wanted j := hascending j _ _ (hwanted j hj) howner
  -- The owner of the greatest resource waits for that resource itself.
  have heq : wanted j = wanted i := le_antisymm (hmax hj hle) hle
  obtain ⟨k, -, hkj, howner'⟩ := hwaits j _ (hwanted j hj)
  rw [heq, howner] at howner'
  exact hkj (Option.some.inj howner').symm

namespace Machine

variable {M : Machine} {A : Assumptions M} {s : M.State} {cfg : Config M}

/-- A run has made finitely many calls. -/
theorem Reachable.threads_finite (h : Reachable A s cfg) : {i | cfg.threads i ≠ none}.Finite := by
  induction h with
  | initial =>
      refine Set.Finite.subset Set.finite_empty fun i hi => ?_
      exact hi rfl
  | @next cfg cfg' a _ _ hn ih =>
      have hset : ∃ i s th, cfg' = cfg.set s i th := by
        cases a with
        | spawn i call => exact ⟨i, _, _, (next_spawn_iff.mp hn).2⟩
        | step i ch =>
            obtain ⟨call, c, k, r, t, -, -, hcfg⟩ := next_step_iff.mp hn
            exact ⟨i, _, _, hcfg⟩
        | crash i =>
            obtain ⟨call, p, -, hcfg⟩ := next_crash_iff.mp hn
            exact ⟨i, _, _, hcfg⟩
      obtain ⟨i, s, th, rfl⟩ := hset
      refine (ih.insert i).subset fun j hj => ?_
      by_cases hji : j = i
      · exact .inl hji
      · exact .inr (by rwa [Set.mem_ofPred_eq, Config.threads_set_of_ne _ _ _ hji] at hj)

end Machine

end Concurrency
