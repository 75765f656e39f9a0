import WalletApi.Concurrency.Machine

/-!
Refinement of a labelled transition system by a machine.

The system says in its own terms what is supposed to happen; its labels are the
events that an observer is told about. A machine refines it along a relation
between the states if every action of the machine is matched by one transition or
by none. The match is asked for in reachable configurations only, so that the
invariants of the machine may be used. With each run of the machine the system then
has a run side by side (`Simulates.abreast`).
-/

namespace Concurrency

variable {τ ℓ : Type} {step : τ → ℓ → τ → Prop} {t u v : τ} {ls ls' : List ℓ}

/-- The runs of a labelled transition system, with the labels in their order. -/
inductive Traced (step : τ → ℓ → τ → Prop) (t : τ) : List ℓ → τ → Prop
  | nil : Traced step t [] t
  | snoc {ls : List ℓ} {u v : τ} {l : ℓ} (h : Traced step t ls u) (hs : step u l v) :
      Traced step t (ls ++ [l]) v

theorem Traced.append (h : Traced step t ls u) (h' : Traced step u ls' v) :
    Traced step t (ls ++ ls') v := by
  induction h' with
  | nil =>
      rw [List.append_nil]
      exact h
  | snoc _ hs ih =>
      rw [← List.append_assoc]
      exact .snoc ih hs

/-- The same run under other labels. -/
theorem Traced.map {ℓ' : Type} {step' : τ → ℓ' → τ → Prop} (f : ℓ → ℓ')
    (hf : ∀ {u l v}, step u l v → step' u (f l) v) (h : Traced step t ls u) :
    Traced step' t (ls.map f) u := by
  induction h with
  | nil => exact .nil
  | snoc _ hs ih =>
      rw [List.map_append]
      exact .snoc ih (hf hs)

variable {M : Machine} {A : Machine.Assumptions M} {s₀ : M.State}
  {cfg cfg' : Machine.Config M} {as : List (Machine.Action M)}

/-- One action of the machine, as a transition that is labelled by it. -/
def Machine.Assumptions.Moves (A : Machine.Assumptions M) (cfg : Machine.Config M)
    (a : Machine.Action M) (cfg' : Machine.Config M) : Prop :=
  A.Permits cfg a ∧ Machine.next cfg a = some cfg'

theorem Machine.Reachable.traced (hr : Machine.Reachable A s₀ cfg)
    (h : Traced A.Moves cfg as cfg') : Machine.Reachable A s₀ cfg' := by
  induction h with
  | nil => exact hr
  | snoc _ hs ih => exact .next _ ih hs.1 hs.2

/-- A schedule that replays is a run with its actions. -/
theorem Traced.replayUnder [DecidablePred A.admits]
    [∀ call i c ch s, Decidable (A.allows call i c ch s)]
    (h : Machine.replayUnder A cfg as = some cfg') : Traced A.Moves cfg as cfg' := by
  induction as generalizing cfg with
  | nil =>
      cases h
      exact .nil
  | cons a as ih =>
      rw [← List.singleton_append, Machine.replayUnder_append] at h
      obtain ⟨mid, hmid, hrest⟩ := Option.bind_eq_some_iff.mp h
      have hfirst : Traced A.Moves cfg ([] ++ [a]) mid :=
        .snoc .nil (Machine.replayUnder_single hmid)
      exact hfirst.append (ih hrest)

/-- Every action of the machine is matched by one transition of the system or by
none; `By` says which actions a label may stand for. -/
def Simulates (A : Machine.Assumptions M) (s₀ : M.State) (step : τ → ℓ → τ → Prop)
    (R : M.State → τ → Prop) (By : Machine.Config M → Machine.Action M → ℓ → Prop) : Prop :=
  ∀ {cfg cfg' : Machine.Config M} {a : Machine.Action M} {t : τ}, Machine.Reachable A s₀ cfg →
    A.Permits cfg a → Machine.next cfg a = some cfg' → R cfg.state t →
    R cfg'.state t ∨ ∃ l u, step t l u ∧ R cfg'.state u ∧ By cfg a l

/-- The machine and the system side by side: an action goes with one transition,
whose label stands for it, or with none, and leads to related states. -/
def Abreast (A : Machine.Assumptions M) (step : τ → ℓ → τ → Prop) (R : M.State → τ → Prop)
    (By : Machine.Config M → Machine.Action M → ℓ → Prop) (s : Machine.Config M × τ)
    (l : Machine.Action M × Option ℓ) (s' : Machine.Config M × τ) : Prop :=
  A.Moves s.1 l.1 s'.1 ∧ R s'.1.state s'.2 ∧
    match l.2 with
    | none => s'.2 = s.2
    | some label => step s.2 label s'.2 ∧ By s.1 l.1 label

variable {R : M.State → τ → Prop} {By : Machine.Config M → Machine.Action M → ℓ → Prop}

/-- What the system does in a run beside the machine. -/
theorem Traced.visible {s s' : Machine.Config M × τ} {ms : List (Machine.Action M × Option ℓ)}
    (h : Traced (Abreast A step R By) s ms s') : Traced step s.2 (ms.filterMap (·.2)) s'.2 := by
  induction h with
  | nil => exact .nil
  | @snoc ms u v l _ hs ih =>
      obtain ⟨-, -, hmatch⟩ := hs
      rw [List.filterMap_append]
      cases hl : l.2 with
      | none =>
          rw [hl] at hmatch
          rw [List.filterMap_cons_none hl, List.filterMap_nil, List.append_nil, hmatch]
          exact ih
      | some label =>
          rw [hl] at hmatch
          rw [List.filterMap_cons_some hl, List.filterMap_nil]
          exact .snoc ih hmatch.1

/-- Beside every run of the machine, from a reachable configuration on, there is a
run of the system. -/
theorem Simulates.abreast (h : Simulates A s₀ step R By) (hr : Machine.Reachable A s₀ cfg)
    (ht : R cfg.state t) (hrun : Traced A.Moves cfg as cfg') :
    ∃ ms u, Traced (Abreast A step R By) (cfg, t) ms (cfg', u) ∧ ms.map (·.1) = as ∧
      R cfg'.state u := by
  induction hrun with
  | nil => exact ⟨[], t, .nil, rfl, ht⟩
  | @snoc as mid last a hmid hlast ih =>
      obtain ⟨ms, u, htrace, rfl, hu⟩ := ih
      rcases h (hr.traced hmid) hlast.1 hlast.2 hu with hu' | ⟨l, v, hs, hv, hby⟩
      · exact ⟨ms ++ [(a, none)], u, .snoc htrace ⟨hlast, hu', rfl⟩, List.map_append, hu'⟩
      · exact ⟨ms ++ [(a, some l)], v, .snoc htrace ⟨hlast, hv, hs, hby⟩, List.map_append, hv⟩

end Concurrency
