import WalletApi.Concurrency.Overlay
import WalletApi.Runs.Footprint

/-!
Proof rules for an overlay on the discipline of a policy.

What matters of most programs under an overlay is what holds where they go on; they
may throw anything (`Over`). Where the errors matter they have a postcondition of their
own (`OverThrows`). All commands that are in every footprint are taken to be plain, so
a rule is needed only for control and for the few commands that are not.
-/

namespace WalletApi

open Concurrency ReadCommitted World Policy

variable {P : Platform} {config : Config} {Γ : Policy} {q : Call} {i : ℕ} {c : Cmd}
  {s t u : World} {α β : Type}

namespace Policy

/-- What a lookup answers. -/
theorem Own.select_eq {client : Client} {qy : Query} {a : qy.Result}
    (h : Own Γ P config q i (.select client qy) s t (.ok a) u) : a = qy.run (t.view i client) := by
  rcases h.answer with ⟨-, hr, -⟩ | ⟨ch, r', s', hp, hr | ⟨-, hr⟩, -⟩
  · cases hr
  · cases hp
    exact Except.ok.inj hr
  · cases hr

/-- What a write outside of a transaction answers and does. -/
theorem Own.write_eq {w : Write} {a : w.Result}
    (h : Own Γ P config q i (.write .pool w) s t (.ok a) u) :
    w.result t.db = some a ∧ u.db = w.apply t.db := by
  rcases h.answer with ⟨-, hr, -⟩ | ⟨ch, r', s', hp, hr, rfl⟩
  · cases hr
  rcases hr with rfl | ⟨-, hr⟩
  · rcases write_eq_some hp with ⟨-, code, -, hr⟩ | ⟨row, store, -, hrow, hstage, hr, rfl⟩
    · cases hr
    · obtain ⟨-, -, rfl⟩ := Store.write_eq_done hstage
      cases hr
      exact ⟨hrow, rfl⟩
  · cases hr

/-- What a write inside of a transaction answers. -/
theorem Own.staged_eq {w : Write} {a : w.Result}
    (h : Own Γ P config q i (.write .tx w) s t (.ok a) u) :
    w.result (t.view i .tx) = some a := by
  rcases h.answer with ⟨-, hr, -⟩ | ⟨ch, r', s', hp, hr, -⟩
  · cases hr
  rcases hr with rfl | ⟨-, hr⟩
  · rcases write_eq_some hp with ⟨-, code, -, hr⟩ | ⟨row, store, -, hrow, -, hr, -⟩
    · cases hr
    · cases hr
      exact hrow
  · cases hr

theorem Own.history (h : Own Γ P config q i c s t r u) :
    ∃ took, u.history = ⟨i, c, r, took⟩ :: t.history := by
  obtain ⟨ch, -, he⟩ := h.exec
  exact exec_history he

end Policy

/-- The program keeps the overlay; where it returns `Q` holds, and what it throws
satisfies `E`. -/
def OverThrows (O : Overlay (Γ.discipline P config)) (q : Call) (i : ℕ) (p : Program α)
    (Q : α → World → Prop) (E : Err → Prop) (s : World) : Prop :=
  O.layered.wp q i p Q (fun e _ => E e) s

/-- The program keeps the overlay, and where it returns `Q` holds. -/
def Over (O : Overlay (Γ.discipline P config)) (q : Call) (i : ℕ) (p : Program α)
    (Q : α → World → Prop) (s : World) : Prop :=
  O.layered.wp q i p Q (fun _ _ => True) s

namespace Over

variable {O : Overlay (Γ.discipline P config)}

theorem own {r : Except Err c.Resp} (ht : O.layered.Inv t) (hrely : O.layered.Rely i s t)
    (hstep : O.layered.Step q i c t r u) : Own Γ P config q i c s t r u :=
  ⟨O.rely hrely, ht.1, hstep.1⟩

/-- An answered step of the thread under the overlay, and what is known of it. -/
structure Passed (O : Overlay (Γ.discipline P config)) (q : Call) (i : ℕ) (c : Cmd) (s t : World)
    (a : c.Resp) (u : World) : Prop where
  before : O.layered.Inv t
  own : Own Γ P config q i c s t (.ok a) u
  after : O.layered.Inv u
  runs : (Γ.discipline P config).Runs s u

namespace Passed

variable {a : c.Resp}

theorem unique (h : Passed O q i c s t a u) : u.db.Unique := h.after.1.2.1

theorem overlay (h : Passed O q i c s t a u) : O.Inv u := h.after.2

end Passed

end Over

namespace OverThrows

variable {O : Overlay (Γ.discipline P config)} {E : Err → Prop}

/-- An answer under the overlay. -/
theorem ends {Q : c.Resp → World → Prop} {r : Except Err c.Resp}
    (herr : ∀ {ch t e u}, exec P config i c ch t = some (.error e, u) → E e)
    (h : ∀ t u a, Over.Passed O q i c s t a u → Q a u) (ht : O.layered.Inv t)
    (ho : Own Γ P config q i c s t r u)
    (hu : O.layered.Inv u) (hg : (Γ.discipline P config).Guar i t u) :
    Overlay.Ends (S := signature) Q (fun e _ => E e) r u := by
  cases r with
  | ok a => exact h t u a ⟨ht, ho, hu, ho.runs_after ⟨hu.1, hg⟩⟩
  | error e =>
      obtain ⟨ch, -, he⟩ := ho.exec
      exact herr he

/-- A command whose errors are known. -/
theorem command_of {Q : c.Resp → World → Prop}
    (herr : ∀ {ch t e u}, exec P config i c ch t = some (.error e, u) → E e)
    (hd : ∀ t, O.layered.Inv t → (Γ.discipline P config).Runs s t → O.Demand i c t)
    (hkeep : ∀ t r u, O.layered.Inv t → Own Γ P config q i c s t r u →
      (Γ.discipline P config).Inv u → (Γ.discipline P config).Guar i t u → O.Inv u)
    (h : ∀ t u a, Over.Passed O q i c s t a u → Q a u) :
    OverThrows O q i (perform c) Q E s := by
  refine Overlay.wp_command (fun t ht hrely => hd t ht (O.rely hrely).runs)
    fun t r u ht hrely hstep => ?_
  have ho : Own Γ P config q i c s t r u := Over.own ht hrely hstep
  have hu : O.Inv u := hkeep t r u ht ho hstep.2.1 hstep.2.2
  exact ⟨hu, ends herr h ht ho ⟨hstep.2.1, hu⟩ hstep.2.2⟩

/-- A plain command whose errors are known. -/
theorem plain_of {Q : c.Resp → World → Prop} (hc : O.Plain c)
    (herr : ∀ {ch t e u}, exec P config i c ch t = some (.error e, u) → E e)
    (h : ∀ t u a, Over.Passed O q i c s t a u → Q a u) :
    OverThrows O q i (perform c) Q E s :=
  Overlay.wp_plain hc fun _ _ _ ht hrely hstep hu =>
    ends herr h ht (Over.own ht hrely hstep) ⟨hstep.2.1, hu⟩ hstep.2.2

/-- A lookup whose errors are known. -/
theorem lookup_of {client : Client} {qy : Query} {Q : qy.Result → World → Prop}
    (hc : O.Plain (.select client qy))
    (herr : ∀ {ch t e u}, exec P config i (.select client qy) ch t = some (.error e, u) → E e)
    (h : ∀ t u, Over.Passed O q i (.select client qy) s t (qy.run (t.view i client)) u →
      Q (qy.run (t.view i client)) u) : OverThrows O q i (select client qy) Q E s := by
  refine plain_of hc herr fun t u a hp => ?_
  cases hp.own.select_eq
  exact h t u hp

end OverThrows

namespace Over

variable {O : Overlay (Γ.discipline P config)} {Q Q' : α → World → Prop} {p : Program α}

theorem ret {a : α} (h : Q a s) : Over O q i (.ret a) Q s := h

theorem fail {e : Err} : Over O q i (.fail e) Q s := trivial

theorem bind {f : β → Program α} {p : Program β}
    (h : Over O q i p (fun b u => Over O q i (f b) Q u) s) : Over O q i (p >>= f) Q s :=
  RelyGuarantee.wp_bind h

theorem map {f : β → α} {p : Program β} (h : Over O q i p (fun b => Q (f b)) s) :
    Over O q i (f <$> p) Q s :=
  bind (f := fun b => .ret (f b)) h

theorem mono (hQ : ∀ a u, Q a u → Q' a u) (h : Over O q i p Q s) : Over O q i p Q' s :=
  RelyGuarantee.wp_mono hQ (fun _ _ _ => trivial) p h

theorem throwIf {b : Prop} [Decidable b] {e : Err} {Q : Unit → World → Prop} (h : ¬b → Q () s) :
    Over O q i (throwIf b e) Q s :=
  wp_throwIf (fun _ => trivial) h

theorem orThrow {o : Option α} {e : Err} (h : ∀ a, o = some a → Q a s) :
    Over O q i (orThrow o e) Q s :=
  wp_orThrow (fun _ => trivial) h

/-- Whatever a program throws, the handler keeps the overlay. -/
theorem tryCatch {h : Err → Program α} (hp : Over O q i p Q s)
    (hh : ∀ e u, Over O q i (h e) Q u) : Over O q i (tryCatch p h) Q s :=
  RelyGuarantee.wp_tryCatch (RelyGuarantee.wp_mono (fun _ _ hQ => hQ) (fun e u _ => hh e u) p hp)

/-- A plain command. -/
theorem plain {Q : c.Resp → World → Prop} (hc : O.Plain c)
    (h : ∀ t u a, Passed O q i c s t a u → Q a u) : Over O q i (perform c) Q s :=
  OverThrows.plain_of hc (fun _ => trivial) h

/-- A command that is not plain. -/
theorem command {Q : c.Resp → World → Prop}
    (hd : ∀ t, O.layered.Inv t → (Γ.discipline P config).Runs s t → O.Demand i c t)
    (hkeep : ∀ t r u, O.layered.Inv t → Own Γ P config q i c s t r u →
      (Γ.discipline P config).Inv u → (Γ.discipline P config).Guar i t u → O.Inv u)
    (h : ∀ t u a, Passed O q i c s t a u → Q a u) : Over O q i (perform c) Q s :=
  OverThrows.command_of (fun _ => trivial) hd hkeep h

/-- A lookup. -/
theorem lookup {client : Client} {qy : Query} {Q : qy.Result → World → Prop}
    (hc : O.Plain (.select client qy))
    (h : ∀ t u, Passed O q i (.select client qy) s t (qy.run (t.view i client)) u →
      Q (qy.run (t.view i client)) u) : Over O q i (select client qy) Q s :=
  OverThrows.lookup_of hc (fun _ => trivial) h

/-- A program of plain commands. -/
theorem within (hp : p.Within O.Plain) (hQ : ∀ a u, (Γ.discipline P config).Runs s u → Q a u) :
    Over O q i p Q s :=
  Overlay.wp_within hp (fun a u hr => hQ a u (O.runs hr)) fun _ _ _ => trivial

/-- What the policy itself says about a program can be added. -/
theorem and {Q₀ : α → World → Prop} (h : Over O q i p Q s)
    (h₀ : (Γ.discipline P config).wp q i p Q₀ (fun _ _ => True) s) :
    Over O q i p (fun a u => Q a u ∧ Q₀ a u) s :=
  RelyGuarantee.wp_mono (fun _ _ h => h) (fun _ _ _ => trivial) p
    (Overlay.wp_and (fun h => h) (fun h => h) (fun h => h) p h h₀)

section Common

variable (hO : ∀ c : Cmd, c.common = true → O.Plain c)

include hO

theorem common {Q : c.Resp → World → Prop} (hc : c.common = true)
    (h : ∀ t u a, Passed O q i c s t a u → Q a u) : Over O q i (perform c) Q s :=
  plain (hO c hc) h

/-- A transaction, from its beginning to its commit. -/
theorem transaction
    (h : ∀ u, Over O q i p (fun a v => Over O q i (perform .commit) (fun _ => Q a) v) u) :
    Over O q i (transaction p) Q s := by
  refine tryCatch (bind (common hO rfl fun _ u _ _ => bind ?_)) fun e u => ?_
  · exact (h u).mono fun a v hcommit => bind hcommit
  · exact bind (common hO rfl fun _ _ _ _ => fail)

/-- A worker whose handler keeps the overlay. -/
theorem work {queue : QueueName} {name : String} {handler : String → Program Unit}
    (h : ∀ id u, Over O q i (handler id) (fun _ _ => True) u) :
    Over O q i (work queue name handler) (fun _ _ => True) s := by
  refine bind (common hO rfl fun _ t (job : Job) _ => ?_)
  have complete (t : World) : Over O q i
      (perform (.completeJob queue job.jobId) >>= fun _ => pure ()) (fun _ _ => True) t :=
    bind (common hO rfl fun _ _ _ _ => ret trivial)
  refine tryCatch ?_ fun _ u => bind (common hO rfl fun _ _ _ _ => ret trivial)
  -- The handler runs only for a job of the right name.
  show Over O q i (if _ then _ else _) _ t
  split
  · exact complete t
  · exact bind ((h job.data t).mono fun _ u _ => complete u)

end Common

end Over

end WalletApi
