import WalletApi.Concurrency.Footprint
import WalletApi.Concurrency.RelyGuarantee

/-!
Overlays: a further invariant on top of a certified discipline.

Once the programs of a machine are known to keep a discipline, what it says
about every step is there for free. An overlay adds an invariant and a demand to
it. Most commands cannot disturb the new invariant, whoever issues them, and meet
the demand; these are its plain commands. A program that keeps within the plain
commands needs no further proof (`wp_within`), only the few commands that are not
plain leave something to show, and what has been proved about a program under a
weaker discipline can be added (`wp_and`).
-/

namespace Concurrency

open Machine

variable {S : Signature} {σ τ α : Type}

structure Overlay (G : RelyGuarantee S σ τ) where
  Inv : σ → Prop
  Demand : ℕ → S.Cmd → σ → Prop
  /-- The commands that need no care. -/
  Plain : S.Cmd → Prop
  meets : ∀ {i c s}, Plain c → Demand i c s
  keeps : ∀ {q i c s r t}, Plain c → G.Step q i c s r t → G.Inv s → G.Inv t → G.Guar i s t →
    Inv s → Inv t

namespace Overlay

variable {G : RelyGuarantee S σ τ} (O : Overlay G)

/-- The discipline with the overlay. A step is known to keep the discipline itself. -/
def layered : RelyGuarantee S σ τ where
  Step q i c s r t := G.Step q i c s r t ∧ G.Inv t ∧ G.Guar i s t
  Inv s := G.Inv s ∧ O.Inv s
  Guar := G.Guar
  Demand := O.Demand

variable {O} {q : τ} {i : ℕ} {s t u : σ} {Q : α → σ → Prop} {E : S.Err → σ → Prop}

theorem rely (h : O.layered.Rely i s t) : G.Rely i s t :=
  h.lift (G.Rely i) (fun _ => .refl) (fun h h' => h.trans h')
    fun hj hs ht hg => .single ⟨hs.1, ht.1, _, hj, hg⟩

theorem runs (h : O.layered.Runs s t) : G.Runs s t :=
  h.lift G.Runs (fun _ => .refl) (fun h h' => h.trans h')
    fun hs ht hg => .single ⟨hs.1, ht.1, _, hg⟩

/-- The own steps of a thread are part of a run as well. -/
theorem runs_step {c : S.Cmd} {r : Except S.Err (S.Resp c)} (ht : O.layered.Inv t)
    (hrely : O.layered.Rely i s t) (hstep : O.layered.Step q i c t r u) (hu : O.Inv u) :
    O.layered.Runs s u :=
  hrely.runs.tail ⟨ht, ⟨hstep.2.1, hu⟩, i, hstep.2.2⟩

/-- What an answer has to satisfy. -/
def Ends (Q : α → σ → Prop) (E : S.Err → σ → Prop) (r : Except S.Err α) (u : σ) : Prop :=
  match r with
  | .ok a => Q a u
  | .error e => E e u

/-- The rule of a command in general: it has to meet the demand and to keep the
invariant. -/
theorem wp_command {c : S.Cmd} {Q : S.Resp c → σ → Prop}
    (hd : ∀ t, O.layered.Inv t → O.layered.Rely i s t → O.Demand i c t)
    (h : ∀ t r u, O.layered.Inv t → O.layered.Rely i s t → O.layered.Step q i c t r u →
      O.Inv u ∧ Ends Q E r u) :
    O.layered.wp q i (.perform c) Q E s := by
  refine RelyGuarantee.wp_perform hd ?_ ?_
  · intro t u a ht hrely hstep
    obtain ⟨hu, hQ⟩ := h t (.ok a) u ht hrely hstep
    exact ⟨⟨hstep.2.1, hu⟩, hstep.2.2, hQ⟩
  · intro t u e ht hrely hstep
    obtain ⟨hu, hE⟩ := h t (.error e) u ht hrely hstep
    exact ⟨⟨hstep.2.1, hu⟩, hstep.2.2, hE⟩

/-- The rule of a plain command. -/
theorem wp_plain {c : S.Cmd} {Q : S.Resp c → σ → Prop} (hc : O.Plain c)
    (h : ∀ t r u, O.layered.Inv t → O.layered.Rely i s t → O.layered.Step q i c t r u → O.Inv u →
      Ends Q E r u) :
    O.layered.wp q i (.perform c) Q E s := by
  refine wp_command (fun _ _ _ => O.meets hc) fun t r u ht hrely hstep => ?_
  have hu : O.Inv u := O.keeps hc hstep.1 ht.1 hstep.2.1 hstep.2.2 ht.2
  exact ⟨hu, h t r u ht hrely hstep hu⟩

/-- A program of plain commands. -/
theorem wp_within {p : Prog S α} (hp : p.Within O.Plain) (hQ : ∀ a u, O.layered.Runs s u → Q a u)
    (hE : ∀ e u, O.layered.Runs s u → E e u) : O.layered.wp q i p Q E s := by
  have hgeneral : ∀ v, O.layered.Runs s v → O.layered.wp q i p Q E v := by
    induction p with
    | ret a => exact fun v hv => hQ a v hv
    | fail e => exact fun v hv => hE e v hv
    | op c k ih =>
        intro v hv t ht hrely
        refine ⟨O.meets hp.1, fun r u hstep => ?_⟩
        have hu : O.Inv u := O.keeps hp.1 hstep.1 ht.1 hstep.2.1 hstep.2.2 ht.2
        exact ⟨⟨hstep.2.1, hu⟩, hstep.2.2,
          ih r (hp.2 r) u (hv.trans (runs_step ht hrely hstep hu))⟩
  exact hgeneral s .refl

/-- What is known of a program under a weaker discipline holds in addition. -/
theorem wp_and {G₀ : RelyGuarantee S σ τ} {Q₀ : α → σ → Prop} {E₀ : S.Err → σ → Prop}
    (hinv : ∀ {s}, G.Inv s → G₀.Inv s) (hguar : ∀ {i s t}, G.Guar i s t → G₀.Guar i s t)
    (hstep : ∀ {c r s t}, G.Step q i c s r t → G₀.Step q i c s r t) (p : Prog S α) :
    ∀ {s}, O.layered.wp q i p Q E s → G₀.wp q i p Q₀ E₀ s →
      O.layered.wp q i p (fun a u => Q a u ∧ Q₀ a u) (fun e u => E e u ∧ E₀ e u) s := by
  induction p with
  | ret a => exact fun h h₀ => ⟨h, h₀⟩
  | fail e => exact fun h h₀ => ⟨h, h₀⟩
  | op c k ih =>
      intro s h h₀ t ht hrely
      have hrely₀ : G₀.Rely i s t := hrely.lift (G₀.Rely i) (fun _ => .refl)
        (fun h h' => h.trans h')
        fun hj hs ht hg => .single ⟨hinv hs.1, hinv ht.1, _, hj, hguar hg⟩
      obtain ⟨hd, hnext⟩ := h t ht hrely
      obtain ⟨-, hnext₀⟩ := h₀ t (hinv ht.1) hrely₀
      refine ⟨hd, fun r u hu => ?_⟩
      obtain ⟨hinvu, hguaru, hwp⟩ := hnext r u hu
      exact ⟨hinvu, hguaru, ih r hwp (hnext₀ r u (hstep hu.1)).2.2⟩

/-- The certificate of the overlay, on top of the one of the discipline. The roles
may be coarser than the calls. -/
theorem certified {M : Machine} {A : Assumptions M} {s₀ : M.State} {τ : Type} {f : M.Call → τ}
    {G : RelyGuarantee M.sig M.State τ} {O : Overlay G}
    {Q Q' : M.Call → ℕ → M.Result → M.State → Prop}
    {E E' : M.Call → ℕ → M.sig.Err → M.State → Prop} (C : Certified M A s₀ (G.comap f) Q E)
    (hinitial : O.Inv s₀)
    (hcrash : ∀ {i s}, G.Inv s → O.Inv s → O.Inv (M.crash i s))
    (hcall : ∀ {call i s}, A.admits call → O.layered.Inv s →
      O.layered.wp (f call) i (M.program call) (Q' call i) (E' call i) s) :
    Certified M A s₀ (O.layered.comap f) Q' E' where
  initial := ⟨C.initial, hinitial⟩
  covers hr hth ha he := by
    -- What the discipline promises of the step comes from its own certificate.
    obtain ⟨ht, hg, -⟩ := C.step hr hth ha he
    exact ⟨C.covers hr hth ha he, ht, hg⟩
  crash {cfg i} hr hs := by
    obtain ⟨ht, hg⟩ := C.crash (i := i) hr hs.1
    exact ⟨⟨ht, hcrash hs.1 hs.2⟩, hg⟩
  call ha hs := (RelyGuarantee.wp_comap _).mpr (hcall ha hs)

end Overlay

end Concurrency
