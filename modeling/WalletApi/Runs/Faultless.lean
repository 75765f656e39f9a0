import WalletApi.Runs.Operations

/-!
Withdrawals when nothing fails.

If no connection fails and what is generated is new, and if the key of the request
belongs to the thread alone, then a withdrawal between other threads takes one of two
ways: it is committed, or the balance that it has found under the lock is too low.
What is known of the key is a fact that no other thread can change, lock or no lock
(`Protected` by nothing), and it is carried along from the beginning.
-/

namespace WalletApi

open Concurrency ReadCommitted World

variable {P : Platform} {config : Config} {Γ : Policy} {q : Call} {i : ℕ} {s t u : World}
  {α : Type} {ws : List Write} {L : List String} {F N : World → Prop}

/-- What a key is made of: it contains a text that has been generated. -/
def Key.generated : Key → Bool
  | withdrawalId _ | walletTransactionId _ | withdrawalProviderReference _ => true
  | _ => false

/-- The entries that a transaction makes from generated texts. -/
def Cmd.generates : Cmd → List Key
  | .write .tx w => w.keys.filter Key.generated
  | _ => []

/-- What a transaction enters into an index from a generated text is new there. -/
def Cmd.EntersNew (s : World) (c : Cmd) : Prop :=
  ∀ k ∈ c.generates, k ∉ s.db.keys ∧ s.store.claims k = none

instance (s : World) (c : Cmd) : Decidable (c.EntersNew s) :=
  have : DecidablePred fun k => k ∉ s.db.keys ∧ s.store.claims k = none := fun k =>
    inferInstanceAs (Decidable (k ∉ s.db.keys ∧ s.store.claims k = none))
  List.decidableBAll _ c.generates

theorem Cmd.EntersNew.new {s : World} {w : Write} (h : Cmd.EntersNew s (.write .tx w)) {k : Key}
    (hk : k ∈ w.keys) (hgen : k.generated = true) : k ∉ s.db.keys ∧ s.store.claims k = none :=
  h k (List.mem_filter.mpr ⟨hk, hgen⟩)

namespace Policy

/-- What the store knows of a new entry is that it is not in the view of the thread. -/
theorem Tx.not_mem_keys (h : Tx i ws L F t) (hc : t.store.Coherent) {k : Key} (hindex : k ∉ t.db.keys)
    (hclaims : t.store.claims k ≠ some i) : k ∉ Db.keys (schema.applyAll ws t.db) := by
  intro hk
  rcases (Schema.mem_index_applyAll (T := schema)).mp hk with hk | ⟨w, hw, hkw⟩
  · exact hindex hk
  · exact hclaims (hc.claimed.mpr ⟨ws, h.opened, w, hw, hkw⟩)

/-- A write that the columns can hold, concerns a row that is there, and enters only what is new to the
view of the thread is not turned down. -/
theorem Tx.not_rejects (h : Tx i ws L F t) (hc : t.store.Coherent) {w : Write} {code : PrismaCode}
    (hstorable : w.storable = true) (hrow : w.result (schema.applyAll ws t.db) ≠ none)
    (hkeys : ∀ k ∈ w.keys, k ∉ Db.keys (schema.applyAll ws t.db)) : ¬t.Rejects i .tx w code := by
  intro hrejects
  cases code with
  | valueOutOfRange =>
      exact absurd ((Write.storable_iff.mp hstorable).1.symm.trans hrejects) nofun
  | invalidText => exact absurd (hstorable.symm.trans hrejects) nofun
  | recordNotFound =>
      have hnone : w.result (t.view i .tx) = none := hrejects
      rw [h.view_eq] at hnone
      exact hrow hnone
  | uniqueConstraint =>
      have hconflict : t.store.stage i w = .conflict := hrejects
      simp only [Store.stage, h.opened] at hconflict
      split at hconflict
      · rename_i hany
        -- The entry is committed, or the transaction has made it itself.
        obtain ⟨k, hk, hold⟩ := List.any_eq_true.mp hany
        refine hkeys k hk ((Schema.mem_index_applyAll (T := schema)).mpr ?_)
        rcases Bool.or_eq_true_iff.mp hold with hindex | hclaims
        · exact .inl (of_decide_eq_true hindex)
        · obtain ⟨ws', hopen, w', hw', hkw'⟩ := hc.claimed.mp (beq_iff_eq.mp hclaims)
          rw [h.opened] at hopen
          cases hopen
          exact .inr ⟨w', hw', hkw'⟩
      · split at hconflict <;> cases hconflict

/-- What a thread generates is new, and a column can hold it. -/
structure Novel (Γ : Policy) (q : Call) (i : ℕ) : Prop where
  enters : ∀ {c ch s}, Γ.Allows q i c ch s → c.EntersNew s
  text : ∀ {c ch s}, Γ.Allows q i c ch s → isColumnText ch.text = true

theorem Novel.stamp (h : Γ.Novel q i) {stamp : String × ℕ}
    (ho : Own Γ P config q i .defaults s t (.ok stamp) u) : isColumnText stamp.1 = true := by
  obtain ⟨ch, hallows, he⟩ := ho.exec
  cases he
  exact h.text hallows

section Statements

variable (hfault : ¬Γ.Faulty) (hF : Protected P config Γ i L F) {E : Err → World → Prop}

include hfault hF

/-- A write that cannot be turned down. -/
theorem wp_tx_write_new {w : Write} {Q : w.Result → World → Prop} (hs : Tx i ws L F s)
    (hstorable : w.storable = true)
    (hrow : ∀ t, t.store.Coherent → Tx i ws L F t → w.result (schema.applyAll ws t.db) ≠ none)
    (hkeys : ∀ t r u, Own Γ P config q i (.write .tx w) s t r u → Tx i ws L F t →
      ∀ k ∈ w.keys, k ∉ Db.keys (schema.applyAll ws t.db))
    (h : ∀ t u row, Own Γ P config q i (.write .tx w) s t (.ok row) u → Tx i ws L F t →
      w.result (schema.applyAll ws t.db) = some row → Tx i (ws ++ [w]) L F u → Q row u) :
    (Γ.discipline P config).wp q i (write .tx w) Q E s :=
  wp_tx_write hF hs (fun _ hf => absurd hf hfault) h fun t _ _ hrejected =>
    absurd hrejected.reason (hrejected.before.not_rejects hrejected.own.coherent hstorable
      (hrow t hrejected.own.coherent hrejected.before) (hkeys _ _ _ hrejected.own hrejected.before))

/-- A change to a row that the transaction has created itself, under a new entry. -/
theorem wp_tx_update_new {w w₀ : Write} {row : w.Result} {k : Key} {Q : w.Result → World → Prop}
    (hs : Tx i ws L F s) (hw₀ : w₀ ∈ ws) (hk : k ∈ w₀.keys) (hstorable : w.storable = true)
    (hkeys : w.keys = [])
    (hresult : ∀ {d : Db}, k ∉ d.keys → w.result (schema.applyAll ws d) = some row)
    (h : ∀ u, (Γ.discipline P config).Runs s u → Tx i (ws ++ [w]) L F u → Q row u) :
    (Γ.discipline P config).wp q i (write .tx w) Q E s := by
  refine wp_tx_write_new hfault hF hs hstorable (fun t hcoherent ht => ?_) (fun t r u ho ht x hx => ?_)
    fun t u row' ho ht hrow hu => ?_
  · rw [hresult (ht.fresh hcoherent _ hw₀ k hk)]
    exact Option.some_ne_none _
  · rw [hkeys] at hx
    exact absurd hx List.not_mem_nil
  · cases (hresult (ht.fresh ho.coherent _ hw₀ k hk)).symm.trans hrow
    exact h u (ho.runs_quiet rfl) hu

/-- A row of the journal whose key is new. -/
theorem wp_insert_new (hnovel : Γ.Novel q i)
    {data : WalletTransactionRepository.CreateWalletTransactionData}
    {Q : WalletTransaction → World → Prop} (hs : Tx i ws L F s)
    (hstorable : ∀ stamp : String × ℕ, isColumnText stamp.1 = true →
      (Write.createWalletTransaction (data.row stamp.1 stamp.2)).storable = true)
    (hkey : ∀ t, (Γ.discipline P config).Inv t → Tx i ws L F t →
      .walletTransactionIdempotencyKey data.idempotencyKey ∉ Db.keys (schema.applyAll ws t.db))
    (h : ∀ u (stamp : String × ℕ), isColumnText stamp.1 = true →
      (Γ.discipline P config).Runs s u →
      Tx i (ws ++ [.createWalletTransaction (data.row stamp.1 stamp.2)]) L F u →
      Q (data.row stamp.1 stamp.2) u) :
    (Γ.discipline P config).wp q i (WalletTransactionRepository.insert data) Q E s := by
  refine RelyGuarantee.wp_bind (wp_tx_defaults hF hs fun t u stamp ho hu => ?_)
  have hfits := hnovel.stamp ho
  refine wp_tx_write_new hfault hF hu (hstorable stamp hfits) (fun _ _ _ => nofun) ?_
    fun t' u' row ho' _ hrow hu' => ?_
  · intro t' r u' ho' ht' k hk
    rcases List.mem_cons.mp hk with rfl | hk
    · obtain ⟨ch, hallows, -⟩ := ho'.exec
      obtain ⟨hindex, hclaims⟩ := (hnovel.enters hallows).new (.head _) rfl
      exact ht'.not_mem_keys ho'.coherent hindex (by rw [hclaims]; nofun)
    · rw [List.mem_singleton.mp hk]
      exact hkey t' ho'.inv ht'
  · cases hrow
    exact h u' stamp hfits ((ho.runs_quiet rfl).trans (ho'.runs_quiet rfl)) hu'

end Statements

end Policy

end WalletApi
