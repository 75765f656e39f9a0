import Mathlib.Algebra.BigOperators.Group.List.Basic
import Mathlib.Algebra.Order.BigOperators.Group.List
import Mathlib.Algebra.Order.Ring.Int
import Mathlib.Data.List.Nodup
import Mathlib.Data.List.Perm.Subperm

/-!
Totals over tables.

The total of a table is the sum of an amount over the rows that satisfy a
condition. Two tables have the same total if their rows are matched by a key and
matched rows have the same amount (`total_eq_of_match`); one total is at most the
other if the match goes one way only (`total_le_of_match`). A table that is
partitioned by a column has the total of its parts (`sum_total_eq`).
-/

namespace Accounting

variable {α β κ : Type}

/-- The sum of the amounts of the rows that satisfy `p`. -/
def total (amount : α → ℤ) (p : α → Prop) [DecidablePred p] (rows : List α) : ℤ :=
  ((rows.filter p).map amount).sum

section Conditions

variable (amount : α → ℤ) (p q : α → Prop) [DecidablePred p] [DecidablePred q] (rows : List α)

theorem total_eq_sum_ite :
    total amount p rows = (rows.map fun r => if p r then amount r else 0).sum := by
  induction rows with
  | nil => rfl
  | cons r rows ih =>
      rw [List.map_cons, List.sum_cons, ← ih]
      by_cases hp : p r
      · simp [total, hp]
      · simp [total, hp]

theorem total_add_total_not :
    total amount (fun r => p r ∧ q r) rows + total amount (fun r => p r ∧ ¬ q r) rows =
      total amount p rows := by
  rw [total_eq_sum_ite, total_eq_sum_ite, total_eq_sum_ite, ← List.sum_map_add]
  refine congrArg List.sum (List.map_congr_left fun r _ => ?_)
  by_cases hp : p r <;> by_cases hq : q r <;> simp [hp, hq]

theorem sum_eq_total_add_total_not :
    (rows.map amount).sum = total amount p rows + total amount (fun r => ¬ p r) rows := by
  rw [total_eq_sum_ite, total_eq_sum_ite, ← List.sum_map_add]
  refine congrArg List.sum (List.map_congr_left fun r _ => ?_)
  by_cases hp : p r <;> simp [hp]

theorem total_congr {rows : List α} (h : ∀ r ∈ rows, p r ↔ q r) :
    total amount p rows = total amount q rows := by
  rw [total, total, List.filter_congr fun r hr => decide_eq_decide.mpr (h r hr)]

end Conditions

/-! ### Matching rows -/

section Match

variable {as : List α} {bs : List β} {f : α → κ} {g : β → κ} {amount : α → ℤ} {amount' : β → ℤ}

/-- A key that determines the row does so together with the amount. -/
theorem nodup_map_pair (h : (as.map f).Nodup) : (as.map fun a => (f a, amount a)).Nodup := by
  refine List.Nodup.of_map Prod.fst ?_
  rw [List.map_map]
  exact h

theorem mem_map_pair (hab : ∀ a ∈ as, ∃ b ∈ bs, g b = f a ∧ amount' b = amount a) :
    (as.map fun a => (f a, amount a)) ⊆ bs.map fun b => (g b, amount' b) := by
  intro x hx
  obtain ⟨a, ha, rfl⟩ := List.mem_map.mp hx
  obtain ⟨b, hb, hkey, hamount⟩ := hab a ha
  exact List.mem_map.mpr ⟨b, hb, by rw [hkey, hamount]⟩

theorem sum_eq_of_match (has : (as.map f).Nodup) (hbs : (bs.map g).Nodup)
    (hab : ∀ a ∈ as, ∃ b ∈ bs, g b = f a ∧ amount' b = amount a)
    (hba : ∀ b ∈ bs, ∃ a ∈ as, f a = g b) : (as.map amount).sum = (bs.map amount').sum := by
  have hback : ∀ b ∈ bs, ∃ a ∈ as, f a = g b ∧ amount a = amount' b := by
    intro b hb
    obtain ⟨a, ha, hkey⟩ := hba b hb
    obtain ⟨b', hb', hkey', hamount⟩ := hab a ha
    have : b' = b := List.inj_on_of_nodup_map hbs hb' hb (hkey'.trans hkey)
    exact ⟨a, ha, hkey, by rw [← this, hamount]⟩
  have hperm : (as.map fun a => (f a, amount a)).Perm (bs.map fun b => (g b, amount' b)) := by
    refine (List.perm_ext_iff_of_nodup (nodup_map_pair has) (nodup_map_pair hbs)).mpr fun x => ?_
    exact ⟨fun hx => mem_map_pair hab hx, fun hx => mem_map_pair hback hx⟩
  have hsum := (hperm.map Prod.snd).sum_eq
  rw [List.map_map, List.map_map] at hsum
  exact hsum

theorem sum_le_of_match (has : (as.map f).Nodup) (hnonneg : ∀ b ∈ bs, 0 ≤ amount' b)
    (hab : ∀ a ∈ as, ∃ b ∈ bs, g b = f a ∧ amount' b = amount a) :
    (as.map amount).sum ≤ (bs.map amount').sum := by
  have hpairs : (as.map fun a => (f a, amount a)).Nodup := nodup_map_pair has
  obtain ⟨l, hperm, hsub⟩ := List.subperm_of_subset hpairs (mem_map_pair hab)
  have hsum := (hperm.map Prod.snd).sum_eq
  rw [List.map_map] at hsum
  have hle : (l.map Prod.snd).sum ≤ ((bs.map fun b => (g b, amount' b)).map Prod.snd).sum := by
    refine (hsub.map Prod.snd).sum_le_sum fun x hx => ?_
    rw [List.map_map] at hx
    obtain ⟨b, hb, rfl⟩ := List.mem_map.mp hx
    exact hnonneg b hb
  rw [List.map_map] at hle
  exact hsum.symm.trans_le hle

end Match

section Totals

variable {as : List α} {bs : List β} {f : α → κ} {g : β → κ} {amount : α → ℤ} {amount' : β → ℤ}
  {p : α → Prop} {q : β → Prop} [DecidablePred p] [DecidablePred q]

/-- The rows in question are determined by the key. -/
def KeyOn (f : α → κ) (p : α → Prop) (rows : List α) : Prop :=
  ∀ a ∈ rows, ∀ b ∈ rows, p a → p b → f a = f b → a = b

theorem nodup_map_filter (hrows : as.Nodup) (h : KeyOn f p as) : ((as.filter p).map f).Nodup := by
  refine List.Nodup.map_on ?_ (hrows.filter _)
  intro a ha b hb
  obtain ⟨ha, hpa⟩ := List.mem_filter.mp ha
  obtain ⟨hb, hpb⟩ := List.mem_filter.mp hb
  exact h a ha b hb (of_decide_eq_true hpa) (of_decide_eq_true hpb)

theorem total_eq_of_match (has : as.Nodup) (hbs : bs.Nodup) (hf : KeyOn f p as)
    (hg : KeyOn g q bs)
    (hab : ∀ a ∈ as, p a → ∃ b ∈ bs, q b ∧ g b = f a ∧ amount' b = amount a)
    (hba : ∀ b ∈ bs, q b → ∃ a ∈ as, p a ∧ f a = g b) :
    total amount p as = total amount' q bs := by
  refine sum_eq_of_match (nodup_map_filter has hf) (nodup_map_filter hbs hg) ?_ ?_
  · intro a ha
    obtain ⟨ha, hp⟩ := List.mem_filter.mp ha
    obtain ⟨b, hb, hq, hrest⟩ := hab a ha (of_decide_eq_true hp)
    exact ⟨b, List.mem_filter.mpr ⟨hb, decide_eq_true hq⟩, hrest⟩
  · intro b hb
    obtain ⟨hb, hq⟩ := List.mem_filter.mp hb
    obtain ⟨a, ha, hp, hkey⟩ := hba b hb (of_decide_eq_true hq)
    exact ⟨a, List.mem_filter.mpr ⟨ha, decide_eq_true hp⟩, hkey⟩

theorem total_le_of_match (hf : ((as.filter p).map f).Nodup)
    (hnonneg : ∀ b ∈ bs, q b → 0 ≤ amount' b)
    (hab : ∀ a ∈ as, p a → ∃ b ∈ bs, q b ∧ g b = f a ∧ amount' b = amount a) :
    total amount p as ≤ total amount' q bs := by
  have hmatch : ∀ a ∈ as.filter p, ∃ b ∈ bs.filter q, g b = f a ∧ amount' b = amount a := by
    intro a ha
    obtain ⟨ha, hp⟩ := List.mem_filter.mp ha
    obtain ⟨b, hb, hq, hrest⟩ := hab a ha (of_decide_eq_true hp)
    exact ⟨b, List.mem_filter.mpr ⟨hb, decide_eq_true hq⟩, hrest⟩
  refine sum_le_of_match hf (fun b hb => ?_) hmatch
  obtain ⟨hb, hq⟩ := List.mem_filter.mp hb
  exact hnonneg b hb (of_decide_eq_true hq)

end Totals

/-! ### Partitions -/

theorem sum_map_ite_eq_of_mem [DecidableEq κ] {ids : List κ} (h : ids.Nodup) {k : κ}
    (hk : k ∈ ids) (n : ℤ) : (ids.map fun id => if k = id then n else 0).sum = n := by
  induction ids with
  | nil => exact absurd hk List.not_mem_nil
  | cons id ids ih =>
      obtain ⟨hid, hids⟩ := List.nodup_cons.mp h
      rw [List.map_cons, List.sum_cons]
      by_cases hkid : k = id
      · have hzero : (ids.map fun id' => if k = id' then n else 0) = ids.map fun _ => 0 :=
          List.map_congr_left fun id' hid' => if_neg fun heq => hid (hkid.symm.trans heq ▸ hid')
        rw [if_pos hkid, hzero]
        simp
      · rw [if_neg hkid, zero_add]
        exact ih hids ((List.mem_cons.mp hk).resolve_left hkid)

/-- The parts that a column cuts a table into add up to the table. -/
theorem sum_total_eq [DecidableEq κ] {ids : List κ} (hids : ids.Nodup) (column : α → κ)
    (amount : α → ℤ) (p : α → Prop) [DecidablePred p] {rows : List α}
    (h : ∀ r ∈ rows, p r → column r ∈ ids) :
    (ids.map fun id => total amount (fun r => p r ∧ column r = id) rows).sum =
      total amount p rows := by
  induction rows with
  | nil => simp [total]
  | cons r rows ih =>
      have hrows := ih fun r' hr' => h r' (.tail _ hr')
      simp only [total_eq_sum_ite, List.map_cons, List.sum_cons, List.sum_map_add] at hrows ⊢
      rw [hrows]
      congr 1
      by_cases hp : p r
      · simp only [hp, true_and, if_true]
        exact sum_map_ite_eq_of_mem hids (h r (.head _) hp) (amount r)
      · simp [hp]

end Accounting
