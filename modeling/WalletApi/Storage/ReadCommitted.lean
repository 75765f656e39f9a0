import Mathlib.Data.Nat.Notation
import Mathlib.Data.List.Nodup
import Mathlib.Logic.Function.Basic

/-!
A relational store at isolation level READ COMMITTED.

A transaction buffers its writes. A statement reads what is committed when it
starts, plus the writes of its own transaction (`view`). A row lock taken with
`FOR UPDATE` belongs to its transaction until commit or rollback, and whoever
else asks for it waits. A commit applies the buffer to the committed database, a
rollback forgets it; both give up the locks.

Unique indexes reach across uncommitted transactions. A write enters its keys in
the indexes: a key that is committed, or that the same transaction has entered
before, makes the statement fail, and a key that another open transaction has
entered makes it wait for that transaction to end. So the store keeps, next to
the buffers, who has entered which key (`claims`). `Coherent` states what this
bookkeeping is worth: at the moment of its commit the keys of a transaction are
new to the committed database. Hence the indexes stay unique
(`Unique.commit`, `Unique.write`).

Row locks taken by plain UPDATE statements are not part of the store: without
them there are more interleavings, not fewer.
-/

namespace ReadCommitted

/-- What the store has to know of a database: its writes, the entries they make
in unique indexes, and the rows that can be locked. -/
structure Schema where
  Db : Type
  Write : Type
  Key : Type
  Row : Type
  apply : Write → Db → Db
  /-- The entries a write makes in the unique indexes. -/
  keys : Write → List Key
  /-- All entries of the unique indexes. -/
  index : Db → List Key
  [decKey : DecidableEq Key]
  [decRow : DecidableEq Row]
  keys_nodup : ∀ w, (keys w).Nodup
  index_apply : ∀ w d, (index (apply w d)).Perm (index d ++ keys w)

attribute [instance] Schema.decKey Schema.decRow

namespace Schema

variable {T : Schema}

/-- A buffer of writes, applied in the order in which they were made. -/
def applyAll (ws : List T.Write) (d : T.Db) : T.Db := ws.foldl (fun d w => T.apply w d) d

@[simp] theorem applyAll_nil (d : T.Db) : T.applyAll [] d = d := rfl

@[simp] theorem applyAll_cons (w : T.Write) (ws : List T.Write) (d : T.Db) :
    T.applyAll (w :: ws) d = T.applyAll ws (T.apply w d) := rfl

theorem index_applyAll (ws : List T.Write) (d : T.Db) :
    (T.index (T.applyAll ws d)).Perm (T.index d ++ ws.flatMap T.keys) := by
  induction ws generalizing d with
  | nil => simp
  | cons w ws ih =>
      rw [applyAll_cons, List.flatMap_cons, ← List.append_assoc]
      exact (ih (T.apply w d)).trans ((T.index_apply w d).append_right _)

theorem mem_index_applyAll {ws : List T.Write} {d : T.Db} {k : T.Key} :
    k ∈ T.index (T.applyAll ws d) ↔ k ∈ T.index d ∨ ∃ w ∈ ws, k ∈ T.keys w := by
  rw [(index_applyAll ws d).mem_iff, List.mem_append, List.mem_flatMap]

end Schema

structure Store (T : Schema) where
  /-- The committed database. -/
  db : T.Db
  /-- The buffer of each open transaction. -/
  opened : ℕ → Option (List T.Write)
  locks : T.Row → Option ℕ
  claims : T.Key → Option ℕ

/-- The outcome of a write. -/
inductive Verdict (T : Schema)
  | blocked
  | conflict
  | done (s : Store T)

namespace Store

variable {T : Schema}

/-- A database without open transactions. -/
def ofDb (d : T.Db) : Store T := ⟨d, fun _ => none, fun _ => none, fun _ => none⟩

/-- The writes transaction `i` has made so far. -/
def buffer (s : Store T) (i : ℕ) : List T.Write := (s.opened i).getD []

/-- What a statement of transaction `i` sees. -/
def view (s : Store T) (i : ℕ) : T.Db := T.applyAll (s.buffer i) s.db

def begin (s : Store T) (i : ℕ) : Option (Store T) :=
  match s.opened i with
  | none => some { s with opened := Function.update s.opened i (some []) }
  | some _ => none

/-- Lock a row for update; `none` while another transaction holds it. -/
def lock (s : Store T) (i : ℕ) (r : T.Row) : Option (Store T) :=
  match s.opened i, s.locks r with
  | none, _ => none
  | some _, none => some { s with locks := Function.update s.locks r (some i) }
  | some _, some j => if j = i then some s else none

/-- A write inside transaction `i`. -/
def stage (s : Store T) (i : ℕ) (w : T.Write) : Verdict T :=
  match s.opened i with
  | none => .blocked
  | some ws =>
      if (T.keys w).any fun k => k ∈ T.index s.db || s.claims k == some i then .conflict
      else if (T.keys w).any fun k => (s.claims k).isSome then .blocked
      else .done { s with
        opened := Function.update s.opened i (some (ws ++ [w]))
        claims := fun k => if k ∈ T.keys w then some i else s.claims k }

/-- A write outside of any transaction commits by itself. -/
def write (s : Store T) (w : T.Write) : Verdict T :=
  if (T.keys w).any fun k => k ∈ T.index s.db then .conflict
  else if (T.keys w).any fun k => (s.claims k).isSome then .blocked
  else .done { s with db := T.apply w s.db }

/-- End transaction `i` and give up what it holds. -/
def release (s : Store T) (i : ℕ) : Store T where
  db := s.db
  opened := Function.update s.opened i none
  locks r := if s.locks r = some i then none else s.locks r
  claims k := if s.claims k = some i then none else s.claims k

def commit (s : Store T) (i : ℕ) : Option (Store T) :=
  match s.opened i with
  | none => none
  | some ws => some ({ s with db := T.applyAll ws s.db }.release i)

def rollback (s : Store T) (i : ℕ) : Store T := s.release i

/-! ### What each statement does -/

variable {s t : Store T} {i j : ℕ} {w : T.Write} {ws : List T.Write} {r : T.Row}

theorem buffer_of_opened (h : s.opened i = some ws) : s.buffer i = ws := by
  rw [buffer, h, Option.getD_some]

theorem begin_eq_some (h : s.begin i = some t) :
    s.opened i = none ∧ t = { s with opened := Function.update s.opened i (some []) } := by
  simp only [begin] at h
  split at h
  · exact ⟨by assumption, (Option.some.inj h).symm⟩
  · cases h

theorem lock_eq_some (h : s.lock i r = some t) :
    (s.opened i).isSome ∧ (s.locks r = none ∨ s.locks r = some i) ∧
      t = { s with locks := Function.update s.locks r (some i) } := by
  simp only [lock] at h
  split at h
  · cases h
  · rename_i ws ho hl
    exact ⟨by simp [ho], .inl hl, (Option.some.inj h).symm⟩
  · rename_i ws j ho hl
    split at h
    · rename_i hj
      subst hj
      cases h
      exact ⟨by simp [ho], .inr hl, by rw [← hl, Function.update_eq_self]⟩
    · cases h

/-- After a lock the transaction holds that row and what it held before. -/
theorem locks_lock (h : s.lock i r = some t) (r' : T.Row) :
    t.locks r' = some i ↔ r' = r ∨ s.locks r' = some i := by
  obtain ⟨-, -, rfl⟩ := lock_eq_some h
  by_cases hr : r' = r
  · subst hr
    simp
  · simp [hr]

theorem stage_eq_done (h : s.stage i w = .done t) :
    ∃ ws, s.opened i = some ws ∧ (∀ k ∈ T.keys w, k ∉ T.index s.db) ∧
      (∀ k ∈ T.keys w, s.claims k = none) ∧
      t = { s with
        opened := Function.update s.opened i (some (ws ++ [w]))
        claims := fun k => if k ∈ T.keys w then some i else s.claims k } := by
  simp only [stage] at h
  split at h
  · cases h
  · rename_i ws ho
    split at h
    · cases h
    · rename_i hc
      split at h
      · cases h
      · rename_i hb
        simp only [List.any_eq_true, Bool.or_eq_true, decide_eq_true_eq, beq_iff_eq, not_exists,
          not_and, not_or, Bool.not_eq_true, Option.isSome_eq_false_iff,
          Option.isNone_iff_eq_none] at hc hb
        exact ⟨ws, ho, fun k hk => (hc k hk).1, hb, (Verdict.done.inj h).symm⟩

theorem stage_eq_conflict (h : s.stage i w = .conflict) :
    ∃ k ∈ T.keys w, k ∈ T.index s.db ∨ s.claims k = some i := by
  simp only [stage] at h
  split at h
  · cases h
  · split at h
    · rename_i hc
      simpa only [List.any_eq_true, Bool.or_eq_true, decide_eq_true_eq, beq_iff_eq] using hc
    · split at h <;> cases h

theorem write_eq_done (h : s.write w = .done t) :
    (∀ k ∈ T.keys w, k ∉ T.index s.db) ∧ (∀ k ∈ T.keys w, s.claims k = none) ∧
      t = { s with db := T.apply w s.db } := by
  simp only [write] at h
  split at h
  · cases h
  · rename_i hc
    split at h
    · cases h
    · rename_i hb
      simp only [List.any_eq_true, decide_eq_true_eq, not_exists, not_and, Bool.not_eq_true,
        Option.isSome_eq_false_iff, Option.isNone_iff_eq_none] at hc hb
      exact ⟨hc, hb, (Verdict.done.inj h).symm⟩

theorem write_eq_conflict (h : s.write w = .conflict) :
    ∃ k ∈ T.keys w, k ∈ T.index s.db := by
  simp only [write] at h
  split at h
  · rename_i hc
    simpa only [List.any_eq_true, decide_eq_true_eq] using hc
  · split at h <;> cases h

theorem write_eq_blocked (h : s.write w = .blocked) : ∃ k ∈ T.keys w, (s.claims k).isSome := by
  simp only [write] at h
  split at h
  · cases h
  · split at h
    · rename_i hb
      simpa only [List.any_eq_true] using hb
    · cases h

theorem commit_eq_some (h : s.commit i = some t) :
    ∃ ws, s.opened i = some ws ∧ t = ({ s with db := T.applyAll ws s.db }.release i) := by
  simp only [commit] at h
  split at h
  · cases h
  · exact ⟨_, by assumption, (Option.some.inj h).symm⟩

/-! ### The bookkeeping of keys -/

/-- The claims are exactly the keys in the buffers, none of them is committed,
and only an open transaction holds a lock. -/
structure Coherent (s : Store T) : Prop where
  locked : ∀ {r i}, s.locks r = some i → (s.opened i).isSome
  claimed : ∀ {k i}, s.claims k = some i ↔
    ∃ ws, s.opened i = some ws ∧ ∃ w ∈ ws, k ∈ T.keys w
  fresh : ∀ {k i}, s.claims k = some i → k ∉ T.index s.db
  disjoint : ∀ {i ws}, s.opened i = some ws →
    ws.Pairwise fun w w' => ∀ k ∈ T.keys w, k ∉ T.keys w'

theorem Coherent.ofDb (d : T.Db) : (Store.ofDb d : Store T).Coherent where
  locked h := by cases h
  claimed := by simp [Store.ofDb]
  fresh h := by cases h
  disjoint h := by cases h

/-- The keys a transaction has entered are new to the committed database. -/
theorem Coherent.notMem_index (hs : s.Coherent) (ho : s.opened i = some ws)
    (hw : w ∈ ws) {k : T.Key} (hk : k ∈ T.keys w) : k ∉ T.index s.db :=
  hs.fresh (hs.claimed.mpr ⟨ws, ho, w, hw, hk⟩)

theorem Coherent.begin (hs : s.Coherent) (h : s.begin i = some t) : t.Coherent := by
  obtain ⟨hn, rfl⟩ := begin_eq_some h
  refine ⟨fun {r j} hl => ?_, fun {k j} => ?_, fun hc => hs.fresh hc, fun {j ws} ho => ?_⟩
  · by_cases hj : j = i
    · simp [hj]
    · simpa [Function.update_of_ne hj] using hs.locked hl
  · by_cases hj : j = i
    · subst hj
      simp [hs.claimed, hn]
    · simpa [Function.update_of_ne hj] using hs.claimed
  · by_cases hj : j = i
    · subst hj
      simp only [Function.update_self, Option.some.injEq] at ho
      subst ho
      exact .nil
    · dsimp only at ho
      rw [Function.update_of_ne hj] at ho
      exact hs.disjoint ho

theorem Coherent.lock (hs : s.Coherent) (h : s.lock i r = some t) : t.Coherent := by
  obtain ⟨ho, -, rfl⟩ := lock_eq_some h
  refine ⟨fun {r' j} hl => ?_, hs.claimed, hs.fresh, hs.disjoint⟩
  by_cases hr : r' = r
  · subst hr
    simp only [Function.update_self, Option.some.injEq] at hl
    exact hl ▸ ho
  · dsimp only at hl
    rw [Function.update_of_ne hr] at hl
    exact hs.locked hl

theorem Coherent.stage (hs : s.Coherent) (h : s.stage i w = .done t) : t.Coherent := by
  obtain ⟨ws, ho, ht, hc, rfl⟩ := stage_eq_done h
  refine ⟨fun {r j} hl => ?_, fun {k j} => ?_, fun {k j} hk => ?_, fun {j ws'} ho' => ?_⟩
  · by_cases hj : j = i
    · simp [hj]
    · simpa [Function.update_of_ne hj] using hs.locked hl
  · by_cases hj : j = i
    · subst hj
      have hcl : s.claims k = some j ↔ ∃ w ∈ ws, k ∈ T.keys w := by
        simp [hs.claimed, ho]
      by_cases hk : k ∈ T.keys w
      · simp [hk]
      · simp [hk, hcl]
    · have hk : k ∈ T.keys w → s.claims k ≠ some j := fun hk => by simp [hc k hk]
      by_cases hkw : k ∈ T.keys w
      · have := mt hs.claimed.mpr (hk hkw)
        simpa [hkw, Function.update_of_ne hj, Ne.symm hj] using this
      · simpa [hkw, Function.update_of_ne hj] using hs.claimed
  · dsimp only at hk
    split at hk
    · exact ht k (by assumption)
    · exact hs.fresh hk
  · by_cases hj : j = i
    · subst hj
      simp only [Function.update_self, Option.some.injEq] at ho'
      subst ho'
      refine List.pairwise_append.mpr ⟨hs.disjoint ho, List.pairwise_singleton _ _, ?_⟩
      intro w₁ hw₁ w₂ hw₂ k hk hk'
      rw [List.mem_singleton.mp hw₂] at hk'
      have hclaim : s.claims k = some j := hs.claimed.mpr ⟨ws, ho, w₁, hw₁, hk⟩
      rw [hc k hk'] at hclaim
      cases hclaim
    · dsimp only at ho'
      rw [Function.update_of_ne hj] at ho'
      exact hs.disjoint ho'

theorem Coherent.write (hs : s.Coherent) (h : s.write w = .done t) : t.Coherent := by
  obtain ⟨-, hc, rfl⟩ := write_eq_done h
  refine ⟨hs.locked, hs.claimed, fun {k j} hk => ?_, hs.disjoint⟩
  have hkw : k ∉ T.keys w := fun hmem => by
    rw [hc k hmem] at hk
    cases hk
  rw [(T.index_apply w s.db).mem_iff, List.mem_append, not_or]
  exact ⟨hs.fresh hk, hkw⟩

theorem Coherent.release (hs : s.Coherent) (i : ℕ) : (s.release i).Coherent := by
  refine ⟨fun {r j} hl => ?_, fun {k j} => ?_, fun {k j} hk => ?_, fun {j ws} ho => ?_⟩
  · simp only [Store.release] at hl ⊢
    split at hl
    · cases hl
    · rename_i hne
      have hj : j ≠ i := fun h => hne (h ▸ hl)
      rw [Function.update_of_ne hj]
      exact hs.locked hl
  · by_cases hj : j = i
    · subst hj
      simp only [Store.release, Function.update_self, reduceCtorEq, false_and, exists_false,
        iff_false]
      split
      · simp
      · assumption
    · simp only [Store.release, Function.update_of_ne hj, ← hs.claimed]
      split
      · rename_i h
        simp [h, Ne.symm hj]
      · rfl
  · simp only [Store.release] at hk
    split at hk
    · cases hk
    · exact hs.fresh hk
  · by_cases hj : j = i
    · subst hj
      simp [Store.release] at ho
    · simp only [Store.release, Function.update_of_ne hj] at ho
      exact hs.disjoint ho

theorem Coherent.rollback (hs : s.Coherent) (i : ℕ) : (s.rollback i).Coherent := hs.release i

theorem Coherent.commit (hs : s.Coherent) (h : s.commit i = some t) : t.Coherent := by
  obtain ⟨ws, ho, rfl⟩ := commit_eq_some h
  have hr := hs.release i
  refine ⟨hr.locked, hr.claimed, fun {k j} hk => ?_, hr.disjoint⟩
  -- A claim that survives the release belongs to another transaction.
  have hkj : s.claims k = some j ∧ s.claims k ≠ some i := by
    simp only [Store.release] at hk
    split at hk
    · cases hk
    · exact ⟨hk, by assumption⟩
  have hbuf : ¬ ∃ w ∈ ws, k ∈ T.keys w := fun hw =>
    hkj.2 (hs.claimed.mpr ⟨ws, ho, hw⟩)
  show k ∉ T.index (T.applyAll ws s.db)
  rw [Schema.mem_index_applyAll, not_or]
  exact ⟨hs.fresh hkj.1, hbuf⟩

/-! ### The indexes stay unique -/

/-- No entry is made twice in a unique index. -/
def Unique (s : Store T) : Prop := (T.index s.db).Nodup

theorem Unique.write (hu : s.Unique) (h : s.write w = .done t) : t.Unique := by
  obtain ⟨hfresh, -, rfl⟩ := write_eq_done h
  show (T.index (T.apply w s.db)).Nodup
  rw [(T.index_apply w s.db).nodup_iff, List.nodup_append']
  exact ⟨hu, T.keys_nodup w, fun k hk hkw => hfresh k hkw hk⟩

theorem Unique.commit (hs : s.Coherent) (hu : s.Unique) (h : s.commit i = some t) :
    t.Unique := by
  obtain ⟨ws, ho, rfl⟩ := commit_eq_some h
  have hbuf : (ws.flatMap T.keys).Nodup := by
    refine List.nodup_flatMap.mpr ⟨fun w _ => T.keys_nodup w, ?_⟩
    exact (hs.disjoint ho).imp fun h k hk hk' => h k hk hk'
  show (T.index (T.applyAll ws s.db)).Nodup
  rw [(Schema.index_applyAll ws s.db).nodup_iff, List.nodup_append']
  refine ⟨hu, hbuf, fun k hk hkws => ?_⟩
  obtain ⟨w, hw, hkw⟩ := List.mem_flatMap.mp hkws
  exact hs.notMem_index ho hw hkw hk

/-! ### What a step of one transaction leaves to the others -/

/-- Only transaction `i` was at work: the buffers and the locks of the others
are what they were. -/
structure Owned (i : ℕ) (s t : Store T) : Prop where
  opened : ∀ {j}, j ≠ i → t.opened j = s.opened j
  locks : ∀ {r j}, j ≠ i → (t.locks r = some j ↔ s.locks r = some j)

theorem Owned.refl (i : ℕ) (s : Store T) : Owned i s s := ⟨fun _ => rfl, fun _ => Iff.rfl⟩

theorem Owned.begin (h : s.begin i = some t) : Owned i s t := by
  obtain ⟨-, rfl⟩ := begin_eq_some h
  exact ⟨fun hj => Function.update_of_ne hj .., fun _ => Iff.rfl⟩

theorem Owned.lock (h : s.lock i r = some t) : Owned i s t := by
  obtain ⟨-, hfree, rfl⟩ := lock_eq_some h
  refine ⟨fun _ => rfl, fun {r' j} hj => ?_⟩
  by_cases hr : r' = r
  · subst hr
    rcases hfree with hf | hf <;> simp [hf, Ne.symm hj]
  · dsimp only
    rw [Function.update_of_ne hr]

theorem Owned.stage (h : s.stage i w = .done t) : Owned i s t := by
  obtain ⟨ws, -, -, -, rfl⟩ := stage_eq_done h
  exact ⟨fun hj => Function.update_of_ne hj .., fun _ => Iff.rfl⟩

theorem Owned.write (h : s.write w = .done t) : Owned i s t := by
  obtain ⟨-, -, rfl⟩ := write_eq_done h
  exact ⟨fun _ => rfl, fun _ => Iff.rfl⟩

theorem Owned.release (i : ℕ) (s : Store T) : Owned i s (s.release i) := by
  refine ⟨fun hj => Function.update_of_ne hj .., fun {r j} hj => ?_⟩
  simp only [Store.release]
  split
  · rename_i h
    simp [h, Ne.symm hj]
  · rfl

theorem Owned.commit (h : s.commit i = some t) : Owned i s t := by
  obtain ⟨ws, -, rfl⟩ := commit_eq_some h
  have := Owned.release i { s with db := T.applyAll ws s.db }
  exact ⟨this.opened, this.locks⟩

/-! ### Statements in general -/

/-- One statement of transaction `i`, or of its thread outside any transaction. -/
inductive Step (i : ℕ) : Store T → Store T → Prop
  | none (s : Store T) : Step i s s
  | begin {s t : Store T} (h : s.begin i = some t) : Step i s t
  | lock {s t : Store T} {r : T.Row} (h : s.lock i r = some t) : Step i s t
  | stage {s t : Store T} {w : T.Write} (h : s.stage i w = .done t) : Step i s t
  | write {s t : Store T} {w : T.Write} (h : s.write w = .done t) : Step i s t
  | commit {s t : Store T} (h : s.commit i = some t) : Step i s t
  | rollback (s : Store T) : Step i s (s.rollback i)

namespace Step

theorem coherent (h : Step i s t) (hs : s.Coherent) : t.Coherent := by
  cases h with
  | none => exact hs
  | begin h => exact hs.begin h
  | lock h => exact hs.lock h
  | stage h => exact hs.stage h
  | write h => exact hs.write h
  | commit h => exact hs.commit h
  | rollback => exact hs.rollback i

theorem owned (h : Step i s t) : Owned i s t := by
  cases h with
  | none => exact .refl i s
  | begin h => exact .begin h
  | lock h => exact .lock h
  | stage h => exact .stage h
  | write h => exact .write h
  | commit h => exact .commit h
  | rollback => exact .release i s

/-- Only a write outside of a transaction and a commit change the database. -/
theorem db_eq (h : Step i s t) :
    t.db = s.db ∨ (∃ w, s.write w = .done t) ∨ s.commit i = some t := by
  cases h with
  | none => exact .inl rfl
  | begin h =>
      obtain ⟨-, rfl⟩ := begin_eq_some h
      exact .inl rfl
  | lock h =>
      obtain ⟨-, -, rfl⟩ := lock_eq_some h
      exact .inl rfl
  | stage h =>
      obtain ⟨ws, -, -, -, rfl⟩ := stage_eq_done h
      exact .inl rfl
  | write h => exact .inr (.inl ⟨_, h⟩)
  | commit h => exact .inr (.inr h)
  | rollback => exact .inl rfl

theorem unique (h : Step i s t) (hs : s.Coherent) (hu : s.Unique) : t.Unique := by
  rcases h.db_eq with hdb | ⟨w, hw⟩ | hc
  · rw [Unique, hdb]
    exact hu
  · exact hu.write hw
  · exact hu.commit hs hc

end Step

end Store

end ReadCommitted
