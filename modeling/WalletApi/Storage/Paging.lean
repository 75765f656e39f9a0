import Mathlib.Data.List.Perm.Subperm
import Mathlib.Data.List.Sort
import Mathlib.Order.Basic

/-!
Reading a table page by page while it grows.

The rows are read in the order of a key. A request asks for the rows after the
last one that has been handed out, and for one row more than it hands out; that
row tells whether there is another page. Rows may be added anywhere between two
requests.

What has been read is always a strictly ascending list, and it contains every row
of the first table up to the cursor (`progress`). So nothing is repeated, and
nothing that was there from the beginning is missed once the last page has come.
Each page but the last one brings something, so the last one comes if from some
request on no rows are added behind the cursor (`ends`).
-/

namespace Paging

variable {α κ : Type} [LinearOrder κ] (key : α → κ)

/-- The rows are in strictly ascending order. -/
abbrev Ordered (rows : List α) : Prop := rows.Pairwise fun a b => key a < key b

/-- The position lies after the cursor; the first request has none. -/
def After : Option κ → κ → Prop
  | none, _ => True
  | some c, k => c < k

instance (c : Option κ) (k : κ) : Decidable (After c k) :=
  match c with
  | none => .isTrue trivial
  | some c => inferInstanceAs (Decidable (c < k))

/-- The rows that have not been handed out. -/
def rest (c : Option κ) (rows : List α) : List α := rows.filter fun r => After c (key r)

structure Page (α κ : Type) where
  items : List α
  /-- The cursor of the next request. -/
  next : Option κ

/-- One request. -/
def page (limit : ℕ) (c : Option κ) (rows : List α) : Page α κ :=
  let found := (rest key c rows).take (limit + 1)
  if limit < found.length then
    { items := found.take limit, next := (found.take limit).getLast?.map key }
  else { items := found, next := none }

/-- The cursor of each request of a client who follows the cursors, in a table that
may be different each time; `none` once the last page has come. -/
def cursor (limit : ℕ → ℕ) (table : ℕ → List α) : ℕ → Option (Option κ)
  | 0 => some none
  | n + 1 => (cursor limit table n).bind fun c => (page key (limit n) c (table n)).next.map some

/-- The rows that a request brings. -/
def pageAt (limit : ℕ → ℕ) (table : ℕ → List α) (n : ℕ) : List α :=
  match cursor key limit table n with
  | none => []
  | some c => (page key (limit n) c (table n)).items

/-- The rows that the first requests bring. -/
def read (limit : ℕ → ℕ) (table : ℕ → List α) (n : ℕ) : List α :=
  (List.range n).flatMap (pageAt key limit table)

variable {key} {limit : ℕ → ℕ} {table : ℕ → List α} {rows : List α} {c : Option κ} {k : κ} {m n : ℕ}
  {r : α}

@[simp] theorem read_zero : read key limit table 0 = [] := rfl

theorem read_succ : read key limit table (n + 1) =
    read key limit table n ++ pageAt key limit table n := by
  simp [read, List.range_succ]

/-! ### One page -/

theorem mem_rest : r ∈ rest key c rows ↔ r ∈ rows ∧ After c (key r) := by
  simp [rest]

theorem Ordered.nodup (h : Ordered key rows) : rows.Nodup := by
  refine h.imp fun {a b} hlt hab => ?_
  subst hab
  exact lt_irrefl _ hlt

theorem Ordered.rest (h : Ordered key rows) : Ordered key (rest key c rows) :=
  h.filter _

/-- The rows of a page, and what it says about the rows that are left. -/
theorem page_eq : page key m c rows =
    if m < (rest key c rows).length then
      { items := (rest key c rows).take m
        next := ((rest key c rows).take m).getLast?.map key }
    else { items := rest key c rows, next := none } := by
  unfold page
  by_cases h : m < (rest key c rows).length
  · simp [h, List.take_take]
  · have hall : (rest key c rows).take (m + 1) = rest key c rows :=
      List.take_of_length_le (by omega)
    simp [h, hall]

/-- The last page. -/
theorem page_last (h : (page key m c rows).next = none) (hm : 0 < m) :
    (page key m c rows).items = rest key c rows := by
  rw [page_eq] at h ⊢
  split at h
  · rename_i hlen
    have hne : (rest key c rows).take m ≠ [] := by
      rw [← List.length_pos_iff]
      simp
      omega
    simp [List.getLast?_eq_some_getLast hne] at h
  · rename_i hlen
    simp [hlen]

theorem mem_rest_of_mem_page (h : r ∈ (page key m c rows).items) : r ∈ rest key c rows := by
  rw [page_eq] at h
  split at h
  · exact List.mem_of_mem_take h
  · exact h

/-- Any other page ends at the cursor that it hands out. -/
theorem page_next (hrows : Ordered key rows) (h : (page key m c rows).next = some k) :
    (∃ r ∈ rows, key r = k ∧ After c k) ∧
      ∀ r, r ∈ (page key m c rows).items ↔ r ∈ rows ∧ After c (key r) ∧ key r ≤ k := by
  rw [page_eq] at h ⊢
  split at h
  case isFalse => cases h
  rename_i hlen
  obtain ⟨last, hlast, rfl⟩ := Option.map_eq_some_iff.mp h
  rw [if_pos hlen]
  have hsplit : (rest key c rows).take m ++ (rest key c rows).drop m = rest key c rows :=
    List.take_append_drop ..
  have hord := (hrows.rest (c := c))
  rw [← hsplit] at hord
  obtain ⟨htake, -, hlt⟩ := List.pairwise_append.mp hord
  obtain ⟨front, hfront⟩ := List.getLast?_eq_some_iff.mp hlast
  have hmem : last ∈ (rest key c rows).take m := List.mem_of_getLast? hlast
  have hle : ∀ r ∈ (rest key c rows).take m, key r ≤ key last := by
    intro r hr
    rw [hfront] at hr htake
    rcases List.mem_append.mp hr with hr | hr
    · exact le_of_lt ((List.pairwise_append.mp htake).2.2 r hr last (.head _))
    · rw [List.mem_singleton.mp hr]
  refine ⟨⟨last, ?_⟩, fun r => ?_⟩
  · have hrest := mem_rest.mp (List.mem_of_mem_take hmem)
    exact ⟨hrest.1, rfl, hrest.2⟩
  · constructor
    · intro hr
      have hrest := mem_rest.mp (List.mem_of_mem_take hr)
      exact ⟨hrest.1, hrest.2, hle r hr⟩
    · rintro ⟨hr, hafter, hk⟩
      have hrest : r ∈ rest key c rows := mem_rest.mpr ⟨hr, hafter⟩
      rw [← hsplit] at hrest
      rcases List.mem_append.mp hrest with hr | hr
      · exact hr
      · exact absurd (hlt last hmem r hr) (not_lt_of_ge hk)

/-! ### All pages -/

/-- What is known after some requests. The rows that have been read end at the
cursor, and up to there nothing of the first table is missing. -/
structure Progress (key : α → κ) (limit : ℕ → ℕ) (table : ℕ → List α) (n : ℕ) : Prop where
  ordered : Ordered key (read key limit table n)
  source : ∀ r ∈ read key limit table n, ∃ m < n, r ∈ table m
  before : ∀ c, cursor key limit table n = some c →
    ∀ r ∈ read key limit table n, ∀ k, After c k → key r < k
  complete : ∀ c, cursor key limit table n = some c →
    ∀ r ∈ table 0, ¬After c (key r) → r ∈ read key limit table n
  ended : cursor key limit table n = none → ∀ r ∈ table 0, r ∈ read key limit table n

theorem progress (hlimit : ∀ n, 0 < limit n) (hordered : ∀ n, Ordered key (table n))
    (hgrows : ∀ n, ∀ r ∈ table n, r ∈ table (n + 1)) (n : ℕ) : Progress key limit table n := by
  have hfirst : ∀ n, ∀ r ∈ table 0, r ∈ table n := by
    intro n
    induction n with
    | zero => exact fun r hr => hr
    | succ n ih => exact fun r hr => hgrows n r (ih r hr)
  induction n with
  | zero =>
      refine ⟨.nil, by simp, by simp, fun c hc r _ hr => ?_, fun h => by cases h⟩
      cases hc
      exact absurd trivial hr
  | succ n ih =>
      cases hc : cursor key limit table n with
      | none =>
          -- The last page has come before.
          have hpage : pageAt key limit table n = [] := by simp [pageAt, hc]
          have hnone : cursor key limit table (n + 1) = none := by simp [cursor, hc]
          have hread : read key limit table (n + 1) = read key limit table n := by
            simp [read_succ, hpage]
          refine ⟨hread ▸ ih.ordered, fun r hr => ?_, fun c h => ?_, fun c h => ?_, fun _ => ?_⟩
          · obtain ⟨m, hm, hmem⟩ := ih.source r (hread ▸ hr)
            exact ⟨m, by omega, hmem⟩
          · cases hnone.symm.trans h
          · cases hnone.symm.trans h
          · exact hread ▸ ih.ended hc
      | some c =>
          have hpage : pageAt key limit table n = (page key (limit n) c (table n)).items := by
            simp [pageAt, hc]
          have hnext : cursor key limit table (n + 1) =
              (page key (limit n) c (table n)).next.map some := by simp [cursor, hc]
          have hitems : ∀ r ∈ pageAt key limit table n,
              r ∈ table n ∧ After c (key r) := by
            intro r hr
            rw [hpage] at hr
            cases hk : (page key (limit n) c (table n)).next with
            | none =>
                rw [page_last hk (hlimit n)] at hr
                exact mem_rest.mp hr
            | some k =>
                have h := (((page_next (hordered n) hk).2 r).mp hr)
                exact ⟨h.1, h.2.1⟩
          have hsorted : Ordered key (pageAt key limit table n) := by
            rw [hpage, page_eq]
            split
            · exact ((hordered n).rest).sublist (List.take_sublist ..)
            · exact (hordered n).rest
          refine ⟨?_, fun r hr => ?_, fun c' hc' r hr k hk => ?_, fun c' hc' r hr hk => ?_,
            fun h r hr => ?_⟩
          · rw [read_succ]
            exact List.pairwise_append.mpr ⟨ih.ordered, hsorted,
              fun a ha b hb => ih.before c hc a ha _ (hitems b hb).2⟩
          · rw [read_succ] at hr
            rcases List.mem_append.mp hr with hr | hr
            · obtain ⟨m, hm, hmem⟩ := ih.source r hr
              exact ⟨m, by omega, hmem⟩
            · exact ⟨n, by omega, (hitems r hr).1⟩
          · obtain ⟨k', hk', rfl⟩ := Option.map_eq_some_iff.mp (hnext.symm.trans hc')
            obtain ⟨⟨last, -, -, hafter⟩, hmem⟩ := page_next (hordered n) hk'
            rw [read_succ] at hr
            rcases List.mem_append.mp hr with hr | hr
            · exact lt_trans (ih.before c hc r hr k' hafter) hk
            · exact lt_of_le_of_lt ((hmem r).mp (hpage ▸ hr)).2.2 hk
          · obtain ⟨k', hk', rfl⟩ := Option.map_eq_some_iff.mp (hnext.symm.trans hc')
            obtain ⟨-, hmem⟩ := page_next (hordered n) hk'
            rw [read_succ]
            by_cases hafter : After c (key r)
            · refine List.mem_append_right _ ?_
              rw [hpage]
              exact (hmem r).mpr ⟨hfirst n r hr, hafter, not_lt.mp hk⟩
            · exact List.mem_append_left _ (ih.complete c hc r hr hafter)
          · have hlast : (page key (limit n) c (table n)).next = none := by
              simpa [hnext] using h
            rw [read_succ]
            by_cases hafter : After c (key r)
            · refine List.mem_append_right _ ?_
              rw [hpage, page_last hlast (hlimit n)]
              exact mem_rest.mpr ⟨hfirst n r hr, hafter⟩
            · exact List.mem_append_left _ (ih.complete c hc r hr hafter)

/-- From request `m` on no row is added that the client would still come to: a new
row does not lie after the cursor that has been handed out. -/
def QuietFrom (key : α → κ) (limit : ℕ → ℕ) (table : ℕ → List α) (m : ℕ) : Prop :=
  ∀ n ≥ m, ∀ k, cursor key limit table (n + 1) = some (some k) →
    ∀ r ∈ table (n + 1), r ∉ table n → ¬k < key r

/-- What is left becomes less with each page. -/
theorem rest_succ (hordered : ∀ n, Ordered key (table n)) (hquiet : QuietFrom key limit table m)
    (hmn : m ≤ n) (hc : cursor key limit table n = some c)
    (hk : cursor key limit table (n + 1) = some (some k)) :
    (∀ r ∈ rest key (some k) (table (n + 1)), r ∈ rest key c (table n)) ∧
      (rest key (some k) (table (n + 1))).length < (rest key c (table n)).length := by
  have hnext : (page key (limit n) c (table n)).next = some k := by
    have hstep : (page key (limit n) c (table n)).next.map some = some (some k) := by
      rw [← hk]
      simp [cursor, hc]
    obtain ⟨k', hk', heq⟩ := Option.map_eq_some_iff.mp hstep
    cases heq
    exact hk'
  obtain ⟨⟨last, hlast, hkey, hafter⟩, -⟩ := page_next (hordered n) hnext
  have hsub : ∀ r ∈ rest key (some k) (table (n + 1)), r ∈ rest key c (table n) := by
    intro r hr
    obtain ⟨hmem, hlt⟩ := mem_rest.mp hr
    refine mem_rest.mpr ⟨?_, ?_⟩
    · by_contra hnew
      exact hquiet n hmn k hk r hmem hnew hlt
    · cases c with
      | none => trivial
      | some c => exact lt_trans hafter hlt
  refine ⟨hsub, ?_⟩
  -- The last row of the page is not left any more.
  have hnot : last ∉ rest key (some k) (table (n + 1)) := by
    intro h
    have hlt : k < key last := (mem_rest.mp h).2
    exact lt_irrefl _ (hkey ▸ hlt)
  have hold : last ∈ rest key c (table n) := mem_rest.mpr ⟨hlast, hkey ▸ hafter⟩
  have hnodup : (last :: rest key (some k) (table (n + 1))).Nodup :=
    List.nodup_cons.mpr ⟨hnot, Ordered.nodup (hordered (n + 1)).rest⟩
  exact (hnodup.subperm fun r hr => (List.mem_cons.mp hr).elim (fun h => h ▸ hold) (hsub r)).length_le

/-- A client with nothing new ahead comes to the last page. -/
theorem ends (hordered : ∀ n, Ordered key (table n)) (hquiet : QuietFrom key limit table m) :
    ∃ n, cursor key limit table n = none := by
  by_contra! hnever
  have hdescends : ∀ n, ∃ c, cursor key limit table (m + n) = some c ∧
      (rest key c (table (m + n))).length + n ≤ (table m).length := by
    intro n
    induction n with
    | zero =>
        obtain ⟨c, hc⟩ := Option.ne_none_iff_exists'.mp (hnever m)
        exact ⟨c, hc, List.length_filter_le ..⟩
    | succ n ih =>
        obtain ⟨c, hc, hle⟩ := ih
        obtain ⟨c', hc'⟩ := Option.ne_none_iff_exists'.mp (hnever (m + (n + 1)))
        cases c' with
        | none =>
            have hstep : (cursor key limit table (m + n)).bind
                (fun c => (page key (limit (m + n)) c (table (m + n))).next.map some) =
                  some none := hc'
            rw [hc, Option.bind_some] at hstep
            obtain ⟨k, -, hk⟩ := Option.map_eq_some_iff.mp hstep
            cases hk
        | some k =>
            have hless := (rest_succ hordered hquiet (Nat.le_add_right m n) hc hc').2
            rw [Nat.add_assoc] at hless
            exact ⟨_, hc', by omega⟩
  obtain ⟨c, -, hle⟩ := hdescends ((table m).length + 1)
  omega

/-- If nothing new is ever ahead, only rows of the first table are left, and read. -/
theorem source_of_quiet (hordered : ∀ n, Ordered key (table n))
    (hquiet : QuietFrom key limit table 0) (n : ℕ) :
    (∀ c, cursor key limit table n = some c → ∀ r ∈ rest key c (table n), r ∈ table 0) ∧
      ∀ r ∈ read key limit table n, r ∈ table 0 := by
  induction n with
  | zero => exact ⟨fun c _ r hr => (mem_rest.mp hr).1, fun r hr => by cases hr⟩
  | succ n ih =>
      obtain ⟨hleft, hread⟩ := ih
      constructor
      · intro c' hc' r hr
        obtain ⟨c, hc, hnext⟩ := Option.bind_eq_some_iff.mp hc'
        obtain ⟨k, -, rfl⟩ := Option.map_eq_some_iff.mp hnext
        exact hleft c hc r ((rest_succ hordered hquiet (Nat.zero_le n) hc hc').1 r hr)
      · intro r hr
        rw [read_succ] at hr
        rcases List.mem_append.mp hr with hold | hnew
        · exact hread r hold
        · unfold pageAt at hnew
          cases hc : cursor key limit table n with
          | none =>
              rw [hc] at hnew
              cases hnew
          | some c =>
              rw [hc] at hnew
              exact hleft c hc r (mem_rest_of_mem_page hnew)

/-- If nothing new is ever ahead, the pages make up the first table. -/
theorem read_eq (hlimit : ∀ n, 0 < limit n) (hordered : ∀ n, Ordered key (table n))
    (hgrows : ∀ n, ∀ r ∈ table n, r ∈ table (n + 1)) (hquiet : QuietFrom key limit table 0)
    (h : cursor key limit table n = none) : read key limit table n = table 0 := by
  have hP := progress hlimit hordered hgrows n
  have hperm : (read key limit table n).Perm (table 0) := by
    refine (List.perm_ext_iff_of_nodup (Ordered.nodup hP.ordered)
      (Ordered.nodup (hordered 0))).mpr fun r => ?_
    exact ⟨(source_of_quiet hordered hquiet n).2 r, hP.ended h r⟩
  exact hperm.eq_of_pairwise (fun a b _ _ hab hba => absurd hab (lt_asymm hba)) hP.ordered
    (hordered 0)

/-! ### A client who never catches up -/

theorem ordered_map_range {row : ℕ → α} (hrow : StrictMono fun i => key (row i)) (m : ℕ) :
    Ordered key ((List.range m).map row) :=
  List.pairwise_map.mpr (List.pairwise_lt_range.imp fun h => hrow h)

/-- The rows of a growing sequence after one of them. -/
theorem rest_map_range {row : ℕ → α} (hrow : StrictMono fun i => key (row i)) (n m : ℕ) :
    rest key (some (key (row n))) ((List.range (n + 1 + m)).map row) =
      (List.range' (n + 1) m).map row := by
  have hafter : (fun r => decide (After (some (key (row n))) (key r))) ∘ row =
      fun i => decide (n < i) := by
    funext i
    exact decide_eq_decide.mpr hrow.lt_iff_lt
  rw [rest, List.filter_map, hafter, List.range_eq_range', ← List.range'_append_1, List.filter_append]
  have hold : (List.range' 0 (n + 1)).filter (fun i => decide (n < i)) = [] := by
    refine List.filter_eq_nil_iff.mpr fun i hi => ?_
    simp only [List.mem_range'_1] at hi
    simp
    omega
  have hnew : (List.range' (0 + (n + 1)) m).filter (fun i => decide (n < i)) =
      List.range' (n + 1) m := by
    rw [Nat.zero_add]
    refine List.filter_eq_self.mpr fun i hi => ?_
    simp only [List.mem_range'_1] at hi
    simp
    omega
  rw [hold, hnew, List.nil_append]

/-- If a row is added at the end for each row that is read, each page has a
successor. -/
theorem cursor_growing {row : ℕ → α} (hrow : StrictMono fun i => key (row i)) (n : ℕ) :
    cursor key (fun _ => 1) (fun n => (List.range (n + 2)).map row) n =
      some (match n with
        | 0 => none
        | n + 1 => some (key (row n))) := by
  induction n with
  | zero => rfl
  | succ n ih =>
      cases n with
      | zero =>
          have hall : rest key none ((List.range 2).map row) = [row 0, row 1] :=
            List.filter_eq_self.mpr fun _ _ => decide_eq_true trivial
          simp [cursor, page, hall]
      | succ n =>
          have hrest := rest_map_range hrow n 2
          simp only [List.range'] at hrest
          rw [cursor, ih]
          simp [page, hrest]

end Paging
