import Mathlib.Data.Prod.Lex
import Mathlib.Data.String.Basic
import WalletApi.Model.Repositories
import WalletApi.Storage.Paging

/-!
The journal of a wallet, read page by page.

A client asks for pages and follows `nextCursor`. New rows may be stored between
two requests, with any timestamps. The order of the journal is that of a key, the
timestamp and the id, so a request is one of the general kind, with the id of a row
in the place of its key. What a client reads is descending and of the wallet, and a
client who comes to the last page has read everything that was there at the
beginning. There is a last page if from some request on no rows of the wallet are
added that lie behind the cursor; if one is added before each request, there may be
none.
-/

namespace WalletApi

open Concurrency Paging WalletTransactionRepository

variable {α : Type} {d : Db} {db : ℕ → Db} {walletId : String} {limit : Option ℕ}
  {limits : ℕ → Option ℕ} {cursor : Option String} {r r' : WalletTransaction} {n : ℕ}

/-! ### The requests of a client -/

/-- What a program answers that does nothing but look something up. -/
def lookUp (d : Db) : Program α → Option α
  | .ret a => some a
  | .fail _ => none
  | .op (.select .pool q) k => lookUp d (k (.ok (q.run d)))
  | .op _ _ => none

/-- One page of the journal of a wallet. -/
def Db.page (d : Db) (walletId : String) (limit : Option ℕ) (cursor : Option String) :
    ListWalletTransactionsResult :=
  (lookUp d (listByWalletId walletId limit cursor)).getD ⟨[], none⟩

/-- The cursor of each request of a client who follows `nextCursor`, where request `n`
finds the database `db n`; `none` once `nextCursor` has been `null`. -/
def request (walletId : String) (db : ℕ → Db) (limits : ℕ → Option ℕ) : ℕ → Option (Option String)
  | 0 => some none
  | n + 1 => (request walletId db limits n).bind fun cursor =>
      ((db n).page walletId (limits n) cursor).nextCursor.map some

/-- The rows that the first requests bring. -/
def rowsRead (walletId : String) (db : ℕ → Db) (limits : ℕ → Option ℕ) (n : ℕ) :
    List WalletTransaction :=
  (List.range n).flatMap fun m =>
    match request walletId db limits m with
    | none => []
    | some cursor => ((db m).page walletId (limits m) cursor).items

/-! ### The order of the journal -/

/-- The place of a row, newest first. -/
def WalletTransaction.place (r : WalletTransaction) : (ℕ ×ₗ String)ᵒᵈ :=
  OrderDual.toDual (toLex (r.createdAt, r.id))

/-- The row comes before the other. -/
def WalletTransaction.newer (r r' : WalletTransaction) : Prop :=
  r'.createdAt < r.createdAt ∨ r.createdAt = r'.createdAt ∧ r'.id < r.id

theorem place_lt_iff : r.place < r'.place ↔ r.newer r' := by
  simp only [WalletTransaction.place, OrderDual.toDual_lt_toDual, Prod.Lex.toLex_lt_toLex,
    WalletTransaction.newer]
  constructor
  · rintro (h | ⟨h, h'⟩)
    · exact .inl h
    · exact .inr ⟨h.symm, h'⟩
  · rintro (h | ⟨h, h'⟩)
    · exact .inl h
    · exact .inr ⟨h.symm, h'⟩

theorem place_le_iff : r.place ≤ r'.place ↔ r.precedes r' := by
  simp only [WalletTransaction.place, OrderDual.toDual_le_toDual, Prod.Lex.toLex_le_toLex,
    WalletTransaction.precedes]
  constructor
  · rintro (h | ⟨h, h'⟩)
    · exact .inl h
    · exact .inr ⟨h.symm, h'⟩
  · rintro (h | ⟨h, h'⟩)
    · exact .inl h
    · exact .inr ⟨h.symm, h'⟩

instance : Std.Total WalletTransaction.precedes :=
  ⟨fun r r' => by simpa only [place_le_iff] using le_total r.place r'.place⟩

instance : IsTrans WalletTransaction WalletTransaction.precedes :=
  ⟨fun r r' r'' => by simpa only [place_le_iff] using @le_trans _ _ r.place r'.place r''.place⟩

/-- The journal of a wallet as the pages show it. -/
def Db.journalSorted (d : Db) (walletId : String) : List WalletTransaction :=
  (d.journalOf walletId).insertionSort WalletTransaction.precedes

theorem mem_journalSorted : r ∈ d.journalSorted walletId ↔
    r ∈ d.walletTransactions ∧ r.walletId = walletId := by
  simp [Db.journalSorted, Db.journalOf]

theorem ordered_journalSorted (hids : (d.walletTransactions.map (·.id)).Nodup) :
    Ordered WalletTransaction.place (d.journalSorted walletId) := by
  have hsorted := List.pairwise_insertionSort WalletTransaction.precedes (d.journalOf walletId)
  have hnodup : ((d.journalSorted walletId).map (·.id)).Nodup := by
    have hperm := (List.perm_insertionSort WalletTransaction.precedes (d.journalOf walletId)).map
      (·.id)
    exact hperm.nodup_iff.mpr ((List.filter_sublist.map _).nodup hids)
  rw [List.Nodup, List.pairwise_map] at hnodup
  refine (hsorted.and hnodup).imp fun {a b} h => ?_
  refine lt_of_le_of_ne (place_le_iff.mpr h.1) fun heq => h.2 ?_
  exact congrArg (fun k => (ofLex (OrderDual.ofDual k)).2) heq

/-! ### Requests as requests for pages -/

/-- The limit that a request is held to. -/
def clamp (limit : Option ℕ) : ℕ := min (max (limit.getD 20) 1) 100

theorem clamp_pos : 0 < clamp limit := by
  unfold clamp
  omega

/-- The answer, made from the rows that the database finds. -/
theorem page_eq_of_found {found : List WalletTransaction}
    (h : (Query.walletTransactionPage walletId (clamp limit + 1) (cursor.filter (· ≠ ""))).run d =
      found) :
    d.page walletId limit cursor =
      if clamp limit < found.length then
        ⟨found.take (clamp limit), (found.take (clamp limit)).getLast?.map (·.id)⟩
      else ⟨found, none⟩ := by
  have hshape (rows : List WalletTransaction) :
      ListWalletTransactionsResult.mk
          (if clamp limit < rows.length then rows.take (clamp limit) else rows)
          (if clamp limit < rows.length then
            (if clamp limit < rows.length then rows.take (clamp limit) else rows).getLast?.map (·.id)
          else none) =
        if clamp limit < rows.length then
          ⟨rows.take (clamp limit), (rows.take (clamp limit)).getLast?.map (·.id)⟩
        else ⟨rows, none⟩ := by
    by_cases hmore : clamp limit < rows.length
    · simp only [if_pos hmore]
    · simp only [if_neg hmore]
  rw [← h]
  exact hshape _

/-- The rows after the cursor row, as the database finds them. -/
theorem drop_cursor {rows : List WalletTransaction} (h : Ordered WalletTransaction.place rows)
    (hr : r ∈ rows) :
    (rows.filter fun x => r.precedes x).drop 1 =
      Paging.rest WalletTransaction.place (some r.place) rows := by
  induction rows with
  | nil => cases hr
  | cons x rows ih =>
      obtain ⟨hx, hrows⟩ := List.pairwise_cons.mp h
      rcases List.mem_cons.mp hr with rfl | hmem
      · have hall : rows.filter (fun y => r.precedes y) = rows := by
          refine List.filter_eq_self.mpr fun y hy => decide_eq_true ?_
          exact place_le_iff.mp (hx y hy).le
        have hall' : rows.filter (fun y => Paging.After (some r.place) y.place) = rows := by
          refine List.filter_eq_self.mpr fun y hy => decide_eq_true ?_
          exact hx y hy
        have hself : r.precedes r := place_le_iff.mp le_rfl
        have hself' : ¬Paging.After (some r.place) r.place := lt_irrefl _
        simp [Paging.rest, hself, hself', hall, hall']
      · have hnot : ¬r.precedes x := fun hle => absurd (place_le_iff.mpr hle) (hx r hmem).not_ge
        have hnot' : ¬Paging.After (some r.place) x.place := lt_asymm (hx r hmem)
        have hrest := ih hrows hmem
        simp only [Paging.rest] at hrest
        simp [Paging.rest, hnot, hnot', hrest]

/-- The id that stands for a place. -/
def idOf (k : (ℕ ×ₗ String)ᵒᵈ) : String := (ofLex (OrderDual.ofDual k)).2

@[simp] theorem idOf_place : idOf r.place = r.id := rfl

/-- A page of the journal is a page of its rows. -/
theorem page_of_rest {c : Option (ℕ ×ₗ String)ᵒᵈ}
    (h : (Query.walletTransactionPage walletId (clamp limit + 1) (cursor.filter (· ≠ ""))).run d =
      (Paging.rest WalletTransaction.place c (d.journalSorted walletId)).take (clamp limit + 1)) :
    d.page walletId limit cursor =
      ⟨(Paging.page WalletTransaction.place (clamp limit) c (d.journalSorted walletId)).items,
        (Paging.page WalletTransaction.place (clamp limit) c
          (d.journalSorted walletId)).next.map idOf⟩ := by
  rw [page_eq_of_found h, Paging.page]
  split
  · simp only [Option.map_map]
    rfl
  · rfl

theorem page_first : d.page walletId limit none =
    ⟨(Paging.page WalletTransaction.place (clamp limit) none (d.journalSorted walletId)).items,
      (Paging.page WalletTransaction.place (clamp limit) none
        (d.journalSorted walletId)).next.map idOf⟩ := by
  refine page_of_rest ?_
  have hall : Paging.rest WalletTransaction.place none (d.journalSorted walletId) =
      d.journalSorted walletId :=
    List.filter_eq_self.mpr fun _ _ => decide_eq_true trivial
  rw [hall]
  rfl

theorem page_after (hids : (d.walletTransactions.map (·.id)).Nodup)
    (hr : r ∈ d.journalSorted walletId) (hid : r.id ≠ "") :
    d.page walletId limit (some r.id) =
      ⟨(Paging.page WalletTransaction.place (clamp limit) (some r.place)
          (d.journalSorted walletId)).items,
        (Paging.page WalletTransaction.place (clamp limit) (some r.place)
          (d.journalSorted walletId)).next.map idOf⟩ := by
  have hfind : d.walletTransactions.find? (·.id = r.id) = some r := by
    obtain ⟨hmem, -⟩ := mem_journalSorted.mp hr
    cases hx : d.walletTransactions.find? (·.id = r.id) with
    | none => exact absurd (decide_eq_true rfl) (List.find?_eq_none.mp hx r hmem)
    | some x =>
        have hxp := List.find?_some hx
        have hxid : x.id = r.id := of_decide_eq_true hxp
        rw [List.inj_on_of_nodup_map hids (List.mem_of_find?_eq_some hx) hmem hxid]
  have hfilter : (some r.id).filter (· ≠ "") = some r.id := by simp [Option.filter, hid]
  refine page_of_rest ?_
  rw [← drop_cursor (ordered_journalSorted hids) hr, hfilter]
  simp only [Query.run, hfind]
  rfl

/-! ### All requests -/

/-- The same requests, seen as requests for pages in the order of the journal. -/
def cursorAt (walletId : String) (db : ℕ → Db) (limits : ℕ → Option ℕ) :
    ℕ → Option (Option (ℕ ×ₗ String)ᵒᵈ) :=
  Paging.cursor WalletTransaction.place (fun n => clamp (limits n))
    fun n => (db n).journalSorted walletId

/-- Rows are only added. -/
def Inserts (db : ℕ → Db) : Prop :=
  ∀ n, ∃ new, (db (n + 1)).walletTransactions = (db n).walletTransactions ++ new

theorem journalSorted_grows (hinserts : Inserts db) (n : ℕ) :
    ∀ r ∈ (db n).journalSorted walletId, r ∈ (db (n + 1)).journalSorted walletId := by
  intro r hr
  obtain ⟨new, hnew⟩ := hinserts n
  obtain ⟨hmem, hwallet⟩ := mem_journalSorted.mp hr
  refine mem_journalSorted.mpr ⟨?_, hwallet⟩
  rw [hnew]
  exact List.mem_append_left _ hmem

/-- From request `m` on no row of the wallet is added that the client would still come
to: a new row does not lie behind the row of the cursor. -/
def NothingAhead (walletId : String) (db : ℕ → Db) (limits : ℕ → Option ℕ) (m : ℕ) : Prop :=
  ∀ n ≥ m, ∀ c ∈ (db (n + 1)).walletTransactions,
    request walletId db limits (n + 1) = some (some c.id) →
      ∀ r ∈ (db (n + 1)).walletTransactions, r.walletId = walletId →
        r ∉ (db n).walletTransactions → ¬c.newer r

section Requests

variable (hids : ∀ n, ((db n).walletTransactions.map (·.id)).Nodup)
  (hcuid : ∀ n, ∀ r ∈ (db n).walletTransactions, r.id ≠ "") (hinserts : Inserts db)

include hids hinserts

/-- A cursor is the place of a row that is there. -/
theorem exists_of_cursorAt {k : (ℕ ×ₗ String)ᵒᵈ}
    (h : cursorAt walletId db limits n = some (some k)) :
    ∃ r ∈ (db n).journalSorted walletId, r.place = k := by
  cases n with
  | zero => cases h
  | succ n =>
      obtain ⟨c, hc, hnext⟩ := Option.bind_eq_some_iff.mp h
      obtain ⟨k', hk', heq⟩ := Option.map_eq_some_iff.mp hnext
      obtain ⟨⟨r, hr, hplace, -⟩, -⟩ := Paging.page_next (ordered_journalSorted (hids n)) hk'
      refine ⟨r, journalSorted_grows hinserts n r hr, ?_⟩
      rw [hplace]
      exact Option.some.inj heq

include hcuid

/-- What the client is answered. -/
theorem page_of_cursorAt {c : Option (ℕ ×ₗ String)ᵒᵈ}
    (h : cursorAt walletId db limits n = some c) :
    (db n).page walletId (limits n) (c.map idOf) =
      ⟨(Paging.page WalletTransaction.place (clamp (limits n)) c
          ((db n).journalSorted walletId)).items,
        (Paging.page WalletTransaction.place (clamp (limits n)) c
          ((db n).journalSorted walletId)).next.map idOf⟩ := by
  cases c with
  | none => exact page_first
  | some k =>
      obtain ⟨r, hr, rfl⟩ := exists_of_cursorAt hids hinserts h
      exact page_after (hids n) hr (hcuid n r (mem_journalSorted.mp hr).1)

theorem request_eq (n : ℕ) :
    request walletId db limits n = (cursorAt walletId db limits n).map (·.map idOf) := by
  induction n with
  | zero => rfl
  | succ n ih =>
      show (request walletId db limits n).bind _ =
        ((cursorAt walletId db limits n).bind _).map _
      rw [ih]
      cases hc : cursorAt walletId db limits n with
      | none => rfl
      | some c =>
          show (((db n).page walletId (limits n) (c.map idOf)).nextCursor.map some) = _
          rw [page_of_cursorAt hids hcuid hinserts hc]
          simp only [Option.bind_some, Option.map_map]
          rfl

theorem rowsRead_eq (n : ℕ) :
    rowsRead walletId db limits n =
      Paging.read WalletTransaction.place (fun n => clamp (limits n))
        (fun n => (db n).journalSorted walletId) n := by
  refine List.flatMap_congr fun m _ => ?_
  rw [request_eq hids hcuid hinserts m, Paging.pageAt]
  cases hc : cursorAt walletId db limits m with
  | none =>
      have hc' : Paging.cursor WalletTransaction.place (fun n => clamp (limits n))
        (fun n => (db n).journalSorted walletId) m = none := hc
      rw [hc']
      rfl
  | some c =>
      have hc' : Paging.cursor WalletTransaction.place (fun n => clamp (limits n))
        (fun n => (db n).journalSorted walletId) m = some c := hc
      rw [hc']
      show ((db m).page walletId (limits m) (c.map idOf)).items = _
      rw [page_of_cursorAt hids hcuid hinserts hc]

theorem quietFrom_of_nothingAhead {m : ℕ} (h : NothingAhead walletId db limits m) :
    QuietFrom WalletTransaction.place (fun n => clamp (limits n))
      (fun n => (db n).journalSorted walletId) m := by
  intro n hmn k hk r hr hnew hlt
  obtain ⟨c, hc, rfl⟩ := exists_of_cursorAt hids hinserts hk
  have hrequest : request walletId db limits (n + 1) = some (some c.id) := by
    rw [request_eq hids hcuid hinserts, show cursorAt walletId db limits (n + 1) = _ from hk]
    rfl
  obtain ⟨hmem, hwallet⟩ := mem_journalSorted.mp hr
  refine h n hmn c (mem_journalSorted.mp hc).1 hrequest r hmem hwallet (fun hold => ?_)
    (place_lt_iff.mp hlt)
  exact hnew (mem_journalSorted.mpr ⟨hold, hwallet⟩)

/-- A client who follows `nextCursor` reads rows of the wallet only, newest first and
none of them twice, whatever is stored in between. Once `nextCursor` is `null`, every
row that was there at the first request has been read. That moment comes if from some
request on no rows of the wallet are stored behind the cursor; and if none are from the
first request on, the pages make up the journal as it was then. -/
theorem journal_paging :
    (∀ n, (∀ r ∈ rowsRead walletId db limits n, r.walletId = walletId) ∧
      (rowsRead walletId db limits n).Pairwise WalletTransaction.newer) ∧
    (∀ n, request walletId db limits n = none →
      ∀ r ∈ (db 0).journalOf walletId, r ∈ rowsRead walletId db limits n) ∧
    ((∃ m, NothingAhead walletId db limits m) → ∃ n, request walletId db limits n = none) ∧
    (NothingAhead walletId db limits 0 →
      ∃ n, request walletId db limits n = none ∧
        rowsRead walletId db limits n = (db 0).journalSorted walletId) := by
  have hlimit : ∀ n, 0 < clamp (limits n) := fun _ => clamp_pos
  have hordered : ∀ n, Ordered WalletTransaction.place ((db n).journalSorted walletId) :=
    fun n => ordered_journalSorted (hids n)
  have hgrows : ∀ n, ∀ r ∈ (db n).journalSorted walletId, r ∈ (db (n + 1)).journalSorted walletId :=
    journalSorted_grows hinserts
  have hprogress := Paging.progress hlimit hordered hgrows
  have hends {m : ℕ} (h : NothingAhead walletId db limits m) :
      ∃ n, cursorAt walletId db limits n = none :=
    Paging.ends hordered (quietFrom_of_nothingAhead hids hcuid hinserts h)
  have hnone : ∀ n, cursorAt walletId db limits n = none → request walletId db limits n = none := by
    intro n h
    rw [request_eq hids hcuid hinserts, h]
    rfl
  refine ⟨fun n => ⟨fun r hr => ?_, ?_⟩, fun n h r hr => ?_, fun ⟨m, h⟩ => ?_, fun h => ?_⟩
  · rw [rowsRead_eq hids hcuid hinserts] at hr
    obtain ⟨m, -, hmem⟩ := (hprogress n).source r hr
    exact (mem_journalSorted.mp hmem).2
  · rw [rowsRead_eq hids hcuid hinserts]
    exact (hprogress n).ordered.imp place_lt_iff.mp
  · rw [rowsRead_eq hids hcuid hinserts]
    rw [request_eq hids hcuid hinserts] at h
    refine (hprogress n).ended (Option.map_eq_none_iff.mp h) r ?_
    exact (List.mem_insertionSort _).mpr hr
  · obtain ⟨n, hn⟩ := hends h
    exact ⟨n, hnone n hn⟩
  · obtain ⟨n, hn⟩ := hends h
    refine ⟨n, hnone n hn, ?_⟩
    rw [rowsRead_eq hids hcuid hinserts]
    exact Paging.read_eq hlimit hordered hgrows (quietFrom_of_nothingAhead hids hcuid hinserts h) hn

end Requests

/-! ### Two clients -/

/-- Rows of one moment whose ids descend. -/
def entry (n : ℕ) : WalletTransaction where
  id := String.ofList (List.replicate n 'a' ++ ['b'])
  walletId := "w"
  type := .credit
  purpose := .flutterwaveFunding
  status := .pending
  amount := 1
  idempotencyKey := String.ofList (List.replicate n 'a')
  reference := none
  counterpartWalletId := none
  transferId := none
  withdrawalId := none
  reversesTransactionId := none
  createdAt := 0

/-- The first of these rows. -/
def entries (n : ℕ) : Db := { Db.empty with walletTransactions := (List.range n).map entry }

theorem strictMono_entry : StrictMono fun n => (entry n).place := by
  refine strictMono_nat_of_lt_succ fun n => place_lt_iff.mpr (.inr ⟨rfl, ?_⟩)
  rw [String.lt_iff_toList_lt]
  simp only [entry, String.toList_ofList]
  induction n with
  | zero => decide
  | succ n ih => exact List.cons_lt_cons_self.mpr ih

theorem ids_entries (n : ℕ) : ((entries n).walletTransactions.map (·.id)).Nodup := by
  have hinjective : Function.Injective fun n => (entry n).id := by
    intro a b h
    refine strictMono_entry.injective (?_ : (entry a).place = (entry b).place)
    exact congrArg (fun id => OrderDual.toDual (toLex (0, id))) h
  show (((List.range n).map entry).map _).Nodup
  rw [List.map_map]
  exact List.nodup_range.map hinjective

theorem id_entry_ne (n : ℕ) : (entry n).id ≠ "" := by
  intro h
  have hlist : (entry n).id.toList = "".toList := by rw [h]
  simp [entry] at hlist

theorem cuid_entries (n : ℕ) : ∀ r ∈ (entries n).walletTransactions, r.id ≠ "" := by
  intro r hr
  obtain ⟨m, -, rfl⟩ := List.mem_map.mp hr
  exact id_entry_ne m

theorem inserts_entries : Inserts fun n => entries (n + 2) := by
  intro n
  refine ⟨[entry (n + 2)], ?_⟩
  show (List.range (n + 2 + 1)).map entry = (List.range (n + 2)).map entry ++ [entry (n + 2)]
  rw [List.range_succ, List.map_append]
  rfl

theorem journalSorted_entries (n : ℕ) :
    (entries n).journalSorted "w" = (List.range n).map entry := by
  have hall : (entries n).journalOf "w" = (List.range n).map entry := by
    refine List.filter_eq_self.mpr fun r hr => ?_
    obtain ⟨m, -, rfl⟩ := List.mem_map.mp hr
    rfl
  rw [Db.journalSorted, hall]
  exact ((Paging.ordered_map_range strictMono_entry n).imp fun h =>
    place_le_iff.mp h.le).insertionSort_eq

/-- A client who asks for one row at a time, while a row is added at the end of the
journal before each request, is given a cursor each time. -/
theorem paging_without_end :
    Inserts (fun n => entries (n + 2)) ∧
    (∀ n, ((entries (n + 2)).walletTransactions.map (·.id)).Nodup) ∧
    (∀ n, ∀ r ∈ (entries (n + 2)).walletTransactions, r.id ≠ "") ∧
    ∀ n, request "w" (fun n => entries (n + 2)) (fun _ => some 1) n ≠ none := by
  refine ⟨inserts_entries, fun n => ids_entries _, fun n => cuid_entries _, fun n h => ?_⟩
  rw [request_eq (fun n => ids_entries _) (fun n => cuid_entries _) inserts_entries] at h
  have hclamp : (fun _ : ℕ => clamp (some 1)) = fun _ => 1 := rfl
  have htable : (fun n => (entries (n + 2)).journalSorted "w") =
      fun n => (List.range (n + 2)).map entry := funext fun n => journalSorted_entries _
  rw [cursorAt, hclamp, htable, Paging.cursor_growing strictMono_entry n] at h
  cases h

/-- Three rows are there at the first request, and a row of the same moment that sorts
before all of them is added before the second one. -/
def growing : ℕ → Db
  | 0 => { Db.empty with walletTransactions := [entry 1, entry 2, entry 3] }
  | _ => { Db.empty with walletTransactions := [entry 1, entry 2, entry 3, entry 0] }

theorem ids_growing : ((growing 0).walletTransactions.map (·.id)).Nodup ∧
    ((growing 1).walletTransactions.map (·.id)).Nodup := by decide

theorem exists_of_mem_growing (hr : r ∈ (growing n).walletTransactions) : ∃ m, r = entry m := by
  cases n with
  | zero =>
      simp only [growing, List.mem_cons, List.not_mem_nil, or_false] at hr
      rcases hr with rfl | rfl | rfl <;> exact ⟨_, rfl⟩
  | succ n =>
      simp only [growing, List.mem_cons, List.not_mem_nil, or_false] at hr
      rcases hr with rfl | rfl | rfl | rfl <;> exact ⟨_, rfl⟩

/-- A client who reads them one at a time comes to an end, and reads these three. -/
theorem journal_paging_entries :
    ∃ n, request "w" growing (fun _ => some 1) n = none ∧
      rowsRead "w" growing (fun _ => some 1) n = [entry 1, entry 2, entry 3] := by
  have hids : ∀ n, ((growing n).walletTransactions.map (·.id)).Nodup := by
    rintro (_ | n)
    · exact ids_growing.1
    · exact ids_growing.2
  have hcuid : ∀ n, ∀ r ∈ (growing n).walletTransactions, r.id ≠ "" := by
    intro n r hr
    obtain ⟨m, rfl⟩ := exists_of_mem_growing hr
    exact id_entry_ne m
  have hinserts : Inserts growing := by
    rintro (_ | n)
    · exact ⟨[entry 0], rfl⟩
    · exact ⟨[], (List.append_nil _).symm⟩
  have hahead : NothingAhead "w" growing (fun _ => some 1) 0 := by
    rintro (_ | n) - c hc - r hr - hnew
    · have hr : r = entry 0 := by
        have hrows : r ∈ [entry 1, entry 2, entry 3] ++ [entry 0] := hr
        exact List.mem_singleton.mp ((List.mem_append.mp hrows).resolve_left hnew)
      have hle : ∀ c ∈ (growing 1).walletTransactions, ¬c.newer (entry 0) := by
        intro c hc hnewer
        have hplace := place_lt_iff.mpr hnewer
        obtain ⟨m, rfl⟩ := exists_of_mem_growing hc
        exact absurd (strictMono_entry.lt_iff_lt.mp hplace) (Nat.not_lt_zero m)
      rw [hr]
      exact hle c hc
    · exact absurd hr hnew
  obtain ⟨-, -, -, hread⟩ :=
    @journal_paging _ "w" (fun _ => some 1) hids hcuid hinserts
  obtain ⟨n, hnone, hrows⟩ := hread hahead
  exact ⟨n, hnone, hrows.trans (by decide)⟩

end WalletApi
