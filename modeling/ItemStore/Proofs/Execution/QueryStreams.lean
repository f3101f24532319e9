import ItemStore.Proofs.Execution.Following
import ItemStore.Proofs.Request.Queries
/-!
# The streams of queries

A query that can be built asks for items (`Query.Asks`), and the stream of its plan serves just those, in order and each
as the query shows it, whatever the sizes of the pages (`queries_serve_what_they_ask`).  Three things come together:
what a store makes of the texts of a plan, which items stand in a view, and what a stream that is followed serves.
-/
namespace ItemStore

open Outcome (bind_eq_ok)

/-! ## What a query reads of a table of its shape -/

/-- A table of the shape has the key that a query reads, and may be read as consistently as the query wants. -/
theorem Table.OfShape.readSource_of_source {t : Table} {q : PagedRead} (h : t.OfShape q.shape) {key : KeySchema}
    (hsource : q.source = .ok key) {r : Request} (hindex : r.index = q.index)
    (hconsistent : r.consistentRead = (q.consistency == .strong)) : t.readSource r = .ok key := by
  unfold PagedRead.source at hsource
  obtain ⟨_, -, hsource⟩ := bind_eq_ok.1 hsource
  obtain ⟨key', hkey, hsource⟩ := bind_eq_ok.1 hsource
  obtain ⟨_, hcheck, hsource⟩ := bind_eq_ok.1 hsource
  cases hsource
  have hfound : ∃ isGlobal, t.source q.index = .ok (key, isGlobal) ∧
      (q.consistency = .strong → isGlobal = false) := by
    cases hname : q.index with
    | none =>
      rw [hname] at hkey
      cases hkey
      rw [← h.key]
      exact ⟨false, rfl, fun _ => rfl⟩
    | some name =>
      rw [hname] at hkey hcheck
      cases hi : q.shape.index? name with
      | none =>
        rw [Descriptor.keySchema, hi] at hkey
        cases hkey
      | some i =>
        rw [Descriptor.keySchema, hi] at hkey
        cases hkey
        refine ⟨i.kind == .global, ?_, fun hstrong => ?_⟩
        · rw [Table.source, h.indexes hi]
        · rw [hstrong, Descriptor.checkConsistency, hi] at hcheck
          cases hglobal : i.kind == .global with
          | false => rfl
          | true =>
            rw [Option.any_some, hglobal] at hcheck
            cases hcheck
  obtain ⟨isGlobal, hfound, hlocal⟩ := hfound
  rw [Table.readSource, hindex, hconsistent, hfound]
  show (if (q.consistency == .strong && isGlobal) = true then _ else _) = _
  refine if_neg fun hrefused => ?_
  obtain ⟨hstrong, hglobal⟩ := Bool.and_eq_true_iff.1 hrefused
  rw [hlocal (beq_iff_eq.1 hstrong)] at hglobal
  cases hglobal

/-- What is collected of the key, with the filters, is what the query asks for. -/
theorem Query.asks_iff {q : Query} {key : KeySchema} {partition : Condition} {sort : Option Condition}
    (h : q.keyClauses key = .ok (partition, sort)) {item : Item} : q.Asks key item ↔ key.covers item = true ∧
    (partition.holds item && sort.all fun c => c.holds item) = true ∧ Condition.allHold item q.filters = true := by
  rw [keyClauses_holds h, Condition.allHold, List.all_eq_true]
  constructor
  · rintro ⟨hcovers, hpartition, hsort, hconditions, hfilters⟩
    exact ⟨hcovers, ⟨hpartition, hsort, hconditions⟩, hfilters⟩
  · rintro ⟨hcovers, ⟨hpartition, hsort, hconditions⟩, hfilters⟩
    exact ⟨hcovers, hpartition, hsort, hconditions, hfilters⟩

theorem Executor.limit_paged_ne (x : Executor) {p : Plan} (h : p.limit ≠ some 0) : (x.paged p).limit ≠ some 0 := by
  show p.limit.or x.pageSize ≠ some 0
  cases hlimit : p.limit with
  | none => exact (Settings.sizes_of_valid x.valid).2.2.2
  | some limit =>
    rw [hlimit] at h
    exact h

/-- **What the plan of a query reads of a table of its shape**: a view in the order of the key and then of the table's,
of which the filters admit what the query asks for. -/
theorem Query.reads_of_build {q : Query} {plan : Plan} (h : q.build = .ok plan) {t : Table} (ht : t.OfShape q.shape)
    (hd : t.Distinct) (x : Executor) : ∃ key v, q.source = .ok key ∧
    (∃ value, ∀ item, q.Asks key item → (Condition.compare key.partition .eq value).holds item = true) ∧
    (x.paged plan).Reads t v (fun item => Condition.allHold item q.filters) q.shown ∧
    v.items.length ≤ t.items.length ∧ v.items.Pairwise (Table.Before (key.names ++ q.shape.key.names) q.forward) ∧
    ∀ item, item ∈ v.items.filter (fun item => Condition.allHold item q.filters) ↔ item ∈ t.items ∧
      q.Asks key item := by
  obtain ⟨key, partition, sort, hsource, hclauses, htexts, hlimit, operation, expressions, hplan⟩ := says_of_build h
  obtain ⟨text, hoperation, hmeets⟩ := htexts.meets
  obtain ⟨⟨value, rfl⟩, -⟩ := keyClauses_forms hclauses
  have hindex : (x.paged plan).request.index = q.index := by rw [hplan]; rfl
  have hconsistent : (x.paged plan).request.consistentRead = (q.consistency == .strong) := by rw [hplan]; rfl
  have hkey := ht.readSource_of_source hsource hindex hconsistent
  obtain ⟨v, hv⟩ := Table.exists_view hoperation hkey hmeets
  obtain ⟨key', hkey', hnames, hforward, hmem, hsorted⟩ := Table.view_spec hv
  rw [hkey] at hkey'
  cases hkey'
  have hdirection : v.forward = q.forward := by
    rw [hforward, hplan, Request.readsForward]
    show (q.forward || operation.isScan) = q.forward
    rw [hplan] at hoperation
    rw [show operation = .query text from hoperation]
    exact Bool.or_false _
  refine ⟨key, v, hsource, ⟨value, fun item hasks => ?_⟩, ?_, Table.length_view_le hv, ?_, fun item => ?_⟩
  · exact (Bool.and_eq_true_iff.1 ((asks_iff hclauses).1 hasks).2.1).1
  · refine ⟨?_, hv, hsorted hd, x.limit_paged_ne ?_, Table.served_of_total htexts.admits htexts.shown⟩
    · show plan.operation.isPaged = true
      rw [hoperation]
      rfl
    · rw [hplan]
      exact hlimit
  · rw [← hdirection, ← ht.key]
    have hview := hsorted hd
    rw [hnames] at hview
    exact hview.imp Table.before_viewNames.1
  · rw [List.mem_filter, hmem, Table.selects_iff hoperation hkey (hmeets item), asks_iff hclauses, and_assoc, and_assoc]

/-! ## The stream of a query -/

namespace Store

theorem items_of_get? {s : Store} {name : String} {t : Table} (h : s.tables.get? name = some t) :
    s.items name = t.items := by
  rw [items, h]

/-- Whatever happens after the table of a shape has been created, it is a table of that shape. -/
theorem exists_ofShape {d : Descriptor} {before : List Event} (hnew : (run {} before).tables.get? d.table = none)
    (after : List Event) : ∃ t, (run {} (before ++ .create d :: after)).tables.get? d.table = some t ∧ t.OfShape d ∧
    t.Distinct := by
  obtain ⟨t, ht, hshape⟩ := exists_of_create hnew
  obtain ⟨t', ht', hc⟩ := run_continues after _ ht
  have hrun : run {} (before ++ .create d :: after) = ((run {} before).create d).run after := List.foldl_append
  refine ⟨t', hrun ▸ ht', hshape.continues hc, ?_⟩
  exact run_distinct (before ++ .create d :: after) distinct_empty (hrun ▸ ht')

end Store

/-- The plan of a query may be streamed as one of its shape, from the start cursor on. -/
theorem Query.stream_of_build {q : Query} {plan : Plan} (h : q.build = .ok plan) (x : Executor) :
    x.queryStream q.shape.name plan = .ok (.ofPlan (x.paged plan)) ∧ plan.table = q.shape.table ∧
      plan.cursor = q.start.cursor := by
  obtain ⟨_, _, _, -, -, htexts, -, operation, expressions, rfl⟩ := says_of_build h
  obtain ⟨text, hoperation, -⟩ := htexts.meets
  obtain rfl : operation = .query text := hoperation
  refine ⟨?_, rfl, rfl⟩
  exact bind_eq_ok.2 ⟨(), if_pos rfl, rfl⟩

/-- **The stream of a query serves what the query asks for.**  Whatever has happened to a store before and after the
table of a shape was created, and whatever the page size, a stream that is followed to its end serves the items of that
table which the query asks for, each once and as the query shows it, in the order of the key that is read and then of
the table's.  Faults that wait in the store may come up as errors between the items; nothing else does, and without them
all of it can be collected at once. -/
theorem streams_serve_what_queries_ask {q : Query} {plan : Plan} (hbuild : q.build = .ok plan)
    (hstart : q.start.cursor = none) {before : List Store.Event}
    (hnew : (Store.run {} before).tables.get? q.shape.table = none) (after : List Store.Event) (x : Executor) :
    let s := Store.run {} (before ++ .create q.shape :: after)
    ∃ (key : KeySchema) (stream : ItemStream) (asked : List Item), q.source = .ok key ∧
      x.queryStream q.shape.name plan = .ok stream ∧
      (∃ value, ∀ item, q.Asks key item → (Condition.compare key.partition .eq value).holds item = true) ∧
      (∀ item, item ∈ asked ↔ item ∈ s.items q.shape.table ∧ q.Asks key item) ∧
      asked.Pairwise (Table.Before (key.names ++ q.shape.key.names) q.forward) ∧
      ∀ {α : Type} (read : Item → Except Error α) (time pages : Nat), (s.items q.shape.table).length < pages →
        (∀ n, asked.length + s.faults.pending ≤ n → ∃ fetched : List (Except Error Item),
          (x.drain read pages n stream ⟨s, time⟩).1 = fetched.map (·.bind read) ∧
          fetched.filterMap Except.toOption = asked.map q.shown ∧ fetched.length ≤ asked.length + s.faults.pending) ∧
        (s.faults.pending = 0 →
          (x.collect read pages stream ⟨s, time⟩).1 = some ((asked.map q.shown).mapM read)) := by
  intro s
  obtain ⟨t, ht, hshape, hd⟩ := Store.exists_ofShape hnew after
  obtain ⟨key, v, hsource, hpartition, hreads, hlength, hsorted, hmem⟩ := Query.reads_of_build hbuild hshape hd x
  obtain ⟨hstream, htable, hcursor⟩ := Query.stream_of_build hbuild x
  have hbehind : (ItemStream.ofPlan (x.paged plan)).behind v = v.items := by
    show v.rest (plan.cursor.map (·.key)) = v.items
    rw [hcursor, hstart]
    rfl
  rw [Store.items_of_get? ht]
  have hleft : (ItemStream.ofPlan (x.paged plan)).left v (fun item => Condition.allHold item q.filters) q.shown =
      (v.items.filter fun item => Condition.allHold item q.filters).map q.shown := by
    rw [← hbehind]
    rfl
  refine ⟨key, _, _, hsource, hstream, hpartition, hmem, hsorted.filter _, fun read time pages hpages => ?_⟩
  have hstands : Executor.Stands (x.paged plan) t v pages (.ofPlan (x.paged plan)) ⟨s, time⟩ := by
    refine ⟨rfl, ?_, .inr ?_⟩
    · show s.tables.get? plan.table = some t
      rw [htable]
      exact ht
    · rw [hbehind]
      omega
  have hdrain := fun n => x.drain_of_stands read hreads n hstands
  have hcollect := x.collect_of_stands read hreads hstands
  rw [hleft] at hcollect
  simp only [hleft, List.length_map] at hdrain
  exact ⟨hdrain, hcollect⟩

namespace Samples

/-- Orders with an index of their days, by total. -/
def dayOrders : Descriptor :=
  { name := "Order", table := "orders", key := ⟨"id", none⟩,
    indexes := [⟨"byDay", .global, ⟨"day", some "total"⟩⟩]
    attributes := [⟨"id", .string, false, false, .partition⟩, ⟨"day", .string, true, false, .none⟩,
      ⟨"total", .number, true, false, .none⟩, ⟨"note", .string, true, false, .none⟩] }

/-- The ids of the orders of a Monday that come to more than two and have a note, the greatest first. -/
def notedOrders : Query :=
  { shape := dayOrders, index := some "byDay", filters := [.present "note"], projection := ["id"], forward := false
    keyConditions := [.and (.compare "day" .eq (.string "mon")) (.compare "total" .gt (.ofInt 2))] }

def mondayOrder (id : String) (total : Int) (note : List (String × Value)) : Item :=
  ("day", .string "mon") :: ("id", .string id) :: note ++ [("total", .ofInt total)]

/-- Two orders that are asked for, one without a note between them and one of no day; and a fault. -/
def mondayEvents : List Store.Event :=
  [.insert "orders" (mondayOrder "A" 3 [("note", .string "gift")]), .insert "orders" (mondayOrder "B" 10 []),
    .insert "orders" (mondayOrder "C" 20 [("note", .string "")]), .insert "orders" [("id", .string "D")],
      .throttleNext 1]

/-- An executor that fetches one item with each page and does not retry. -/
def oneByOne : Executor := ⟨{ retry := .noRetry, pageSize := some 1 }, rfl⟩

end Samples

open Samples in
/-- With one item to a page and a request that is throttled, and after an insert that has missed the table. -/
theorem streams_serve_what_queries_ask_of_orders :
    let before : List Store.Event := [.insert "orders" [("id", .string "E")]]
    let s := Store.run {} (before ++ .create dayOrders :: mondayEvents)
    ∃ plan, notedOrders.build = .ok plan ∧ notedOrders.start.cursor = none ∧
      (Store.run {} before).tables.get? "orders" = none ∧
      ∃ (stream : ItemStream) (asked : List Item), oneByOne.queryStream "Order" plan = .ok stream ∧
        mondayOrder "A" 3 [("note", .string "gift")] ∈ asked ∧ mondayOrder "B" 10 [] ∉ asked ∧
        asked.Pairwise (Table.Before ["day", "total", "id"] false) ∧
        ∃ fetched : List (Except Error Item),
          (oneByOne.drain .ok 5 (asked.length + 1) stream ⟨s, 0⟩).1 = fetched.map (·.bind .ok) ∧
          fetched.filterMap Except.toOption = asked.map notedOrders.shown ∧ fetched.length ≤ asked.length + 1 := by
  intro before s
  have hnew : (Store.run {} before).tables.get? "orders" = none := rfl
  have hitems : s.items "orders" = [mondayOrder "A" 3 [("note", .string "gift")], mondayOrder "B" 10 [],
    mondayOrder "C" 20 [("note", .string "")], [("id", .string "D")]] := rfl
  refine ⟨_, rfl, rfl, hnew, ?_⟩
  obtain ⟨key, stream, asked, hkey, hstream, -, hmem, hsorted, hserved⟩ :=
    streams_serve_what_queries_ask (q := notedOrders) rfl rfl hnew mondayEvents oneByOne
  cases hkey
  have hasked : notedOrders.Asks ⟨"day", some "total"⟩ (mondayOrder "A" 3 [("note", .string "gift")]) :=
    { covers := rfl
      partition := fun _ h => by cases h
      sort := fun _ h => by cases h
      keyConditions := List.forall_mem_singleton.2 rfl
      filters := List.forall_mem_singleton.2 rfl }
  refine ⟨stream, asked, hstream, (hmem _).2 ⟨?_, hasked⟩, fun hB => ?_, hsorted,
    (hserved .ok 0 5 ?_).1 _ (Nat.le_refl _)⟩
  · show _ ∈ s.items "orders"
    rw [hitems]
    exact List.mem_cons_self
  · have hnoted := ((hmem _).1 hB).2.filters _ List.mem_cons_self
    cases hnoted
  · show (s.items "orders").length < 5
    rw [hitems]
    decide

end ItemStore
