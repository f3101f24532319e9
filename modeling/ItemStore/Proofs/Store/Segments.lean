import ItemStore.Proofs.Parts
import ItemStore.Proofs.Store.Paging
/-!
# Scans in segments

A scan can be divided among clients, each of whom reads one segment of the table.  The view of a segment is what the
view of the whole scan has of it, in the same order (`Table.view_segment`), and whoever follows the end keys of a view
is served all of it, however long the pages (`Table.served_of_readsOut`).  So the segments make up the scan
(`segments_partition_a_scan`).
-/
namespace ItemStore

open Outcome (bind_eq_ok)
open Table (Before View)

/-- The same read from another start key and with another limit. -/
def Request.page (r : Request) (start : Option Item) (limit : Option Nat) : Request := { r with start, limit }

/-- The same scan, of one segment. -/
def Request.ofSegment (r : Request) (segment : Segment) : Request := { r with segment := some segment }

/-- The items that a client is served who starts after a key and follows the end keys until a page has none, each page
with a limit of its own.  Before each page anything may have happened to the store that has left the table `t`. -/
inductive Store.ReadsOut (r : Request) (t : Table) :
    (Nat → Option Nat) → Store → Option Item → List Item → Prop where
  | last {limits s start resp s'} (es : List Event) : (s.run es).tables.get? r.table = some t →
      (s.run es).send (r.page start (limits 0)) = (.ok resp, s') → resp.last = none →
      ReadsOut r t limits s start resp.items
  | more {limits s start resp s' key items} (es : List Event) : (s.run es).tables.get? r.table = some t →
      (s.run es).send (r.page start (limits 0)) = (.ok resp, s') → resp.last = some key →
      ReadsOut r t (fun n => limits (n + 1)) s' (some key) items → ReadsOut r t limits s start (resp.items ++ items)

namespace Table
variable {t : Table} {r : Request} {v : View} {limits : Nat → Option Nat} {s : Store} {start : Option Item}
    {items : List Item}

/-! ## Reading a view to its end -/

/-- What a page is, as it is answered. -/
theorem page_of_send {s' : Store} {limit : Option Nat} {resp : Response} (hr : r.operation.isPaged = true)
    (ht : s.tables.get? r.table = some t) (hsend : s.send (r.page start limit) = (.ok resp, s')) :
    ∃ v, t.view r = .ok v ∧ limit ≠ some 0 ∧ served r.expressions (v.evaluated limit start) = .ok resp.items ∧
      resp.last = v.endKey limit start := by
  have hpaged : (r.page start limit).operation.isPaged = true := hr
  obtain ⟨v, items, hv, hlimit, hserved, rfl⟩ := read_eq_ok.1 (Store.read_of_send hpaged ht hsend).1
  exact ⟨v, hv, hlimit, hserved, rfl⟩

/-- **Whoever follows the end keys is served all that the view has behind the start key.** -/
theorem served_of_readsOut (hr : r.operation.isPaged = true) (hd : t.Distinct)
    (h : Store.ReadsOut r t limits s start items) :
    ∃ v, t.view r = .ok v ∧ served r.expressions (v.rest start) = .ok items := by
  induction h with
  | last es ht hsend hlast =>
    obtain ⟨v, hv, hlimit, hserved, hend⟩ := page_of_send hr ht hsend
    rw [View.evaluated_of_endKey_none hlimit (hend ▸ hlast)] at hserved
    exact ⟨v, hv, hserved⟩
  | more es ht hsend hlast _ ih =>
    obtain ⟨v, hv, hlimit, hserved, hend⟩ := page_of_send hr ht hsend
    obtain ⟨w, hw, hrest⟩ := ih
    cases hw.symm.trans hv
    obtain ⟨_, _, _, _, _, hsorted⟩ := view_spec hv
    refine ⟨v, hv, ?_⟩
    rw [← View.evaluated_append_rest (hsorted hd) (hend ▸ hlast)]
    exact (served_append r.expressions).2 ⟨_, _, hserved, hrest, rfl⟩

/-- If all that is left of a view can be served, then its end can be reached with any limits. -/
theorem exists_readsOut (hr : r.operation.isPaged = true) (hd : t.Distinct) (hv : t.view r = .ok v)
    (hlimits : ∀ n, limits n ≠ some 0) (ht : s.tables.get? r.table = some t) (hnext : s.faults.next.1 = none)
    (hserved : served r.expressions (v.rest start) = .ok items) : ∃ shown, Store.ReadsOut r t limits s start shown := by
  obtain ⟨_, _, _, _, _, hsorted⟩ := view_spec hv
  -- By what is left to read.
  induction hn : (v.rest start).length using Nat.strongRecOn generalizing limits s start items with | ind n ih
  obtain ⟨shown, hsend, hless⟩ := exists_servedPage (r := r.page start (limits 0)) hr (hlimits 0) hv (hsorted hd) ht
    (Prod.ext hnext rfl) hserved
  cases hend : v.endKey (limits 0) start with
  | none => exact ⟨shown, .last [] ht hsend hend⟩
  | some key =>
    obtain ⟨hlength, more, hmore⟩ := hless key hend
    have hlater : ∀ n, limits (n + 1) ≠ some 0 := fun n => hlimits (n + 1)
    obtain ⟨rest, hrest⟩ := ih _ (hn ▸ hlength) hlater
      (s := { s with log := s.log ++ [r.page start (limits 0)] }) ht hnext hmore rfl
    exact ⟨shown ++ rest, .more [] ht hsend hend hrest⟩

/-! ## Views of segments -/

theorem inOrder_filter (key : KeySchema) {items : List Item} (h : items.Pairwise fun a b => t.sameKey a b = false)
    (p : Item → Bool) : t.inOrder key (items.filter p) = (t.inOrder key items).filter p := by
  have hperm : (t.inOrder key (items.filter p)).Perm ((t.inOrder key items).filter p) :=
    (t.inOrder_perm key _).trans ((t.inOrder_perm key items).filter p).symm
  exact eq_of_perm_of_before hperm (pairwise_inOrder t key (h.filter p)) ((pairwise_inOrder t key h).filter p)

theorem view_scan_eq_ok (hop : r.operation = .scan) : t.view r = .ok v ↔
    ∃ key, t.readSource r = .ok key ∧ (∀ segment, r.segment = some segment → segment.number < segment.total) ∧
      v = ⟨t.viewNames key, true,
        t.inOrder key (t.items.filter fun item => key.covers item && t.inSegment r.segment item)⟩ := by
  have hinside : (∀ segment, r.segment = some segment → segment.number < segment.total) ↔
      ¬(r.segment.any fun s => s.total ≤ s.number) = true := by
    simp [Option.any_eq_true]
  simp only [view, hop, bind_eq_ok, hinside]
  refine exists_congr fun key => and_congr_right fun _ => ?_
  split
  · simp [*]
  · simp [*, pure, Except.pure, eq_comm]

/-- **The view of a segment is what the whole view has of it.** -/
theorem view_segment (hop : r.operation = .scan) (hwhole : r.segment = none) (hd : t.Distinct) (hv : t.view r = .ok v)
    {segment : Segment} (hsegment : segment.number < segment.total) :
    t.view (r.ofSegment segment) = .ok { v with items := v.items.filter (t.inSegment (some segment)) } := by
  obtain ⟨key, hkey, -, rfl⟩ := (view_scan_eq_ok hop).1 hv
  have hscan : (r.ofSegment segment).operation = .scan := hop
  refine (view_scan_eq_ok hscan).2 ⟨key, hkey, ?_, ?_⟩
  · rintro _ ⟨⟩
    exact hsegment
  · have hcovered : (t.items.filter key.covers).Pairwise fun a b => t.sameKey a b = false := hd.filter _
    have hall : (fun item => key.covers item && t.inSegment r.segment item) = key.covers := by
      funext item
      rw [hwhole]
      exact Bool.and_true _
    have hpart : (t.items.filter fun item => key.covers item && t.inSegment (some segment) item) =
        (t.items.filter key.covers).filter (t.inSegment (some segment)) := by
      simp [List.filter_filter, Bool.and_comm]
    simp only [Request.ofSegment, hpart, hall]
    rw [inOrder_filter key hcovered]

theorem segmentOf_lt {total : Nat} (h : 0 < total) (v : Option Value) : segmentOf v total < total := Nat.mod_lt _ h

/-- An item falls into one segment and no other. -/
theorem existsUnique_inSegment (t : Table) {total : Nat} (h : 0 < total) (x : Item) :
    ∃! n, n < total ∧ t.inSegment (some ⟨n, total⟩) x = true := by
  refine ⟨_, ⟨segmentOf_lt h (x.get? t.key.partition), beq_self_eq_true _⟩, ?_⟩
  rintro n ⟨-, hn⟩
  exact (beq_iff_eq.1 hn).symm

/-- The segments share the items out between them. -/
theorem perm_segments (t : Table) {total : Nat} (h : 0 < total) (items : List Item) :
    ((List.range total).flatMap fun n => items.filter (t.inSegment (some ⟨n, total⟩))).Perm items := by
  have hkey : ∀ x ∈ items, segmentOf (x.get? t.key.partition) total ∈ List.range total := fun x _ =>
    List.mem_range.2 (segmentOf_lt h (x.get? t.key.partition))
  exact perm_flatMap_filter _ List.nodup_range hkey

/-! ## Parts of what is served -/

theorem exists_showPassing_filter {passes : Item → Except RequestFault Bool} {shown : Item → Except RequestFault Item}
    (p : Item → Bool) : ∀ {xs ys : List Item}, showPassing passes shown xs = .ok ys →
    ∃ zs, showPassing passes shown (xs.filter p) = .ok zs
  | [], _, _ => ⟨[], rfl⟩
  | x :: xs, ys, h => by
    rw [showPassing] at h
    obtain ⟨b, hb, h⟩ := bind_eq_ok.1 h
    by_cases hp : p x = true
    · rw [List.filter_cons_of_pos hp, showPassing, hb]
      cases b with
      | false => exact exists_showPassing_filter p h
      | true =>
        obtain ⟨y, hy, h⟩ := bind_eq_ok.1 h
        obtain ⟨rest, hrest, -⟩ := bind_eq_ok.1 h
        obtain ⟨zs, hzs⟩ := exists_showPassing_filter p hrest
        exact ⟨y :: zs, bind_eq_ok.2 ⟨true, rfl, bind_eq_ok.2 ⟨y, hy, bind_eq_ok.2 ⟨zs, hzs, rfl⟩⟩⟩⟩
    · rw [List.filter_cons_of_neg hp]
      cases b with
      | false => exact exists_showPassing_filter p h
      | true =>
        obtain ⟨y, hy, h⟩ := bind_eq_ok.1 h
        obtain ⟨rest, hrest, -⟩ := bind_eq_ok.1 h
        exact exists_showPassing_filter p hrest

/-- What can be served can be served in part. -/
theorem exists_served_filter {e : Expressions} {xs ys : List Item} (p : Item → Bool) (h : served e xs = .ok ys) :
    ∃ zs, served e (xs.filter p) = .ok zs := by
  obtain ⟨filter, hfilter, h⟩ := bind_eq_ok.1 h
  obtain ⟨zs, hzs⟩ := exists_showPassing_filter p h
  exact ⟨zs, bind_eq_ok.2 ⟨filter, hfilter, hzs⟩⟩

end Table

/-! ## All segments -/

/-- How the scans of all segments make up a scan: the items that it finds in the table, `found`, are what it serves, and
the segments serve them between them. -/
structure PartitionsScan (t : Table) (r : Request) (total : Nat) (found whole : List Item) (parts : Nat → List Item) :
    Prop where
  /-- Found is each item of the table, once, that is selected and admitted. -/
  mem_iff : ∀ x, x ∈ found ↔ x ∈ t.items ∧ t.Selects r x ∧ r.expressions.admits x = true
  nodup : found.Nodup
  /-- All of it is served, in this order, as the projection shows it. -/
  shown : found.mapM (Table.project r.expressions) = .ok whole
  /-- Each of it falls into one segment and no other. -/
  one : ∀ x ∈ found, ∃! n, n < total ∧ t.inSegment (some ⟨n, total⟩) x = true
  /-- Each segment is served what falls into it, in this order. -/
  part : ∀ n < total,
    (found.filter (t.inSegment (some ⟨n, total⟩))).mapM (Table.project r.expressions) = .ok (parts n)
  inOrder : ∀ n < total, (parts n).Sublist whole
  together : whole.Perm ((List.range total).flatMap parts)

theorem partitionsScan {t : Table} {r : Request} (hd : t.Distinct) {v : View} (hv : t.view r = .ok v) {total : Nat}
    (htotal : 0 < total) {whole : List Item} {parts : Nat → List Item}
    (hwhole : Table.served r.expressions v.items = .ok whole)
    (hparts : ∀ n < total, Table.served r.expressions (v.items.filter (t.inSegment (some ⟨n, total⟩))) =
      .ok (parts n)) :
    PartitionsScan t r total (v.items.filter r.expressions.admits) whole parts := by
  obtain ⟨_, _, _, _, hmem, hsorted⟩ := Table.view_spec hv
  have hshown := Table.served_eq_ok hwhole
  have hshownPart : ∀ n < total, ((v.items.filter r.expressions.admits).filter (t.inSegment (some ⟨n, total⟩))).mapM
      (Table.project r.expressions) = .ok (parts n) := by
    intro n hn
    rw [List.filter_comm]
    exact Table.served_eq_ok (hparts n hn)
  obtain ⟨shown, rfl, hmap⟩ := Outcome.exists_map_of_mapM hshown
  have hpart : ∀ n < total, parts n =
      ((v.items.filter r.expressions.admits).filter (t.inSegment (some ⟨n, total⟩))).map shown := fun n hn =>
    Except.ok.inj ((hshownPart n hn).symm.trans (hmap _ (List.filter_subset_self _)))
  refine ⟨fun x => ?_, (nodup_of_pairwise_before (hsorted hd)).filter _, hshown,
    fun x _ => t.existsUnique_inSegment htotal x, hshownPart, fun n hn => ?_, ?_⟩
  · rw [List.mem_filter, hmem, and_assoc]
  · rw [hpart n hn]
    exact (List.filter_sublist).map shown
  · rw [List.flatMap_congr fun n hn => hpart n (List.mem_range.1 hn), ← List.map_flatMap]
    exact ((t.perm_segments htotal _).map shown).symm

/-- **The scans of all segments make up the scan.**  A table comes of any events, and a scan of it, of the table or an
index, is followed to its end.  Then the scan of each segment can be followed to its end, whatever the limits of the
pages; and whenever all segments have been, with the table as it was, each item that the scan has found was found in one
segment, once, and the items of each segment in the order of the scan. -/
theorem segments_partition_a_scan {r : Request} (hop : r.operation = .scan) (hwhole : r.segment = none)
    (es : List Store.Event) {t : Table} (ht : (Store.run {} es).tables.get? r.table = some t) {total : Nat}
    (htotal : 0 < total) {limits : Nat → Option Nat} {s : Store} {whole : List Item}
    (hreads : Store.ReadsOut r t limits s none whole) :
    (∀ n < total, ∀ (limits : Nat → Option Nat) (s : Store), (∀ k, limits k ≠ some 0) →
      s.tables.get? r.table = some t → s.faults.next.1 = none →
      ∃ part, Store.ReadsOut (r.ofSegment ⟨n, total⟩) t limits s none part) ∧
    ∀ parts : Nat → List Item,
      (∀ n < total, ∃ limits s, Store.ReadsOut (r.ofSegment ⟨n, total⟩) t limits s none (parts n)) →
      ∃ found, PartitionsScan t r total found whole parts := by
  have hd : t.Distinct := Store.run_distinct es Store.distinct_empty ht
  have hpaged : r.operation.isPaged = true := by rw [hop]; rfl
  obtain ⟨v, hv, hserved⟩ := Table.served_of_readsOut hpaged hd hreads
  have hview : ∀ n < total, t.view (r.ofSegment ⟨n, total⟩) =
      .ok { v with items := v.items.filter (t.inSegment (some ⟨n, total⟩)) } :=
    fun n hn => Table.view_segment hop hwhole hd hv hn
  constructor
  · intro n hn limits s hlimits hs hnext
    obtain ⟨part, hpart⟩ := Table.exists_served_filter (t.inSegment (some ⟨n, total⟩)) hserved
    exact Table.exists_readsOut hpaged hd (hview n hn) hlimits hs hnext hpart
  · intro parts hparts
    refine ⟨_, partitionsScan hd hv htotal hserved fun n hn => ?_⟩
    obtain ⟨limits, s, hreads⟩ := hparts n hn
    obtain ⟨w, hw, hpart⟩ := Table.served_of_readsOut (r := r.ofSegment ⟨n, total⟩) hpaged hd hreads
    cases hw.symm.trans (hview n hn)
    exact hpart

/-- Two orders in two segments, one to a page. -/
theorem segments_partition_a_scan_of_two_orders :
    let shape : Descriptor := ⟨"Order", "orders", [⟨"id", .string, false, false, .partition⟩], ⟨"id", none⟩, []⟩
    let orders : List Item := [[("id", .string "b")], [("id", .string "a")]]
    let es : List Store.Event := .create shape :: orders.map (.insert "orders")
    let r : Request :=
      { table := "orders", operation := .scan, expressions := {}, index := none, consistentRead := false
        limit := none, start := none, forward := true, segment := none, returnValues := .nothing }
    ∃ (t : Table) (parts : Nat → List Item), (Store.run {} es).tables.get? r.table = some t ∧
      (∀ n < 2, Store.ReadsOut (r.ofSegment ⟨n, 2⟩) t (fun _ => some 1) (Store.run {} es) none (parts n)) ∧
      orders.Perm (parts 0 ++ parts 1) := by
  intro shape orders es r
  let t : Table := { key := ⟨"id", none⟩, items := orders }
  have ht : (Store.run {} es).tables.get? r.table = some t := rfl
  have hd : t.Distinct := Store.run_distinct es Store.distinct_empty ht
  have hview : t.view r = .ok ⟨["id"], true, t.inOrder t.key orders⟩ := rfl
  have hserved : Table.served r.expressions (t.inOrder t.key orders) =
      .ok (((t.inOrder t.key orders).filter fun _ => true).map id) :=
        Table.served_of_total (fun _ => rfl) (fun _ => rfl) _
  rw [List.filter_true, List.map_id] at hserved
  have hlimits : ∀ _ : Nat, some 1 ≠ some 0 := fun _ => by decide
  have htotal : 0 < 2 := by decide
  obtain ⟨whole, hreads⟩ : ∃ whole, Store.ReadsOut r t (fun _ => some 1) (Store.run {} es) none whole :=
    Table.exists_readsOut rfl hd hview hlimits ht rfl hserved
  obtain ⟨v, hv, hwhole⟩ := Table.served_of_readsOut rfl hd hreads
  cases hv.symm.trans hview
  cases hwhole.symm.trans hserved
  obtain ⟨hexists, hpartition⟩ := segments_partition_a_scan rfl rfl es ht htotal hreads
  choose! parts hparts using fun n hn => hexists n hn (fun _ => some 1) (Store.run {} es) hlimits ht rfl
  obtain ⟨found, hfound⟩ := hpartition parts fun n hn => ⟨_, _, hparts n hn⟩
  refine ⟨t, parts, ht, hparts, (t.inOrder_perm t.key orders).symm.trans ?_⟩
  simpa [List.range_succ] using hfound.together

end ItemStore
