import ItemStore.Proofs.Store.Steps
import ItemStore.Proofs.Store.Views
/-!
# Reading page after page

A client that goes on from the key where each page has ended sees every item that stays in the table exactly once, in
the order of the view, whatever else happens to the store between the pages (`pages_serve_each_item_once`).

Two facts carry this: all that a page looks at comes after its start key and, if there is more, before all that comes
after its end key; and what the page has passed over comes after that key.
-/
namespace ItemStore

open Table (Before View)

/-- The same read from another start key. -/
def Request.startAt (r : Request) (start : Option Item) : Request := { r with start }

/-- The same read without a limit. -/
def Request.unlimited (r : Request) : Request := { r with limit := none }

/-- A page of a read: the key it was to start after, the table it was taken from, and the response. -/
structure Page where
  start : Option Item
  table : Table
  response : Response

/-- The items that the page has looked at. -/
def Page.evaluated (r : Request) (p : Page) : List Item :=
  match p.table.view r with
  | .ok v => v.evaluated r.limit p.start
  | .error _ => []

/-- The pages that a client is answered with who starts after a key and then follows the end keys, until a page has none
or the client stops.  Anything may have happened to the store before each page; so may requests that were refused. -/
inductive Store.Reads (r : Request) : Store → Option Item → List Page → Prop where
  | stop (s start) : Reads r s start []
  | last {s start t resp s'} (es : List Event) : (s.run es).tables.get? r.table = some t →
      (s.run es).send (r.startAt start) = (.ok resp, s') → resp.last = none → Reads r s start [⟨start, t, resp⟩]
  | more {s start t resp s' key ps} (es : List Event) : (s.run es).tables.get? r.table = some t →
      (s.run es).send (r.startAt start) = (.ok resp, s') → resp.last = some key → Reads r s' (some key) ps →
      Reads r s start (⟨start, t, resp⟩ :: ps)

/-- The client has come to a page without an end key. -/
def ReadToEnd (ps : List Page) : Prop := ∃ p ∈ ps, p.response.last = none

theorem ReadToEnd.tail {p : Page} {ps : List Page} {key : Item} (h : ReadToEnd (p :: ps))
    (hlast : p.response.last = some key) : ReadToEnd ps := by
  obtain ⟨q, hq, hnone⟩ := h
  rcases List.mem_cons.1 hq with rfl | hq
  · rw [hlast] at hnone
    cases hnone
  · exact ⟨q, hq, hnone⟩

/-! ## One page -/

namespace Store

/-- A read answers with what it finds in its table, unless a fault strikes, and leaves the store but for the log. -/
theorem send_read {s : Store} {r : Request} {t : Table} (hr : r.operation.isPaged = true)
    (ht : s.tables.get? r.table = some t) {faults : Faults} (hnext : s.faults.next = (none, faults)) :
    s.send r = (answer (t.read r), { s with log := s.log ++ [r] }) := by
  rw [send_of_no_fault hnext]
  cases hop : r.operation with
  | query condition =>
    rw [← Table.query_eq_read t hop]
    simp only [serve, hop, ht, serveTable]
  | scan =>
    rw [← Table.scan_eq_read t hop]
    simp only [serve, hop, ht, serveTable]
  | _ =>
    rw [hop] at hr
    cases hr

theorem read_of_send {s s' : Store} {r : Request} {t : Table} {resp : Response} (hr : r.operation.isPaged = true)
    (ht : s.tables.get? r.table = some t) (h : s.send r = (.ok resp, s')) :
    t.read r = .ok resp ∧ s'.tables = s.tables := by
  rcases hnext : s.faults.next with ⟨_ | e, faults⟩
  · rw [send_read hr ht hnext] at h
    obtain ⟨hanswer, hstore⟩ := Prod.mk.inj h
    rw [← hstore]
    exact ⟨Outcome.mapError_eq_ok.1 hanswer, rfl⟩
  · rw [send_of_fault hnext] at h
    cases h

theorem exists_of_send {s s' : Store} {r : Request} {resp : Response} (hr : r.operation.isPaged = true)
    (h : s.send r = (.ok resp, s')) : ∃ t faults, s.tables.get? r.table = some t ∧ s.faults.next = (none, faults) := by
  rcases hnext : s.faults.next with ⟨_ | e, faults⟩
  · cases ht : s.tables.get? r.table with
    | some t => exact ⟨t, faults, rfl, rfl⟩
    | none =>
      rw [send_of_no_fault hnext] at h
      cases hop : r.operation with
      | query condition =>
        simp only [serve, hop, ht] at h
        cases h
      | scan =>
        simp only [serve, hop, ht] at h
        cases h
      | _ =>
        rw [hop] at hr
        cases hr
  · rw [send_of_fault hnext] at h
    cases h

end Store

/-- The page is what the read finds in the table, whose items are of different keys, in a view by these names. -/
structure Page.Sound (r : Request) (names : List String) (p : Page) : Prop where
  distinct : p.table.Distinct
  source : ∃ key, p.table.readSource r = .ok key ∧ p.table.viewNames key = names
  answered : p.table.read (r.startAt p.start) = .ok p.response

/-- The page is cut out of the view, which is in order. -/
structure Page.CutOut (r : Request) (names : List String) (p : Page) (v : View) : Prop where
  view_eq : p.table.view r = .ok v
  names_eq : v.names = names
  forward_eq : v.forward = r.readsForward
  sorted : v.items.Pairwise (Before v.names v.forward)
  mem_iff : ∀ x, x ∈ v.items ↔ x ∈ p.table.items ∧ p.table.Selects r x
  evaluated_eq : p.evaluated r = v.evaluated r.limit p.start
  last_eq : p.response.last = v.endKey r.limit p.start
  limit_ne : r.limit ≠ some 0
  served_eq : Table.served r.expressions (p.evaluated r) = .ok p.response.items

namespace Page.Sound

variable {r : Request} {names : List String} {p : Page} {x y key : Item}

theorem cutOut (h : p.Sound r names) : ∃ v, p.CutOut r names v := by
  obtain ⟨v, items, hv, hlimit, hserved, hresp⟩ := Table.read_eq_ok.1 h.answered
  have hv : p.table.view r = .ok v := hv
  obtain ⟨key, hkey, hnames, hforward, hmem, hsorted⟩ := Table.view_spec hv
  obtain ⟨key', hkey', hnames'⟩ := h.source
  rw [hkey] at hkey'
  cases hkey'
  have heval : p.evaluated r = v.evaluated r.limit p.start := by
    rw [Page.evaluated, hv]
  refine ⟨v, hv, hnames.trans hnames', hforward, hsorted h.distinct, hmem, heval, ?_, hlimit, ?_⟩
  · rw [hresp]
    rfl
  · rw [heval, hresp]
    exact hserved

theorem pairwise_evaluated (h : p.Sound r names) : (p.evaluated r).Pairwise (Before names r.readsForward) := by
  obtain ⟨v, hp⟩ := h.cutOut
  rw [hp.evaluated_eq, ← hp.names_eq, ← hp.forward_eq]
  exact hp.sorted.sublist ((View.evaluated_sublist v _ _).trans (View.rest_sublist v _))

theorem evaluated_ne_nil (h : p.Sound r names) (hlast : p.response.last = some key) : p.evaluated r ≠ [] := by
  obtain ⟨v, hp⟩ := h.cutOut
  rw [hp.evaluated_eq]
  exact View.evaluated_ne_nil hp.sorted (hp.last_eq.symm.trans hlast)

theorem served (h : p.Sound r names) : Table.served r.expressions (p.evaluated r) = .ok p.response.items := by
  obtain ⟨_, hp⟩ := h.cutOut
  exact hp.served_eq

theorem after_start (h : p.Sound r names) (hx : x ∈ p.evaluated r) (hkey : key ∈ p.start) :
    Before names r.readsForward key x := by
  obtain ⟨v, hp⟩ := h.cutOut
  rw [hp.evaluated_eq] at hx
  have hrest := (View.evaluated_sublist v _ _).subset hx
  rw [← hp.names_eq, ← hp.forward_eq]
  exact (View.mem_rest.1 hrest).2 key hkey

/-- What comes after the end key comes after all that the page has looked at. -/
theorem before_end (h : p.Sound r names) (hlast : p.response.last = some key) (hy : y ∈ p.evaluated r)
    (hx : Before names r.readsForward key x) : Before names r.readsForward y x := by
  obtain ⟨v, hp⟩ := h.cutOut
  rw [← hp.names_eq, ← hp.forward_eq] at hx ⊢
  rw [hp.evaluated_eq] at hy
  exact View.before_of_endKey hp.sorted (hp.last_eq.symm.trans hlast) hy hx

/-- A selected item behind the start key is looked at, or it comes after the end key. -/
theorem evaluated_or_after (h : p.Sound r names) (hx : x ∈ p.table.items) (hselects : p.table.Selects r x)
    (hstart : ∀ key ∈ p.start, Before names r.readsForward key x) :
    x ∈ p.evaluated r ∨ ∃ key, p.response.last = some key ∧ Before names r.readsForward key x := by
  obtain ⟨v, hp⟩ := h.cutOut
  rw [← hp.names_eq, ← hp.forward_eq] at hstart
  have hrest : x ∈ v.rest p.start := View.mem_rest.2 ⟨(hp.mem_iff x).2 ⟨hx, hselects⟩, hstart⟩
  rw [hp.evaluated_eq, hp.last_eq]
  cases hkey : v.endKey r.limit p.start with
  | none =>
    rw [View.evaluated_of_endKey_none hp.limit_ne hkey]
    exact .inl hrest
  | some key =>
    rw [← View.evaluated_append_rest hp.sorted hkey] at hrest
    rcases List.mem_append.1 hrest with hrest | hrest
    · exact .inl hrest
    · rw [← hp.names_eq, ← hp.forward_eq]
      exact .inr ⟨key, rfl, (View.mem_rest.1 hrest).2 key rfl⟩

end Page.Sound

/-! ## Runs of pages -/

/-- Each page starts where the one before has ended, and a page without an end key is the last one. -/
def Linked : Option Item → List Page → Prop
  | _, [] => True
  | start, p :: ps => p.start = start ∧
    match p.response.last with
    | none => ps = []
    | some key => Linked (some key) ps

theorem linked_of_reads {r : Request} {s : Store} {start : Option Item} {ps : List Page}
    (h : Store.Reads r s start ps) : Linked start ps := by
  induction h with
  | stop s start => trivial
  | last es _ _ hlast =>
    refine ⟨rfl, ?_⟩
    rw [hlast]
  | more es _ _ hlast _ ih =>
    refine ⟨rfl, ?_⟩
    rw [hlast]
    exact ih

theorem readSource_continues {t t' : Table} {r : Request} {key : KeySchema} (hc : t.Continues t')
    (h : t.readSource r = .ok key) : t'.readSource r = .ok key := by
  have hsource : ∀ {found}, t.source r.index = .ok found → t'.source r.index = .ok found := by
    intro found hfound
    unfold Table.source at hfound ⊢
    cases hindex : r.index with
    | none =>
      rw [hindex] at hfound
      rw [← hfound, hc.key]
    | some name =>
      simp only [hindex] at hfound ⊢
      cases hi : t.indexes.get? name with
      | none =>
        rw [hi] at hfound
        cases hfound
      | some i =>
        rw [hi] at hfound
        rw [hc.indexes hi]
        exact hfound
  unfold Table.readSource at h ⊢
  obtain ⟨found, hfound, h⟩ := Outcome.bind_eq_ok.1 h
  rw [hsource hfound]
  exact h

/-- The next page of a run, in a table that goes on from one whose view has these names. -/
theorem sound_page {r : Request} (hr : r.operation.isPaged = true) {s s' : Store} (hd : s.Distinct) {t₀ t : Table}
    {key : KeySchema} (ht₀ : s.tables.get? r.table = some t₀) (hkey : t₀.readSource r = .ok key)
    {es : List Store.Event} (ht : (s.run es).tables.get? r.table = some t) {start : Option Item} {resp : Response}
    (hsend : (s.run es).send (r.startAt start) = (.ok resp, s')) :
    Page.Sound r (t₀.viewNames key) ⟨start, t, resp⟩ ∧ t.readSource r = .ok key ∧
      t.viewNames key = t₀.viewNames key ∧ s'.Distinct ∧ s'.tables.get? r.table = some t := by
  obtain ⟨t', ht', hc⟩ := Store.run_continues es s ht₀
  rw [ht] at ht'
  cases ht'
  have hsource := readSource_continues hc hkey
  have hnames : t.viewNames key = t₀.viewNames key := by
    rw [Table.viewNames, Table.viewNames, hc.key]
  have hpaged : (r.startAt start).operation.isPaged = true := hr
  obtain ⟨hread, htables⟩ := Store.read_of_send hpaged ht hsend
  have hd' : (s.run es).Distinct := Store.run_distinct es hd
  refine ⟨⟨hd' ht, ⟨key, hsource, hnames⟩, hread⟩, hsource, hnames, fun {name t} h => ?_, ?_⟩
  · rw [htables] at h
    exact hd' h
  · rw [htables]
    exact ht

/-- All pages of a run are sound, for a table keeps the keys that its views are ordered by. -/
theorem sound_of_reads {r : Request} (hr : r.operation.isPaged = true) {s : Store} {start : Option Item}
    {ps : List Page} (h : Store.Reads r s start ps) :
    s.Distinct → ∀ {t key}, s.tables.get? r.table = some t → t.readSource r = .ok key →
    ∀ p ∈ ps, p.Sound r (t.viewNames key) := by
  induction h with
  | stop s start =>
    intro _ _ _ _ _ p hp
    cases hp
  | last es ht hsend _ =>
    intro hd _ _ ht₀ hkey p hp
    rw [List.mem_singleton.1 hp]
    exact (sound_page hr hd ht₀ hkey ht hsend).1
  | more es ht hsend _ _ ih =>
    intro hd _ _ ht₀ hkey p hp
    obtain ⟨hsound, hsource, hnames, hd', ht'⟩ := sound_page hr hd ht₀ hkey ht hsend
    rcases List.mem_cons.1 hp with rfl | hp
    · exact hsound
    · rw [← hnames]
      exact ih hd' ht' hsource p hp

theorem exists_sound {r : Request} (hr : r.operation.isPaged = true) {s : Store} (hd : s.Distinct) {start : Option Item}
    {ps : List Page} (h : Store.Reads r s start ps) : ∃ names, ∀ p ∈ ps, p.Sound r names := by
  have first {s' : Store} {es : List Store.Event} {t : Table} {resp : Response}
      (ht : (s.run es).tables.get? r.table = some t) (hsend : (s.run es).send (r.startAt start) = (.ok resp, s'))
      (hagain : Store.Reads r (s.run es) start ps) : ∃ names, ∀ p ∈ ps, p.Sound r names := by
    have hpaged : (r.startAt start).operation.isPaged = true := hr
    obtain ⟨v, _, hv, -⟩ := Table.read_eq_ok.1 (Store.read_of_send hpaged ht hsend).1
    obtain ⟨key, hkey, -⟩ := Table.view_spec hv
    exact ⟨_, sound_of_reads hr hagain (Store.run_distinct es hd) ht hkey⟩
  cases h with
  | stop => exact ⟨[], fun p hp => by cases hp⟩
  | last es ht hsend hlast => exact first ht hsend (.last [] ht hsend hlast)
  | more es ht hsend hlast hrest => exact first ht hsend (.more [] ht hsend hlast hrest)

section Linked

variable {r : Request} {names : List String} {x : Item}

/-- **All that the pages look at is strictly increasing in the direction of reading**, and comes after the start key. -/
theorem pairwise_pages : ∀ {start : Option Item} {ps : List Page}, Linked start ps → (∀ p ∈ ps, p.Sound r names) →
    (ps.flatMap (Page.evaluated r)).Pairwise (Before names r.readsForward) ∧
      ∀ x ∈ ps.flatMap (Page.evaluated r), ∀ key ∈ start, Before names r.readsForward key x
  | _, [], _, _ => ⟨List.Pairwise.nil, fun _ h => by cases h⟩
  | start, p :: ps, hlinked, hsound => by
    obtain ⟨hstart, hlinked⟩ := hlinked
    have hp := hsound p List.mem_cons_self
    rw [List.flatMap_cons]
    cases hlast : p.response.last with
    | none =>
      rw [hlast] at hlinked
      have hps : ps = [] := hlinked
      rw [hps, List.flatMap_nil, List.append_nil]
      exact ⟨hp.pairwise_evaluated, fun x hx key hkey => hp.after_start hx (hstart ▸ hkey)⟩
    | some key =>
      rw [hlast] at hlinked
      obtain ⟨hpairs, hafter⟩ := pairwise_pages hlinked fun q hq => hsound q (List.mem_cons_of_mem p hq)
      -- The end key stands between this page and the later ones, whatever table those are taken from.
      have hacross : ∀ y ∈ p.evaluated r, ∀ x ∈ ps.flatMap (Page.evaluated r), Before names r.readsForward y x :=
        fun y hy x hx => hp.before_end hlast hy (hafter x hx key rfl)
      refine ⟨List.pairwise_append.2 ⟨hp.pairwise_evaluated, hpairs, hacross⟩, fun x hx k hk => ?_⟩
      rcases List.mem_append.1 hx with hx | hx
      · exact hp.after_start hx (hstart ▸ hk)
      · obtain ⟨y, hy⟩ := List.exists_mem_of_ne_nil _ (hp.evaluated_ne_nil hlast)
        exact (hp.after_start hy (hstart ▸ hk)).trans (hacross y hy x hx)

/-- An item that stays in the table, selected and behind the start key, is looked at before the pages come to an end. -/
theorem mem_pages : ∀ {start : Option Item} {ps : List Page}, Linked start ps → (∀ p ∈ ps, p.Sound r names) →
    ReadToEnd ps → (∀ p ∈ ps, x ∈ p.table.items ∧ p.table.Selects r x) →
    (∀ key ∈ start, Before names r.readsForward key x) → x ∈ ps.flatMap (Page.evaluated r)
  | _, [], _, _, hend, _, _ => by
    obtain ⟨_, hp, _⟩ := hend
    cases hp
  | start, p :: ps, hlinked, hsound, hend, hx, hstart => by
    obtain ⟨rfl, hlinked⟩ := hlinked
    obtain ⟨hitem, hselects⟩ := hx p List.mem_cons_self
    rw [List.flatMap_cons]
    rcases (hsound p List.mem_cons_self).evaluated_or_after hitem hselects hstart with h | ⟨key, hlast, hkey⟩
    · exact List.mem_append_left _ h
    · rw [hlast] at hlinked
      refine List.mem_append_right _ (mem_pages hlinked (fun q hq => hsound q (List.mem_cons_of_mem p hq))
        (hend.tail hlast) (fun q hq => hx q (List.mem_cons_of_mem p hq)) fun k hk => ?_)
      cases hk
      exact hkey

/-- In a table that does not change the pages have looked at a first part of the view, in the end at all of it. -/
theorem pages_of_unchanged {t : Table} {v : View} (hv : t.view r = .ok v) : ∀ {start : Option Item} {ps : List Page},
    Linked start ps → (∀ p ∈ ps, p.Sound r names) → (∀ p ∈ ps, p.table = t) →
    ps.length ≤ (v.rest start).length + 1 ∧ (ReadToEnd ps → ps.flatMap (Page.evaluated r) = v.rest start)
  | _, [], _, _, _ => by
    refine ⟨Nat.zero_le _, fun hend => ?_⟩
    obtain ⟨_, hp, _⟩ := hend
    cases hp
  | start, p :: ps, hlinked, hsound, htable => by
    obtain ⟨rfl, hlinked⟩ := hlinked
    obtain ⟨v', hp⟩ := (hsound p List.mem_cons_self).cutOut
    have hview := hp.view_eq
    rw [htable p List.mem_cons_self, hv] at hview
    cases hview
    have hend := hp.last_eq
    rw [List.flatMap_cons, List.length_cons]
    cases hlast : p.response.last with
    | none =>
      rw [hlast] at hlinked hend
      have hps : ps = [] := hlinked
      rw [hps, List.flatMap_nil, List.append_nil, hp.evaluated_eq, View.evaluated_of_endKey_none hp.limit_ne hend.symm]
      exact ⟨Nat.succ_le_succ (Nat.zero_le _), fun _ => rfl⟩
    | some key =>
      rw [hlast] at hlinked hend
      obtain ⟨hlength, hall⟩ := pages_of_unchanged hv hlinked (fun q hq => hsound q (List.mem_cons_of_mem p hq))
        fun q hq => htable q (List.mem_cons_of_mem p hq)
      have happend := View.evaluated_append_rest hp.sorted hend.symm
      have hpos := List.length_pos_iff.2 (View.evaluated_ne_nil hp.sorted hend.symm)
      have hsum := congrArg List.length happend
      rw [List.length_append] at hsum
      refine ⟨by omega, fun hread => ?_⟩
      rw [hall (hread.tail hlast), hp.evaluated_eq, happend]

/-- What is served page by page is served at once. -/
theorem served_pages : ∀ {p : Page} {ps : List Page}, (∀ q ∈ p :: ps, q.Sound r names) →
    Table.served r.expressions ((p :: ps).flatMap (Page.evaluated r)) =
      .ok ((p :: ps).flatMap fun q => q.response.items)
  | p, [], h => by
    rw [List.flatMap_singleton, List.flatMap_singleton]
    exact (h p List.mem_cons_self).served
  | p, q :: ps, h => by
    have hrest := served_pages fun q' hq' => h q' (List.mem_cons_of_mem p hq')
    rw [List.flatMap_cons, List.flatMap_cons]
    exact (Table.served_append r.expressions).2 ⟨_, _, (h p List.mem_cons_self).served, hrest, rfl⟩

end Linked

/-! ## The view at once, and page by page -/

theorem evaluated_unlimited (v : View) (start : Option Item) : v.evaluated none start = v.rest start := List.take_length

theorem endKey_unlimited (v : View) (start : Option Item) : v.endKey none start = none := by
  rw [View.endKey, evaluated_unlimited, if_neg (Nat.lt_irrefl _)]

theorem read_unlimited {t : Table} {r : Request} {resp : Response} : t.read r.unlimited = .ok resp ↔
    ∃ v items, t.view r = .ok v ∧ Table.served r.expressions (v.rest r.start) = .ok items ∧ resp = { items } := by
  rw [Table.read_eq_ok]
  constructor
  · rintro ⟨v, items, hv, -, hserved, hresp⟩
    have hserved : Table.served r.expressions (v.evaluated none r.start) = .ok items := hserved
    have hresp : resp = { items, last := v.endKey none r.start } := hresp
    rw [evaluated_unlimited] at hserved
    rw [endKey_unlimited] at hresp
    exact ⟨v, items, hv, hserved, hresp⟩
  · rintro ⟨v, items, hv, hserved, hresp⟩
    have hlimit : r.unlimited.limit ≠ some 0 := (Option.some_ne_none 0).symm
    refine ⟨v, items, hv, hlimit, ?_, ?_⟩
    · show Table.served r.expressions (v.evaluated none r.start) = .ok items
      rw [evaluated_unlimited]
      exact hserved
    · show resp = { items, last := v.endKey none r.start }
      rw [endKey_unlimited]
      exact hresp

/-- If what is behind the start key can be served, then a page of it is; what is left behind the end key can be served
too, and it is less. -/
theorem exists_servedPage {r : Request} (hr : r.operation.isPaged = true) (hlimit : r.limit ≠ some 0)
    {t : Table} {v : View} (hv : t.view r = .ok v) (hsorted : v.items.Pairwise (Before v.names v.forward))
    {faults : Faults} {s : Store} (ht : s.tables.get? r.table = some t) (hnext : s.faults.next = (none, faults))
    {items : List Item} (hserved : Table.served r.expressions (v.rest r.start) = .ok items) :
    ∃ shown, s.send r = (.ok { items := shown, last := v.endKey r.limit r.start }, { s with log := s.log ++ [r] }) ∧
      ∀ key, v.endKey r.limit r.start = some key → (v.rest (some key)).length < (v.rest r.start).length ∧
        ∃ more, Table.served r.expressions (v.rest (some key)) = .ok more := by
  have hsend {shown : List Item} (hshown : Table.served r.expressions (v.evaluated r.limit r.start) = .ok shown) :
      s.send r = (.ok { items := shown, last := v.endKey r.limit r.start }, { s with log := s.log ++ [r] }) := by
    rw [Store.send_read hr ht hnext, Table.read_eq_ok.2 ⟨v, shown, hv, hlimit, hshown, rfl⟩]
    rfl
  cases hend : v.endKey r.limit r.start with
  | none =>
    rw [← View.evaluated_of_endKey_none hlimit hend] at hserved
    exact ⟨items, hend ▸ hsend hserved, fun _ h => by cases h⟩
  | some key =>
    have happend := View.evaluated_append_rest hsorted hend
    rw [← happend] at hserved
    obtain ⟨shown, more, hshown, hmore, -⟩ := (Table.served_append r.expressions).1 hserved
    have hpos := List.length_pos_iff.2 (View.evaluated_ne_nil hsorted hend)
    have hsum := congrArg List.length happend
    rw [List.length_append] at hsum
    refine ⟨shown, hend ▸ hsend hshown, ?_⟩
    rintro _ ⟨⟩
    exact ⟨by omega, more, hmore⟩

/-- If all of a view can be served, then page after page can, and the pages come to an end: each leaves less. -/
theorem exists_reads {r : Request} (hr : r.operation.isPaged = true) (hlimit : r.limit ≠ some 0) {t : Table} {v : View}
    (hv : t.view r = .ok v) (hsorted : v.items.Pairwise (Before v.names v.forward)) {faults : Faults}
    {s : Store} (ht : s.tables.get? r.table = some t) (hnext : s.faults.next = (none, faults)) {start : Option Item}
    {items : List Item} (hserved : Table.served r.expressions (v.rest start) = .ok items) :
    ∃ ps, Store.Reads r s start ps ∧ ReadToEnd ps ∧ ∀ p ∈ ps, p.table = t := by
  -- By what is left to read.
  induction hn : (v.rest start).length using Nat.strongRecOn generalizing s start items with | ind n ih
  obtain ⟨shown, hsend, hless⟩ := exists_servedPage (r := r.startAt start) hr hlimit hv hsorted ht hnext hserved
  cases hend : v.endKey r.limit start with
  | none =>
    refine ⟨_, .last [] ht hsend hend, ⟨_, List.mem_singleton_self _, hend⟩, fun p hp => ?_⟩
    rw [List.mem_singleton.1 hp]
  | some key =>
    obtain ⟨hlength, more, hmore⟩ := hless key hend
    obtain ⟨ps, hreads, hlast, htable⟩ :=
      ih _ (hn ▸ hlength) (s := { s with log := s.log ++ [r.startAt start] }) ht hnext
      hmore rfl
    refine ⟨_, .more [] ht hsend hend hreads, ?_, fun p hp => ?_⟩
    · obtain ⟨p, hp, hnone⟩ := hlast
      exact ⟨p, List.mem_cons_of_mem _ hp, hnone⟩
    · rcases List.mem_cons.1 hp with rfl | hp
      · rfl
      · exact htable p hp

/-- What the pages of a read have in common. -/
structure PagesInOrder (r : Request) (names : List String) (ps : List Page) : Prop where
  /-- The names are those of the key that is read, then those of the table's. -/
  names_eq : ∀ p ∈ ps, ∃ key, p.table.readSource r = .ok key ∧ p.table.viewNames key = names
  /-- All that is looked at increases strictly in the direction of reading, so that no key is served twice. -/
  increasing : (ps.flatMap (Page.evaluated r)).Pairwise (Before names r.readsForward)
  /-- Each page serves what the filter admits of the items it looks at, as the projection shows them. -/
  served : ∀ p ∈ ps,
    ((p.evaluated r).filter r.expressions.admits).mapM (Table.project r.expressions) = .ok p.response.items
  /-- What stays in the table and is selected, admitted and behind the first start key is served once by the end. -/
  once : ReadToEnd ps → ∀ x, (∀ p ∈ ps, x ∈ p.table.items ∧ p.table.Selects r x) →
    r.expressions.admits x = true → (∀ key ∈ r.start, Before names r.readsForward key x) →
    ((ps.flatMap (Page.evaluated r)).filter r.expressions.admits).count x = 1
  /-- From a table that does not change come finitely many pages, and at their end they are, put together, the response
  that any store with that table gives to the same request without a limit. -/
  unchanged : ∀ t, (∀ p ∈ ps, p.table = t) → ps.length ≤ t.items.length + 1 ∧
    (ReadToEnd ps → ∀ s : Store, s.tables.get? r.table = some t → s.faults.next.1 = none →
      (s.send r.unlimited).1 = .ok { items := ps.flatMap fun p => p.response.items })

theorem nodup_of_pairwise_before {names : List String} {forward : Bool} {items : List Item}
    (h : items.Pairwise (Before names forward)) : items.Nodup := by
  refine h.imp ?_
  rintro a _ hbefore rfl
  exact Table.not_before_self a hbefore

theorem pagesInOrder_of_sound {r : Request} (hr : r.operation.isPaged = true) {names : List String} {ps : List Page}
    (hlinked : Linked r.start ps) (hsound : ∀ p ∈ ps, p.Sound r names) : PagesInOrder r names ps where
  names_eq p hp := (hsound p hp).source
  increasing := (pairwise_pages hlinked hsound).1
  served p hp := Table.served_eq_ok (hsound p hp).served
  once hend x hx hadmits hstart := by
    have hmem := mem_pages hlinked hsound hend hx hstart
    have hnodup := nodup_of_pairwise_before (pairwise_pages hlinked hsound).1
    rw [List.count_filter hadmits, hnodup.count, if_pos hmem]
  unchanged t htable := by
    cases ps with
    | nil => exact ⟨Nat.zero_le _, fun ⟨_, hp, _⟩ => by cases hp⟩
    | cons p ps =>
      obtain ⟨v, hp⟩ := (hsound p List.mem_cons_self).cutOut
      have hv := hp.view_eq
      have hmem := hp.mem_iff
      rw [htable p List.mem_cons_self] at hv hmem
      obtain ⟨hlength, hall⟩ := pages_of_unchanged hv hlinked hsound htable
      refine ⟨?_, fun hend s ht hnext => ?_⟩
      · have hnodup := nodup_of_pairwise_before (hp.sorted.sublist (View.rest_sublist v r.start))
        have hsubset : ∀ x ∈ v.rest r.start, x ∈ t.items := fun x hx => ((hmem x).1 (View.mem_rest.1 hx).1).1
        exact Nat.le_trans hlength (Nat.succ_le_succ (hnodup.length_le_of_subset hsubset))
      · have hserved := served_pages hsound
        rw [hall hend] at hserved
        have hpaged : r.unlimited.operation.isPaged = true := hr
        rw [Store.send_read hpaged ht (Prod.ext hnext rfl), read_unlimited.2 ⟨v, _, hv, hserved, rfl⟩]
        rfl

/-- **Whatever happens between the pages, a read serves each item that stays just once, and in order.**  This holds of
every run of pages from a store that any events have led to.  Where all of the view can be served at once, page after
page can, to the end. -/
theorem pages_serve_each_item_once {r : Request} (hr : r.operation.isPaged = true) (es : List Store.Event) :
    (∀ ps, Store.Reads r (Store.run {} es) r.start ps → ∃ names, PagesInOrder r names ps) ∧
    ∀ full s', r.limit ≠ some 0 → (Store.run {} es).send r.unlimited = (.ok full, s') →
      ∃ ps, Store.Reads r (Store.run {} es) r.start ps ∧ ReadToEnd ps ∧
        (∀ p ∈ ps, (Store.run {} es).tables.get? r.table = some p.table) ∧
        full.items = ps.flatMap fun p => p.response.items := by
  have hd : (Store.run {} es).Distinct := Store.run_distinct es Store.distinct_empty
  refine ⟨fun ps h => ?_, fun full s' hlimit hfull => ?_⟩
  · obtain ⟨names, hsound⟩ := exists_sound hr hd h
    exact ⟨names, pagesInOrder_of_sound hr (linked_of_reads h) hsound⟩
  · have hpaged : r.unlimited.operation.isPaged = true := hr
    obtain ⟨t, faults, ht, hnext⟩ := Store.exists_of_send hpaged hfull
    have hread := (Store.read_of_send hpaged ht hfull).1
    obtain ⟨v, items, hv, hserved, -⟩ := read_unlimited.1 hread
    obtain ⟨_, _, _, _, _, hsorted⟩ := Table.view_spec hv
    obtain ⟨ps, hreads, hend, htable⟩ := exists_reads hr hlimit hv (hsorted (hd ht)) ht hnext hserved
    refine ⟨ps, hreads, hend, fun p hp => ?_, ?_⟩
    · rw [htable p hp]
      exact ht
    · obtain ⟨names, hsound⟩ := exists_sound hr hd hreads
      have hall := pagesInOrder_of_sound hr (linked_of_reads hreads) hsound
      have hsame := (hall.unchanged t htable).2 hend _ ht (congrArg Prod.fst hnext)
      rw [hfull] at hsame
      cases hsame
      rfl

/-- Two orders, put in against their order, one to a page. -/
theorem pages_serve_each_item_once_of_two_orders :
    let shape : Descriptor := ⟨"Order", "orders", [⟨"id", .string, false, false, .partition⟩], ⟨"id", none⟩, []⟩
    let es : List Store.Event :=
      [.create shape, .insert "orders" [("id", .string "b")], .insert "orders" [("id", .string "a")]]
    let r : Request :=
      { table := "orders", operation := .scan, expressions := {}, index := none, consistentRead := false
        limit := some 1, start := none, forward := true, segment := none, returnValues := .nothing }
    r.operation.isPaged = true ∧
      (∀ ps, Store.Reads r (Store.run {} es) r.start ps → ∃ names, PagesInOrder r names ps) ∧
      ∃ ps, Store.Reads r (Store.run {} es) r.start ps ∧ ReadToEnd ps ∧
        (∀ p ∈ ps, (Store.run {} es).tables.get? r.table = some p.table) ∧
        ([[("id", .string "a")], [("id", .string "b")]] : List Item) = ps.flatMap fun p => p.response.items := by
  intro shape es r
  let t : Table := { key := ⟨"id", none⟩, items := [[("id", .string "b")], [("id", .string "a")]] }
  have hsort : t.inOrder t.key t.items = [[("id", .string "a")], [("id", .string "b")]] := by
    rw [Table.inOrder, List.mergeSort]
    show ([_].mergeSort _).merge ([_].mergeSort _) _ = _
    have hlater : (itemOrder (t.viewNames t.key) [("id", .string "b")] [("id", .string "a")] != .gt) = false := rfl
    rw [List.mergeSort_singleton, List.mergeSort_singleton, List.cons_merge_cons, hlater,
      if_neg Bool.false_ne_true, List.merge_right]
  have hview : t.view r = .ok ⟨["id"], true, [[("id", .string "a")], [("id", .string "b")]]⟩ := by
    rw [← hsort]
    rfl
  have hread : t.read r.unlimited = .ok { items := [[("id", .string "a")], [("id", .string "b")]] } :=
    read_unlimited.2 ⟨_, _, hview, rfl, rfl⟩
  have hfull : ((Store.run {} es).send r.unlimited).1 = Store.answer (t.read r.unlimited) := rfl
  rw [hread] at hfull
  have hlimit : r.limit ≠ some 0 := by decide
  obtain ⟨hpages, hall⟩ := pages_serve_each_item_once (r := r) rfl es
  exact ⟨rfl, hpages, hall _ _ hlimit (Prod.ext hfull rfl)⟩

end ItemStore
