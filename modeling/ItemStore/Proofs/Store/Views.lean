import ItemStore.Proofs.Outcome
import ItemStore.Proofs.Parts
import ItemStore.Proofs.Store.Keys
import ItemStore.Store.Page
/-!
# Views and pages

A read takes one page out of a view of the table: the items that the read selects, strictly increasing in its direction
(`view_spec`).  The page looks at the first items behind the start key, as many as the limit says, and serves those of
them that the filter admits (`read_eq_ok`).  What lies behind its end key is what it has left (`evaluated_append_rest`).
-/
namespace ItemStore

open Std (TransCmp OrientedCmp)
open Outcome (bind_eq_ok yes yes_iff filterM_eq_ok)

def Request.readsForward (r : Request) : Bool := r.forward || r.operation.isScan

/-- The item passes the filter, if there is one. -/
def Expressions.admits (e : Expressions) (item : Item) : Bool := yes (Table.conditionHolds e.bindings item e.filter)

namespace Table

/-! ## Directions -/

/-- The first item comes before the second, by the attributes of these names and in this direction. -/
def Before (names : List String) (forward : Bool) (a b : Item) : Prop :=
  itemOrder names a b = if forward then .lt else .gt

section Before

variable {names : List String} {forward : Bool} {a b c : Item}

theorem Before.trans (hab : Before names forward a b) (hbc : Before names forward b c) : Before names forward a c := by
  cases forward with
  | true => exact TransCmp.lt_trans hab hbc
  | false => exact TransCmp.gt_trans hab hbc

theorem not_before_self (a : Item) : ¬Before names forward a a := by
  intro h
  have hself : itemOrder names a a = .eq := Std.ReflCmp.compare_self
  rw [Before, hself] at h
  cases forward <;> cases h

theorem before_reverse : Before names false a b ↔ Before names true b a := OrientedCmp.gt_iff_lt

theorem isAfter_iff : isAfter names forward a b = true ↔ Before names forward a b := by
  rw [isAfter, beq_iff_eq]
  cases forward with
  | true => exact OrientedCmp.gt_iff_lt
  | false => exact OrientedCmp.gt_iff_lt.symm

/-- A start key says as much as the item it was made of. -/
theorem before_restrict : Before names forward (a.restrict names) b ↔ Before names forward a b := by
  rw [← isAfter_iff, ← isAfter_iff, isAfter, isAfter, itemOrder_restrict]

end Before

/-! ## Views -/

/-- The key of what is read covers the item, and the key condition or the segment lets it through. -/
def Selects (t : Table) (r : Request) (item : Item) : Prop :=
  ∃ key, t.readSource r = .ok key ∧ key.covers item = true ∧
    match r.operation with
    | .query condition => conditionHolds r.expressions.bindings item (some condition) = .ok true
    | .scan => t.inSegment r.segment item = true
    | _ => False

/-- What a read goes through. -/
structure View where
  names : List String
  forward : Bool
  items : List Item

/-- The view of a query or a scan; other requests have none. -/
def view (t : Table) (r : Request) : Except RequestFault View :=
  match r.operation with
  | .query condition => do
    let key ← t.readSource r
    let f ← expressionFault (Formula.parse condition)
    let items ← (t.items.filter key.covers).filterM fun item => expressionFault (f.holds r.expressions.bindings item)
    let view := t.inOrder key items
    return ⟨t.viewNames key, r.forward, if r.forward then view else view.reverse⟩
  | .scan => do
    let key ← t.readSource r
    if r.segment.any fun s => s.total ≤ s.number then .error .segment
    else
      let items := t.items.filter fun item => key.covers item && t.inSegment r.segment item
      return ⟨t.viewNames key, true, t.inOrder key items⟩
  | other => .error (.notAWrite other.name)

/-- A query or a scan. -/
def read (t : Table) (r : Request) : Except RequestFault Response := do
  let v ← t.view r
  page v.names v.forward r v.items

theorem query_eq_read (t : Table) {r : Request} {condition : String} (h : r.operation = .query condition) :
    t.query r condition = t.read r := by
  rw [query, read, view, h]
  simp only [bind_assoc, pure_bind]

theorem scan_eq_read (t : Table) {r : Request} (h : r.operation = .scan) : t.scan r = t.read r := by
  rw [scan, read, view, h]
  simp only [bind_assoc]
  congr 1
  funext key
  split
  · rfl
  · rfl

theorem names_subset_viewNames (t : Table) (key : KeySchema) : ∀ name ∈ t.key.names, name ∈ t.viewNames key := by
  intro name h
  rw [viewNames, List.mem_eraseDups]
  exact List.mem_append_right _ h

/-- The order of a view is by the key that is read and then by that of the table. -/
theorem before_viewNames {t : Table} {key : KeySchema} {forward : Bool} {a b : Item} :
    Before (t.viewNames key) forward a b ↔ Before (key.names ++ t.key.names) forward a b := by
  rw [Before, Before, viewNames, itemOrder_eraseDups]

theorem inOrder_perm (t : Table) (key : KeySchema) (items : List Item) : (t.inOrder key items).Perm items :=
  List.mergeSort_perm items _

/-- In the order of a view items that are not of one key increase strictly. -/
theorem pairwise_inOrder (t : Table) (key : KeySchema) {items : List Item}
    (h : items.Pairwise fun a b => t.sameKey a b = false) :
    (t.inOrder key items).Pairwise (Before (t.viewNames key) true) := by
  have hsorted : (t.inOrder key items).Pairwise fun a b => (itemOrder (t.viewNames key) a b).isLE :=
    pairwise_mergeSort_isLE items
  have hapart : (t.inOrder key items).Pairwise fun a b => t.sameKey a b = false := by
    refine ((t.inOrder_perm key items).pairwise_iff fun hab => ?_).2 h
    rwa [sameKey_comm]
  refine (hsorted.and hapart).imp fun ⟨hle, hne⟩ => ?_
  rw [Before, if_pos rfl]
  cases hord : itemOrder (t.viewNames key) _ _ with
  | lt => rfl
  | gt =>
    rw [hord] at hle
    cases hle
  | eq =>
    have hsame : t.sameKey _ _ = true :=
      sameKey_iff.2 (itemOrder_eq_iff.2 fun name hname =>
        itemOrder_eq_iff.1 hord name (names_subset_viewNames t key name hname))
    rw [hne] at hsame
    cases hsame

/-- Items that increase strictly can stand in one order only. -/
theorem eq_of_perm_of_before {names : List String} {forward : Bool} {xs ys : List Item} (h : xs.Perm ys)
    (hxs : xs.Pairwise (Before names forward)) (hys : ys.Pairwise (Before names forward)) : xs = ys :=
  h.eq_of_pairwise (fun a _ _ _ hab hba => absurd (hab.trans hba) (not_before_self a)) hxs hys

theorem mem_inOrder {t : Table} {key : KeySchema} {items : List Item} {x : Item} :
    x ∈ t.inOrder key items ↔ x ∈ items :=
  List.mem_mergeSort

/-- **A view holds the selected items, strictly increasing in its direction.** -/
theorem view_spec {t : Table} {r : Request} {v : View} (h : t.view r = .ok v) :
    ∃ key, t.readSource r = .ok key ∧ v.names = t.viewNames key ∧ v.forward = r.readsForward ∧
      (∀ x, x ∈ v.items ↔ x ∈ t.items ∧ t.Selects r x) ∧
      (t.Distinct → v.items.Pairwise (Before v.names v.forward)) := by
  unfold view at h
  split at h
  · next condition hop =>
    obtain ⟨key, hkey, h⟩ := bind_eq_ok.1 h
    obtain ⟨f, hparse, h⟩ := bind_eq_ok.1 h
    obtain ⟨items, hitems, h⟩ := bind_eq_ok.1 h
    cases h
    have hforward : r.forward = r.readsForward := by
      rw [Request.readsForward, hop]
      exact (Bool.or_false _).symm
    have hmeets (x : Item) : conditionHolds r.expressions.bindings x (some condition) =
        expressionFault (f.holds r.expressions.bindings x) := by
      rw [conditionHolds, Outcome.mapError_eq_ok.1 hparse]
      rfl
    have hmem (x : Item) : x ∈ items ↔ x ∈ t.items ∧ t.Selects r x := by
      rw [filterM_eq_ok hitems, List.mem_filter, List.mem_filter, yes_iff, Selects, hop, ← hmeets]
      constructor
      · rintro ⟨⟨hx, hcovers⟩, hholds⟩
        exact ⟨hx, key, hkey, hcovers, hholds⟩
      · rintro ⟨hx, key', hkey', hcovers, hholds⟩
        rw [hkey] at hkey'
        cases hkey'
        exact ⟨⟨hx, hcovers⟩, hholds⟩
    refine ⟨key, hkey, rfl, hforward, fun x => ?_, fun hd => ?_⟩
    · rw [← hmem]
      split
      · exact mem_inOrder
      · rw [List.mem_reverse]
        exact mem_inOrder
    · have hd' : items.Pairwise fun a b => t.sameKey a b = false := by
        rw [filterM_eq_ok hitems]
        exact (hd.filter _).filter _
      have hsorted := pairwise_inOrder t key hd'
      show (if r.forward then t.inOrder key items else (t.inOrder key items).reverse).Pairwise
        (Before (t.viewNames key) r.forward)
      cases r.forward with
      | true => exact hsorted
      | false => exact List.pairwise_reverse.2 (hsorted.imp before_reverse.2)
  · next hop =>
    obtain ⟨key, hkey, h⟩ := bind_eq_ok.1 h
    split at h
    · cases h
    · cases h
      have hforward : true = r.readsForward := by
        rw [Request.readsForward, hop]
        exact (Bool.or_true _).symm
      refine ⟨key, hkey, rfl, hforward, fun x => ?_, fun hd => pairwise_inOrder t key (hd.filter _)⟩
      rw [mem_inOrder, List.mem_filter, Bool.and_eq_true, Selects, hop]
      constructor
      · rintro ⟨hx, hcovers, hsegment⟩
        exact ⟨hx, key, hkey, hcovers, hsegment⟩
      · rintro ⟨hx, key', hkey', hcovers, hsegment⟩
        rw [hkey] at hkey'
        cases hkey'
        exact ⟨hx, hcovers, hsegment⟩
  · cases h

theorem length_inOrder (t : Table) (key : KeySchema) (items : List Item) :
    (t.inOrder key items).length = items.length :=
  List.length_mergeSort items

theorem length_view_le {t : Table} {r : Request} {v : View} (h : t.view r = .ok v) :
    v.items.length ≤ t.items.length := by
  unfold view at h
  split at h
  · obtain ⟨key, -, h⟩ := bind_eq_ok.1 h
    obtain ⟨f, -, h⟩ := bind_eq_ok.1 h
    obtain ⟨items, hitems, h⟩ := bind_eq_ok.1 h
    cases h
    have hlength : items.length ≤ t.items.length := by
      rw [filterM_eq_ok hitems]
      exact Nat.le_trans (List.length_filter_le _ _) (List.length_filter_le _ _)
    split
    · rwa [length_inOrder]
    · rwa [List.length_reverse, length_inOrder]
  · obtain ⟨key, -, h⟩ := bind_eq_ok.1 h
    split at h
    · cases h
    · cases h
      exact Nat.le_trans (Nat.le_of_eq (length_inOrder t key _)) (List.length_filter_le _ _)
  · cases h

/-! ## Where a page ends -/

namespace View

/-- What of a view lies behind the start key. -/
def rest (v : View) (start : Option Item) : List Item := remaining v.names v.forward start v.items

/-- The items that a page looks at. -/
def evaluated (v : View) (limit : Option Nat) (start : Option Item) : List Item :=
  (v.rest start).take (limit.getD (v.rest start).length)

/-- The key of the last item looked at, if there are more behind it. -/
def endKey (v : View) (limit : Option Nat) (start : Option Item) : Option Item :=
  if (v.rest start).length > (v.evaluated limit start).length then
    (v.evaluated limit start).getLast?.map fun item => item.restrict v.names
  else none

variable {v : View} {limit : Option Nat} {start : Option Item} {key x y : Item}

theorem mem_rest : x ∈ v.rest start ↔ x ∈ v.items ∧ ∀ key ∈ start, Before v.names v.forward key x := by
  cases start with
  | none =>
    constructor
    · intro hx
      exact ⟨hx, fun _ h => by cases h⟩
    · exact And.left
  | some key =>
    rw [rest, remaining, List.mem_filter, isAfter_iff]
    constructor
    · rintro ⟨hx, hafter⟩
      refine ⟨hx, fun key' h => ?_⟩
      cases h
      exact hafter
    · rintro ⟨hx, hafter⟩
      exact ⟨hx, hafter key rfl⟩

theorem rest_sublist (v : View) (start : Option Item) : (v.rest start).Sublist v.items := by
  cases start with
  | none => exact List.Sublist.refl _
  | some key => exact List.filter_sublist

theorem evaluated_sublist (v : View) (limit : Option Nat) (start : Option Item) :
    (v.evaluated limit start).Sublist (v.rest start) := List.take_sublist _ _

theorem evaluated_of_endKey_none (hlimit : limit ≠ some 0) (h : v.endKey limit start = none) :
    v.evaluated limit start = v.rest start := by
  unfold endKey at h
  split at h
  · next hmore =>
    rw [Option.map_eq_none_iff, List.getLast?_eq_none_iff] at h
    rw [evaluated, List.take_eq_nil_iff] at h
    rcases h with h | h
    · cases limit with
      | none =>
        rw [Option.getD_none] at h
        omega
      | some n =>
        rw [Option.getD_some] at h
        rw [h] at hlimit
        exact absurd rfl hlimit
    · rw [h] at hmore
      cases hmore
  · next hmore =>
    rw [evaluated, List.length_take] at hmore
    exact List.take_of_length_le (by omega)

/-- Behind one of the items, a view in order goes on with what stands behind it. -/
theorem filter_isAfter {names : List String} {forward : Bool} {front back : List Item} {z : Item}
    (hs : (front ++ z :: back).Pairwise (Before names forward)) :
    (front ++ z :: back).filter (isAfter names forward z) = back := by
  obtain ⟨-, hz, hfront⟩ := List.pairwise_append.1 hs
  have hnot : front.filter (isAfter names forward z) = [] := by
    refine List.filter_eq_nil_iff.2 fun y hy hafter => ?_
    have hyz := hfront y hy z List.mem_cons_self
    exact not_before_self y (hyz.trans (isAfter_iff.1 hafter))
  have hself : ¬isAfter names forward z z = true := fun h => not_before_self z (isAfter_iff.1 h)
  have hall : back.filter (isAfter names forward z) = back :=
    List.filter_eq_self.2 fun y hy => isAfter_iff.2 ((List.pairwise_cons.1 hz).1 y hy)
  rw [List.filter_append, hnot, List.filter_cons_of_neg hself, hall, List.nil_append]

/-- What lies behind the end key is what lies behind the last item looked at. -/
theorem rest_endKey (hs : v.items.Pairwise (Before v.names v.forward)) (h : v.endKey limit start = some key) :
    ∃ front z, v.evaluated limit start = front ++ [z] ∧ key = z.restrict v.names ∧
      v.rest start = front ++ z :: v.rest (some key) := by
  unfold endKey at h
  split at h
  · obtain ⟨z, hlast, hkey⟩ := Option.map_eq_some_iff.1 h
    obtain ⟨front, hfront⟩ := List.getLast?_eq_some_iff.1 hlast
    have hsplit : v.rest start = front ++ z :: (v.rest start).drop (limit.getD (v.rest start).length) := by
      have htake := List.take_append_drop (limit.getD (v.rest start).length) (v.rest start)
      rw [← evaluated, hfront, List.append_assoc] at htake
      exact htake.symm
    have hz : z ∈ v.rest start := by
      rw [hsplit]
      exact List.mem_append_right front List.mem_cons_self
    -- The key has all the attributes that the order looks at, so it stands where its item stands; and whatever
    -- comes after that item comes after the start key too.
    have hrest : v.rest (some key) = (v.rest start).filter (isAfter v.names v.forward z) := by
      have hkeyfilter : v.rest (some key) = v.items.filter (isAfter v.names v.forward z) := by
        rw [rest, remaining]
        refine List.filter_congr fun x _ => ?_
        rw [Bool.eq_iff_iff, isAfter_iff, isAfter_iff, ← hkey]
        exact before_restrict
      rw [hkeyfilter]
      cases start with
      | none => rfl
      | some k =>
        rw [rest, remaining, List.filter_filter]
        refine List.filter_congr fun x _ => ?_
        rw [Bool.eq_iff_iff, Bool.and_eq_true, isAfter_iff, isAfter_iff]
        constructor
        · intro hafter
          exact ⟨hafter, ((mem_rest.1 hz).2 k rfl).trans hafter⟩
        · exact And.left
    refine ⟨front, z, hfront, hkey.symm, ?_⟩
    have hsorted := hs.sublist (rest_sublist v start)
    rw [hsplit] at hsorted
    have hback := filter_isAfter hsorted
    rw [← hsplit, ← hrest] at hback
    rw [hback]
    exact hsplit
  · cases h

/-- So a page and the rest behind its end key are the rest it was taken from. -/
theorem evaluated_append_rest (hs : v.items.Pairwise (Before v.names v.forward))
    (h : v.endKey limit start = some key) : v.evaluated limit start ++ v.rest (some key) = v.rest start := by
  obtain ⟨front, z, heval, -, hrest⟩ := rest_endKey hs h
  rw [heval, List.append_assoc, hrest]
  rfl

theorem evaluated_ne_nil (hs : v.items.Pairwise (Before v.names v.forward)) (h : v.endKey limit start = some key) :
    v.evaluated limit start ≠ [] := by
  obtain ⟨front, z, heval, -, -⟩ := rest_endKey hs h
  rw [heval]
  exact List.append_ne_nil_of_right_ne_nil front (List.cons_ne_nil z [])

/-- Whatever comes after the end key comes after all that the page has looked at. -/
theorem before_of_endKey (hs : v.items.Pairwise (Before v.names v.forward)) (h : v.endKey limit start = some key)
    (hy : y ∈ v.evaluated limit start) (hx : Before v.names v.forward key x) : Before v.names v.forward y x := by
  obtain ⟨front, z, heval, hkey, -⟩ := rest_endKey hs h
  have hz : Before v.names v.forward z x := by
    rw [hkey] at hx
    exact before_restrict.1 hx
  have hsorted := hs.sublist ((evaluated_sublist v limit start).trans (rest_sublist v start))
  rw [heval] at hsorted hy
  rcases List.mem_append.1 hy with hy | hy
  · exact ((List.pairwise_append.1 hsorted).2.2 y hy z List.mem_cons_self).trans hz
  · rw [List.mem_singleton.1 hy]
    exact hz

end View

/-! ## What a page serves -/

theorem showPassing_append (passes : Item → Except RequestFault Bool) (shown : Item → Except RequestFault Item) :
    ∀ xs ys : List Item, showPassing passes shown (xs ++ ys) = do
      let as ← showPassing passes shown xs
      let bs ← showPassing passes shown ys
      return as ++ bs
  | [], ys => by
    rw [List.nil_append, showPassing]
    exact (bind_pure _).symm
  | x :: xs, ys => by
    rw [List.cons_append, showPassing, showPassing, showPassing_append passes shown xs ys]
    simp only [bind_assoc]
    congr 1
    funext b
    cases b with
    | false => rfl
    | true => simp only [if_true, bind_assoc, pure_bind, List.cons_append]

/-- The items that are served are those that pass, each as it is shown. -/
theorem showPassing_eq_ok {passes : Item → Except RequestFault Bool} {shown : Item → Except RequestFault Item} :
    ∀ {xs ys : List Item}, showPassing passes shown xs = .ok ys →
      (xs.filter fun x => yes (passes x)).mapM shown = .ok ys
  | [], _, h => h
  | x :: xs, ys, h => by
    rw [showPassing] at h
    obtain ⟨b, hb, h⟩ := bind_eq_ok.1 h
    cases b with
    | false =>
      rw [List.filter_cons_of_neg (by rw [hb]; exact Bool.false_ne_true)]
      exact showPassing_eq_ok h
    | true =>
      obtain ⟨y, hy, h⟩ := bind_eq_ok.1 h
      obtain ⟨zs, hzs, h⟩ := bind_eq_ok.1 h
      rw [List.filter_cons_of_pos (by rw [hb]; rfl), List.mapM_cons, hy, showPassing_eq_ok hzs]
      exact h

/-- A filter that can be read says what its text says. -/
theorem passes_eq_conditionHolds {e : Expressions} {filter : Option Formula}
    (h : e.filter.mapM (fun text => expressionFault (Formula.parse text)) = .ok filter) (item : Item) :
    passes e.bindings filter item = conditionHolds e.bindings item e.filter := by
  cases hf : e.filter with
  | none =>
    rw [hf] at h
    cases h
    rfl
  | some text =>
    rw [hf] at h
    obtain ⟨f, hparse, hok⟩ := bind_eq_ok.1 h
    cases hok
    rw [passes, conditionHolds, Outcome.mapError_eq_ok.1 hparse]
    rfl

theorem served_eq_ok {e : Expressions} {items ys : List Item} (h : served e items = .ok ys) :
    (items.filter e.admits).mapM (project e) = .ok ys := by
  rw [served] at h
  obtain ⟨filter, hfilter, h⟩ := bind_eq_ok.1 h
  have hadmits : e.admits = fun item => yes (passes e.bindings filter item) := by
    funext item
    rw [Expressions.admits, passes_eq_conditionHolds hfilter]
  rw [hadmits]
  exact showPassing_eq_ok h

theorem served_append (e : Expressions) {xs ys cs : List Item} :
    served e (xs ++ ys) = .ok cs ↔ ∃ as bs, served e xs = .ok as ∧ served e ys = .ok bs ∧ cs = as ++ bs := by
  unfold served
  cases e.filter.mapM fun text => expressionFault (Formula.parse text) with
  | error fault =>
    constructor
    · intro h
      cases h
    · rintro ⟨as, _, has, _⟩
      cases has
  | ok filter =>
    show showPassing _ _ (xs ++ ys) = .ok cs ↔ ∃ as bs, showPassing _ _ xs = .ok as ∧
        showPassing _ _ ys = .ok bs ∧ _
    rw [showPassing_append]
    constructor
    · intro h
      obtain ⟨as, has, h⟩ := bind_eq_ok.1 h
      obtain ⟨bs, hbs, h⟩ := bind_eq_ok.1 h
      cases h
      exact ⟨as, bs, has, hbs, rfl⟩
    · rintro ⟨as, bs, has, hbs, rfl⟩
      rw [has, hbs]
      rfl

/-- **A page serves what the filter admits of the items it looks at, and tells where it has ended.** -/
theorem read_eq_ok {t : Table} {r : Request} {resp : Response} : t.read r = .ok resp ↔
    ∃ v items, t.view r = .ok v ∧ r.limit ≠ some 0 ∧
      served r.expressions (v.evaluated r.limit r.start) = .ok items ∧
      resp = { items, last := v.endKey r.limit r.start } := by
  rw [read]
  constructor
  · intro h
    obtain ⟨v, hv, h⟩ := bind_eq_ok.1 h
    rw [page] at h
    split at h
    · cases h
    · next hlimit =>
      obtain ⟨items, hitems, h⟩ := bind_eq_ok.1 h
      cases h
      exact ⟨v, items, hv, hlimit, hitems, rfl⟩
  · rintro ⟨v, items, hv, hlimit, hitems, rfl⟩
    rw [hv]
    show page v.names v.forward r v.items = _
    rw [page, if_neg hlimit]
    exact bind_eq_ok.2 ⟨items, hitems, rfl⟩

/-! ## Texts that have an answer for every item -/

/-- A text that has an answer can be read. -/
theorem exists_parse {b : Bindings} {item : Item} {text : String} {holds : Bool}
    (h : conditionHolds b item (some text) = .ok holds) : ∃ f, Formula.parse text = .ok f := by
  obtain ⟨f, hparse, -⟩ := bind_eq_ok.1 (Outcome.mapError_eq_ok.1 h)
  exact ⟨f, hparse⟩

/-- A key condition that has an answer for every item makes a view. -/
theorem exists_view {t : Table} {r : Request} {key : KeySchema} {text : String} {meets : Item → Bool}
    (hop : r.operation = .query text) (hkey : t.readSource r = .ok key)
    (hmeets : ∀ item, conditionHolds r.expressions.bindings item (some text) = .ok (meets item)) :
    ∃ v, t.view r = .ok v := by
  obtain ⟨f, hparse⟩ := exists_parse (hmeets [])
  have hholds : ∀ item, ∃ b, expressionFault (f.holds r.expressions.bindings item) = .ok b := by
    intro item
    have hitem := hmeets item
    rw [conditionHolds, hparse] at hitem
    exact ⟨_, hitem⟩
  obtain ⟨items, hitems⟩ := Outcome.exists_filterM hholds (t.items.filter key.covers)
  rw [view, hop]
  exact ⟨_, bind_eq_ok.2 ⟨key, hkey,
    bind_eq_ok.2 ⟨f, Outcome.mapError_eq_ok.2 hparse, bind_eq_ok.2 ⟨items, hitems, rfl⟩⟩⟩⟩

/-- And the view holds the items with the key that meet it. -/
theorem selects_iff {t : Table} {r : Request} {key : KeySchema} {text : String} {item : Item} {meets : Bool}
    (hop : r.operation = .query text) (hkey : t.readSource r = .ok key)
    (hmeets : conditionHolds r.expressions.bindings item (some text) = .ok meets) :
    t.Selects r item ↔ key.covers item = true ∧ meets = true := by
  rw [Selects, hop, hkey]
  show (∃ key', Except.ok key = .ok key' ∧ _ ∧ conditionHolds _ item (some text) = .ok true) ↔ _
  rw [hmeets]
  constructor
  · rintro ⟨_, hkey', hcovers, hholds⟩
    cases hkey'
    cases hholds
    exact ⟨hcovers, rfl⟩
  · rintro ⟨hcovers, rfl⟩
    exact ⟨key, rfl, hcovers, rfl⟩

theorem showPassing_of_total {passes : Item → Except RequestFault Bool} {asShown : Item → Except RequestFault Item}
    {admits : Item → Bool} {shown : Item → Item} (hpasses : ∀ x, passes x = .ok (admits x))
    (hshown : ∀ x, asShown x = .ok (shown x)) : ∀ xs : List Item,
    showPassing passes asShown xs = .ok ((xs.filter admits).map shown)
  | [] => rfl
  | x :: xs => by
    rw [showPassing, hpasses, showPassing_of_total hpasses hshown xs]
    cases hx : admits x with
    | false =>
      rw [List.filter_cons_of_neg (hx ▸ Bool.false_ne_true)]
      rfl
    | true =>
      rw [List.filter_cons_of_pos hx, hshown]
      rfl

/-- A filter that has an answer for every item, and a projection that can always show it, serve all that is admitted. -/
theorem served_of_total {e : Expressions} {admits : Item → Bool} {shown : Item → Item}
    (hadmits : ∀ item, conditionHolds e.bindings item e.filter = .ok (admits item))
    (hshown : ∀ item, project e item = .ok (shown item)) (items : List Item) :
    served e items = .ok ((items.filter admits).map shown) := by
  have hfilter : ∃ filter, e.filter.mapM (fun text => expressionFault (Formula.parse text)) = .ok filter := by
    cases hf : e.filter with
    | none => exact ⟨none, rfl⟩
    | some text =>
      obtain ⟨f, hparse⟩ := exists_parse (hf ▸ hadmits [])
      exact ⟨some f, bind_eq_ok.2 ⟨f, Outcome.mapError_eq_ok.2 hparse, rfl⟩⟩
  obtain ⟨filter, hfilter⟩ := hfilter
  refine bind_eq_ok.2 ⟨filter, hfilter, showPassing_of_total (fun item => ?_) hshown items⟩
  rw [passes_eq_conditionHolds hfilter, hadmits]

end Table
end ItemStore
