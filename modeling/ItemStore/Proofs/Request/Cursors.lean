import ItemStore.Execution.Reading
import ItemStore.Proofs.Outcome
import ItemStore.Proofs.Request.Builders
import ItemStore.Proofs.Request.KeyCondition
import ItemStore.Proofs.Value.Written
import ItemStore.Request.Samples
/-!
# Where a read was left off, there and back

The token of a cursor is read as the cursor, in whatever order the entries of its key were when it was written.  So a
read that is given the token asks for what it asked for before, from behind the last key that was looked at
(`tokens_stand_for_their_cursors`).
-/
namespace ItemStore

/-! ## Texts and their bytes -/

namespace Text

theorem toList_loop (bytes : ByteArray) (i : Nat) (front : List UInt8) :
    ByteArray.toList.loop bytes i front = front.reverse ++ bytes.data.toList.drop i := by
  fun_induction ByteArray.toList.loop bytes i front with
  | case1 i front hlt ih =>
    have hlength : i < bytes.data.toList.length := hlt
    have hget : bytes.get! i = bytes.data.toList[i] := getElem!_pos bytes.data i hlt
    rw [ih, List.drop_eq_getElem_cons hlength, List.reverse_cons, List.append_assoc, List.singleton_append, hget]
  | case2 i front hge =>
    rw [List.drop_eq_nil_of_le (Nat.le_of_not_lt hge), List.append_nil]

theorem toArray_toList (bytes : ByteArray) : (⟨bytes.toList.toArray⟩ : ByteArray) = bytes := by
  rw [ByteArray.toList, toList_loop]
  rfl

theorem fromUTF8?_toUTF8 (s : String) : String.fromUTF8? s.toUTF8 = some s := dif_pos s.isValidUTF8

end Text

/-! ## Cursors -/

namespace PageCursor

theorem textual_toJson (c : PageCursor) : c.toJson.Textual := ⟨trivial, Value.textual_toJsonEntries c.key, trivial⟩

/-- **A token is read as the cursor that it was written of**, however the entries of the key were listed. -/
theorem ofToken_token {c : PageCursor} {listed : Item} (hkey : c.key.Orderly) (h : c.key.Listing listed)
    (hdepth : (toJson ⟨c.shape, listed⟩).depth ≤ Value.maxDepth) : ofToken (token ⟨c.shape, listed⟩) = .ok c := by
  have htextual := textual_toJson ⟨c.shape, listed⟩
  have hparse := Json.parse?_render htextual (Json.depth_le_length_render htextual)
  -- only the key is bounded in depth when it is read, and it stands in one object
  have hbound : (Item.toJson listed).depth < Value.maxDepth := by
    have hbelow : (Item.toJson listed).depth + 1 ≤ (toJson ⟨c.shape, listed⟩).depth := by
      show _ ≤ max 0 (max (Item.toJson listed).depth 0) + 1
      omega
    exact Nat.lt_of_lt_of_le hbelow hdepth
  have hread : ofJson? (toJson ⟨c.shape, listed⟩) = some c := by
    show (if (Item.toJson listed).depth < Value.maxDepth then _ else _) = _
    rw [if_pos hbound, Item.ofJson?_toJson hkey h]
    rfl
  have htoken : ofToken? (token ⟨c.shape, listed⟩) = some c := by
    rw [ofToken?, token, String.toList_ofList, Text.Base64.decode?_encode Text.Base64.lawful_urlSafe]
    simp only [Option.bind_eq_bind, Option.bind_some, Text.toArray_toList, Text.fromUTF8?_toUTF8, hparse, hread]
  rw [ofToken, htoken]

end PageCursor

/-! ## Reads that go on -/

theorem Scan.build_fromCursor {q : Scan} {p : Plan} (h : q.build = .ok p) {c : PageCursor}
    (hc : c.shape = q.shape.name) :
    Scan.build { q with start := q.start.fromCursor c } = .ok { p with cursor := some c } := by
  obtain ⟨key, hkey, hfilters, hprojection, hlimit, hsegment, -, rfl⟩ := build_eq_ok_iff.1 h
  exact build_eq_ok_iff.2 ⟨key, hkey, hfilters, hprojection, hlimit, hsegment, if_pos hc, rfl⟩

theorem Query.build_fromCursor {q : Query} {p : Plan} (h : q.build = .ok p) {c : PageCursor}
    (hc : c.shape = q.shape.name) :
    Query.build { q with start := q.start.fromCursor c } = .ok { p with cursor := some c } := by
  obtain ⟨key, partition, sort, hkey, hclauses, hpartition, hsort, hfilters, hfree, hprojection, hlimit, -, rfl⟩ :=
    build_eq_ok_iff.1 h
  exact build_eq_ok_iff.2 ⟨key, partition, sort, hkey, hclauses, hpartition, hsort, hfilters, hfree,
    hprojection, hlimit, if_pos hc, rfl⟩

/-- **The token of a cursor stands for the cursor.**  However the entries of the key, and of the maps in it, were listed
when the token was written, it is read as the cursor; a read that could be built is built again with the token, and is
the same but for beginning behind the key of the cursor; which is, in a cursor that came with a page, the last key that
the store has answered with. -/
theorem tokens_stand_for_their_cursors {c : PageCursor} {listed : Item} (hkey : c.key.Orderly)
    (h : c.key.Listing listed) (hdepth : (PageCursor.toJson ⟨c.shape, listed⟩).depth ≤ Value.maxDepth) :
    let token := PageCursor.token ⟨c.shape, listed⟩
    PageCursor.ofToken token = .ok c ∧
    (∀ (q : Scan) (p : Plan), q.build = .ok p → c.shape = q.shape.name → ∃ p' : Plan,
      Scan.build { q with start := q.start.fromToken token } = .ok p' ∧
      p'.request = { p.request with start := some c.key }) ∧
    (∀ (q : Query) (p : Plan), q.build = .ok p → c.shape = q.shape.name → ∃ p' : Plan,
      Query.build { q with start := q.start.fromToken token } = .ok p' ∧
      p'.request = { p.request with start := some c.key }) ∧
    ∀ {σ : Type} [Client σ] (x : Executor) (p : Plan) (w w' : World σ) (items : List Item),
      x.fetchItems p w = (.ok (items, some c), w') → c.shape = p.shape ∧
        ∃ response, x.submit p.request w = (.ok response, w') ∧ response.items = items ∧
          response.last = some c.key := by
  intro token
  have hread : PageCursor.ofToken token = .ok c := PageCursor.ofToken_token hkey h hdepth
  have hstart : ∀ s : Start, s.fromToken token = s.fromCursor c := fun s => by rw [Start.fromToken, hread]
  refine ⟨hread, fun q p hbuild hshape => ?_, fun q p hbuild hshape => ?_, fun x p w w' items hfetch => ?_⟩
  · rw [hstart]
    exact ⟨_, Scan.build_fromCursor hbuild hshape, rfl⟩
  · rw [hstart]
    exact ⟨_, Query.build_fromCursor hbuild hshape, rfl⟩
  · unfold Executor.fetchItems at hfetch
    rcases hsubmit : x.submit p.request w with ⟨result, w₁⟩
    rw [hsubmit] at hfetch
    obtain ⟨hresult, rfl⟩ := Prod.mk.inj hfetch
    cases result with
    | error e => cases hresult
    | ok response =>
      obtain ⟨hitems, hlast⟩ := Prod.mk.inj (Except.ok.inj hresult)
      obtain ⟨key, hkey', rfl⟩ := Option.map_eq_some_iff.1 hlast
      exact ⟨rfl, response, rfl, hitems, hkey'⟩

namespace Samples

/-- The last order of a page, of which the store shows more than the key. -/
def lastOrder : PageCursor where
  shape := "Order"
  key := [("createdAt", .string "day \"2\"\n"), ("id", .string "o1"),
    ("seal", .map [("by", .stringSet ["ü", "b"]), ("marks", .list [.binary [0, 255, 7, 9], .null, .ofInt (-3)])])]

/-- The same, with nothing in order. -/
def lastOrderListed : Item :=
  [("seal", .map [("marks", .list [.binary [0, 255, 7, 9], .null, .ofInt (-3)]), ("by", .stringSet ["ü", "b"])]),
    ("createdAt", .string "day \"2\"\n"), ("id", .string "o1")]

end Samples

open Samples in
theorem tokens_stand_for_their_cursors_of_last_order :
    PageCursor.ofToken (PageCursor.token ⟨"Order", lastOrderListed⟩) = .ok lastOrder ∧
    ∃ p : Plan, Query.build { ordersAtLeast "o1" 5 with
        start := ({} : Start).fromToken (PageCursor.token ⟨"Order", lastOrderListed⟩) } = .ok p ∧
      p.request.start = some lastOrder.key := by
  have horderly : lastOrder.key.Orderly :=
    ⟨by decide, trivial, trivial, ⟨by decide, trivial, ⟨trivial, trivial, trivial, trivial⟩, trivial⟩, trivial⟩
  have hseal : Value.Listing
      (.map [("by", .stringSet ["ü", "b"]), ("marks", .list [.binary [0, 255, 7, 9], .null, .ofInt (-3)])])
      (.map [("marks", .list [.binary [0, 255, 7, 9], .null, .ofInt (-3)]), ("by", .stringSet ["ü", "b"])]) :=
    .map (.swap ..)
      (.cons (.list (.cons (.plain nofun nofun) (.cons (.plain nofun nofun) (.cons (.plain nofun nofun) .nil))))
      (.cons (.plain nofun nofun) .nil))
  have hlisted : lastOrder.key.Listing lastOrderListed :=
    .map (.trans (.cons _ (.swap ..)) (.swap ..))
      (.cons hseal (.cons (.plain nofun nofun) (.cons (.plain nofun nofun) .nil)))
  obtain ⟨hread, -, hquery, -⟩ := tokens_stand_for_their_cursors horderly hlisted (by decide)
  obtain ⟨p, hbuild⟩ : ∃ p, (ordersAtLeast "o1" 5).build = .ok p := ⟨_, rfl⟩
  obtain ⟨p', hbuild', hrequest⟩ := hquery (ordersAtLeast "o1" 5) p hbuild rfl
  exact ⟨hread, p', hbuild', congrArg Request.start hrequest⟩

end ItemStore
