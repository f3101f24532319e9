import Mathlib.Tactic.Ring
import ItemStore.Proofs.Text.Json
import ItemStore.Value.Uuid
/-!
# Identifiers are read back

The 32 hexadecimal digits of an identifier denote it (`Uuid.ofDigits?_digits`), and its written form is read as the
digits without the hyphens (`Uuid.parse?_render`).
-/
namespace ItemStore

namespace Uuid

/-- The last `k` digits of a number after others, read from the first. -/
theorem foldl_digits (v : Nat) : ∀ k before : Nat,
    ((List.range k).map fun i => v / 16 ^ (k - 1 - i) % 16).foldl (fun n d => 16 * n + d) before =
      before * 16 ^ k + v % 16 ^ k
  | 0, before => by rw [List.range_zero, List.map_nil, List.foldl_nil, Nat.pow_zero, Nat.mod_one, Nat.mul_one]; rfl
  | k + 1, before => by
    have htail : ((List.range k).map Nat.succ).map (fun i => v / 16 ^ (k + 1 - 1 - i) % 16) =
        (List.range k).map fun i => v / 16 ^ (k - 1 - i) % 16 := by
      rw [List.map_map]
      refine List.map_congr_left fun i _ => ?_
      have hplace : k + 1 - 1 - Nat.succ i = k - 1 - i := by omega
      rw [Function.comp_apply, hplace]
    rw [List.range_succ_eq_map, List.map_cons, htail, List.foldl_cons, foldl_digits v k, Nat.mod_pow_succ]
    simp only [Nat.add_sub_cancel, Nat.sub_zero]
    ring

theorem mapM_hexValue?_digits (u : Uuid) : u.digits.mapM Json.hexValue? =
    some ((List.range digitCount).map fun i => u.value.val / 16 ^ (digitCount - 1 - i) % 16) := by
  have hdigit : ∀ i, Json.hexValue? (Json.hexDigit (u.value.val / twoPow (4 * (digitCount - 1 - i)) % 16)) =
      some (u.value.val / 16 ^ (digitCount - 1 - i) % 16) := by
    intro i
    have hpow : twoPow (4 * (digitCount - 1 - i)) = 16 ^ (digitCount - 1 - i) := Nat.pow_mul 2 4 _
    rw [hpow, Json.hexValue?_hexDigit _ (Nat.mod_lt _ (by decide))]
  rw [digits, List.mapM_map]
  simp only [Function.comp_def, hdigit]
  exact List.mapM_pure

theorem length_digits (u : Uuid) : u.digits.length = digitCount := by
  rw [digits, List.length_map, List.length_range]

theorem ofDigits?_digits (u : Uuid) : ofDigits? u.digits = some u := by
  have hbound : u.value.val < 16 ^ digitCount := u.value.isLt
  unfold ofDigits?
  rw [mapM_hexValue?_digits]
  simp only [Option.bind_eq_bind, Option.bind_some, foldl_digits, Nat.zero_mul, Nat.zero_add, Nat.mod_eq_of_lt hbound,
    length_digits, if_true, u.value.isLt, dif_pos]

/-- The hyphens are read over. -/
theorem parse?_render_eq (u : Uuid) : parse? u.render = ofDigits? u.digits := by
  have htext : u.render.toList = (u.digits.drop 0).take 8 ++ '-' :: (u.digits.drop 8).take 4 ++
      '-' :: (u.digits.drop 12).take 4 ++ '-' :: (u.digits.drop 16).take 4 ++ '-' :: (u.digits.drop 20).take 12 :=
    String.toList_ofList
  -- the digits are a list of 32 terms, so that both sides compute to the same reading of them
  unfold parse?
  rw [htext]
  rfl

/-- **An identifier is read back from what is written for it.** -/
theorem parse?_render (u : Uuid) : parse? u.render = some u := by
  rw [parse?_render_eq, ofDigits?_digits]

end Uuid
end ItemStore
