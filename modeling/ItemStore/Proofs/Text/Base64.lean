import ItemStore.Text.Base64
/-!
# Base 64 there and back

What is encoded is decoded to the same bytes, in either form (`decode?_encode`).
-/
namespace ItemStore.Text.Base64

/-- Every digit is read as its number, and the padding is no digit. -/
structure Lawful (b : Base64) : Prop where
  value : ∀ n < 64, b.value? (b.digit n) = some n
  padding : b.value? '=' = none

theorem lawful_standard : standard.Lawful := ⟨by decide, rfl⟩

theorem lawful_urlSafe : urlSafe.Lawful := ⟨by decide, rfl⟩

variable {b : Base64}

namespace Lawful

theorem digit_ne (hb : b.Lawful) {n : Nat} (h : n < 64) : b.digit n ≠ '=' := fun heq => by
  have := hb.value n h
  rw [heq, hb.padding] at this
  cases this

theorem decodeTwo? (hb : b.Lawful) (x : UInt8) :
    b.decodeTwo? (b.digit (x.toNat * 16 / 64)) (b.digit (x.toNat * 16 % 64)) = some [x] := by
  have hx := x.toNat_lt
  have hzero : (x.toNat * 16 / 64 * 64 + x.toNat * 16 % 64) % 16 = 0 := by omega
  have hbyte : (x.toNat * 16 / 64 * 64 + x.toNat * 16 % 64) / 16 = x.toNat := by omega
  simp only [Base64.decodeTwo?, hb.value (x.toNat * 16 / 64) (by omega), hb.value (x.toNat * 16 % 64) (by omega),
    Option.bind_eq_bind, Option.bind_some, hzero, hbyte, if_true, UInt8.ofNat_toNat]

theorem decodeThree? (hb : b.Lawful) (x y : UInt8) {n : Nat} (hn : n = (x.toNat * 256 + y.toNat) * 4) :
    b.decodeThree? (b.digit (n / 4096)) (b.digit (n / 64 % 64)) (b.digit (n % 64)) = some [x, y] := by
  have hx := x.toNat_lt
  have hy := y.toNat_lt
  have hall : (n / 4096 * 64 + n / 64 % 64) * 64 + n % 64 = n := by omega
  have hzero : n % 4 = 0 := by omega
  have hfirst : n / 1024 = x.toNat := by omega
  have hsecond : n / 4 % 256 = y.toNat := by omega
  simp only [Base64.decodeThree?, hb.value (n / 4096) (by omega), hb.value (n / 64 % 64) (by omega),
    hb.value (n % 64) (by omega), Option.bind_eq_bind, Option.bind_some, hall, hzero, hfirst, hsecond, if_true,
    UInt8.ofNat_toNat]

theorem decodeFour? (hb : b.Lawful) (x y z : UInt8) {n : Nat} (hn : n = (x.toNat * 256 + y.toNat) * 256 + z.toNat) :
    b.decodeFour? (b.digit (n / 262144)) (b.digit (n / 4096 % 64)) (b.digit (n / 64 % 64)) (b.digit (n % 64)) =
      some [x, y, z] := by
  have hx := x.toNat_lt
  have hy := y.toNat_lt
  have hz := z.toNat_lt
  have hall : ((n / 262144 * 64 + n / 4096 % 64) * 64 + n / 64 % 64) * 64 + n % 64 = n := by omega
  have hfirst : n / 65536 = x.toNat := by omega
  have hsecond : n / 256 % 256 = y.toNat := by omega
  have hthird : n % 256 = z.toNat := by omega
  simp only [Base64.decodeFour?, hb.value (n / 262144) (by omega), hb.value (n / 4096 % 64) (by omega),
    hb.value (n / 64 % 64) (by omega), hb.value (n % 64) (by omega), Option.bind_eq_bind, Option.bind_some,
    hall, hfirst, hsecond, hthird, UInt8.ofNat_toNat]

end Lawful

/-- **Bytes that have been encoded are decoded to themselves.** -/
theorem decode?_encode (hb : b.Lawful) : ∀ bytes : Bytes, b.decode? (b.encode bytes) = some bytes
  | [] => rfl
  | [x] => by
    rw [encode, pad]
    split
    · next hpad =>
      show b.decode? [_, _, '=', '='] = _
      rw [decode?, if_pos ⟨hpad, rfl, rfl⟩, if_pos rfl, hb.decodeTwo?]
    · next hpad =>
      rw [decode?, if_neg hpad, hb.decodeTwo?]
  | [x, y] => by
    rw [encode, pad]
    split
    · next hpad =>
      show b.decode? [_, _, _, '='] = _
      rw [decode?, if_pos ⟨hpad, rfl, rfl⟩, if_neg (hb.digit_ne (Nat.mod_lt _ (by decide))), hb.decodeThree? x y rfl]
    · next hpad =>
      rw [decode?, if_neg hpad, hb.decodeThree? x y rfl]
  | x :: y :: z :: rest => by
    have hlast : ¬(b.padded ∧ b.encode rest = [] ∧ b.digit (((x.toNat * 256 + y.toNat) * 256 + z.toNat) % 64) = '=') :=
      fun h => hb.digit_ne (Nat.mod_lt _ (by decide)) h.2.2
    rw [encode, decode?, if_neg hlast, hb.decodeFour? x y z rfl, decode?_encode hb rest]
    rfl

end ItemStore.Text.Base64
