import Mathlib.Algebra.Order.Ring.Int
import Mathlib.Data.Nat.Cast.Order.Ring
import Mathlib.Tactic.Ring

/-!
# Big-endian numbers

Bytes as the number that they spell in base 256, the first byte first: `toNat`, and
`ofNat` at a given width. `toInt` and `ofInt` are the signed numbers in two's complement.
At its width every string of bytes spells one number, and every number that fits is spelt
by one string (`toInt_eq_iff`).
-/

namespace Framework

namespace BigEndian

/-! ### Without a sign -/

def toNat : List UInt8 → ℕ
  | [] => 0
  | b :: bytes => b.toNat * 256 ^ bytes.length + toNat bytes

/-- The last `w` digits of a number in base 256. -/
def ofNat : ℕ → ℕ → List UInt8
  | 0, _ => []
  | w + 1, n => UInt8.ofNat (n / 256 ^ w) :: ofNat w (n % 256 ^ w)

@[simp] theorem length_ofNat (w n : ℕ) : (ofNat w n).length = w := by
  induction w generalizing n with
  | zero => rfl
  | succ w ih => rw [ofNat, List.length_cons, ih]

theorem toNat_lt (bytes : List UInt8) : toNat bytes < 256 ^ bytes.length := by
  induction bytes with
  | nil => exact Nat.one_pos
  | cons b bytes ih =>
    have hb : b.toNat + 1 ≤ 256 := b.toNat_lt
    calc toNat (b :: bytes)
        < b.toNat * 256 ^ bytes.length + 256 ^ bytes.length := Nat.add_lt_add_left ih _
      _ = (b.toNat + 1) * 256 ^ bytes.length := by ring
      _ ≤ 256 * 256 ^ bytes.length := Nat.mul_le_mul_right _ hb
      _ = 256 ^ (b :: bytes).length := by rw [List.length_cons]; ring

theorem toNat_ofNat {w n : ℕ} (h : n < 256 ^ w) : toNat (ofNat w n) = n := by
  induction w generalizing n with
  | zero =>
    rw [pow_zero] at h
    exact (Nat.lt_one_iff.mp h).symm
  | succ w ih =>
    have hpos : 0 < 256 ^ w := Nat.pow_pos (by omega)
    have hdigit : n / 256 ^ w < 256 := by
      rw [pow_succ, Nat.mul_comm] at h
      exact Nat.div_lt_of_lt_mul (by rwa [Nat.mul_comm] at h)
    rw [ofNat, toNat, length_ofNat, ih (Nat.mod_lt _ hpos), UInt8.toNat_ofNat_of_lt' hdigit]
    exact Nat.div_add_mod' n (256 ^ w)

theorem ofNat_toNat (bytes : List UInt8) : ofNat bytes.length (toNat bytes) = bytes := by
  induction bytes with
  | nil => rfl
  | cons b bytes ih =>
    have hpos : 0 < 256 ^ bytes.length := Nat.pow_pos (by omega)
    have hlt := toNat_lt bytes
    -- the first digit and the rest of the number come apart again
    have hdiv : (b.toNat * 256 ^ bytes.length + toNat bytes) / 256 ^ bytes.length = b.toNat := by
      rw [Nat.mul_comm, Nat.mul_add_div hpos, Nat.div_eq_of_lt hlt, Nat.add_zero]
    have hmod : (b.toNat * 256 ^ bytes.length + toNat bytes) % 256 ^ bytes.length =
        toNat bytes := by
      rw [Nat.mul_comm, Nat.mul_add_mod, Nat.mod_eq_of_lt hlt]
    rw [List.length_cons, ofNat, toNat, hdiv, hmod, ih, UInt8.ofNat_toNat]

/-! ### In two's complement -/

def toInt (bytes : List UInt8) : ℤ :=
  if 2 * toNat bytes < 256 ^ bytes.length then toNat bytes
  else toNat bytes - 256 ^ bytes.length

def ofInt (w : ℕ) (n : ℤ) : List UInt8 := ofNat w (n % 256 ^ w).toNat

/-- A number has a representation in `w` bytes. -/
def Fits (w : ℕ) (n : ℤ) : Prop := -256 ^ w ≤ 2 * n ∧ 2 * n < 256 ^ w

instance (w : ℕ) (n : ℤ) : Decidable (Fits w n) := inferInstanceAs (Decidable (_ ∧ _))

@[simp] theorem length_ofInt (w : ℕ) (n : ℤ) : (ofInt w n).length = w := length_ofNat ..

theorem fits_toInt (bytes : List UInt8) : Fits bytes.length (toInt bytes) := by
  have hlt : (toNat bytes : ℤ) < 256 ^ bytes.length := by exact_mod_cast toNat_lt bytes
  unfold Fits toInt
  split
  · next hsmall =>
    have : (2 * toNat bytes : ℤ) < 256 ^ bytes.length := by exact_mod_cast hsmall
    constructor <;> omega
  · next hlarge =>
    have : (256 ^ bytes.length : ℤ) ≤ 2 * toNat bytes := by exact_mod_cast not_lt.mp hlarge
    constructor <;> omega

theorem toInt_ofInt {w : ℕ} {n : ℤ} (h : Fits w n) : toInt (ofInt w n) = n := by
  obtain ⟨hlow, hhigh⟩ := h
  have hpos : (0 : ℤ) < 256 ^ w := Int.pow_pos (by omega)
  have hmod : 0 ≤ n % 256 ^ w := Int.emod_nonneg _ hpos.ne'
  have hlt : n % 256 ^ w < 256 ^ w := Int.emod_lt_of_pos _ hpos
  have hnat : toNat (ofInt w n) = (n % 256 ^ w).toNat := by
    refine toNat_ofNat ?_
    have : ((n % 256 ^ w).toNat : ℤ) < ((256 ^ w : ℕ) : ℤ) := by
      rw [Int.toNat_of_nonneg hmod]
      exact_mod_cast hlt
    exact_mod_cast this
  have hcast : ((toNat (ofInt w n) : ℕ) : ℤ) = n % 256 ^ w := by
    rw [hnat, Int.toNat_of_nonneg hmod]
  have hsmall : 2 * toNat (ofInt w n) < 256 ^ w ↔ 2 * (n % 256 ^ w) < 256 ^ w := by
    rw [← hcast]
    exact_mod_cast Iff.rfl
  unfold toInt
  rw [length_ofInt, hcast]
  -- a number below zero is represented by the one that is `256 ^ w` above it
  rcases le_or_gt 0 n with hn | hn
  · have heq : n % 256 ^ w = n := Int.emod_eq_of_lt hn (by omega)
    rw [if_pos (hsmall.mpr (by omega)), heq]
  · have heq : n % 256 ^ w = n + 256 ^ w := by
      rw [← Int.add_emod_right]
      exact Int.emod_eq_of_lt (by omega) (by omega)
    rw [if_neg fun h => absurd (hsmall.mp h) (by omega), heq]
    ring

theorem ofInt_toInt (bytes : List UInt8) : ofInt bytes.length (toInt bytes) = bytes := by
  have hlt : (toNat bytes : ℤ) < 256 ^ bytes.length := by exact_mod_cast toNat_lt bytes
  have hmod : toInt bytes % 256 ^ bytes.length = toNat bytes := by
    unfold toInt
    split
    · exact Int.emod_eq_of_lt (Int.natCast_nonneg _) hlt
    · rw [← Int.add_emod_right, sub_add_cancel]
      exact Int.emod_eq_of_lt (Int.natCast_nonneg _) hlt
  rw [ofInt, hmod, Int.toNat_natCast, ofNat_toNat]

/-- **Each number that fits is spelt by one string of bytes.** -/
theorem toInt_eq_iff {w : ℕ} {bytes : List UInt8} {n : ℤ} :
    bytes.length = w ∧ toInt bytes = n ↔ Fits w n ∧ bytes = ofInt w n := by
  constructor
  · rintro ⟨rfl, rfl⟩
    exact ⟨fits_toInt bytes, (ofInt_toInt bytes).symm⟩
  · rintro ⟨hfits, rfl⟩
    exact ⟨length_ofInt w n, toInt_ofInt hfits⟩

/-- A number in front is read off. -/
theorem append_inj_of_ofInt {w : ℕ} {n n' : ℤ} {bytes bytes' : List UInt8} (hn : Fits w n)
    (hn' : Fits w n') (h : ofInt w n ++ bytes = ofInt w n' ++ bytes') :
    n = n' ∧ bytes = bytes' := by
  obtain ⟨hnumber, hbytes⟩ := List.append_inj h (by rw [length_ofInt, length_ofInt])
  refine ⟨?_, hbytes⟩
  rw [← toInt_ofInt hn, ← toInt_ofInt hn', hnumber]

end BigEndian

end Framework
