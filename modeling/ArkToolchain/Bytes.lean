/-
Byte strings: big-endian numbers and cyclic masks.

`beNat` reads a number and `beBytes` writes one.  A single byte gives a lower bound for the
number it stands in (`mul_pow_le_beNat`), which tells a misplaced length field from a short
length.
-/
import Mathlib.Data.List.Basic
import Mathlib.Tactic.Ring

namespace ArkToolchain

/-- A byte string: the contents of a `std::string` or of a byte buffer. -/
abbrev Bytes := List UInt8

def ascii (text : String) : Bytes :=
  text.toList.map fun c => UInt8.ofNat c.toNat

theorem ascii_ofList (cs : List Char) :
    ascii (String.ofList cs) = cs.map fun c => UInt8.ofNat c.toNat := by
  rw [ascii, String.toList_ofList]

/-! ### Big-endian numbers -/

/-- The number a byte string denotes, most significant byte first. -/
def beNat : Bytes → Nat
  | [] => 0
  | b :: bs => b.toNat * 256 ^ bs.length + beNat bs

/-- The `n` low bytes of `v`, most significant byte first. -/
def beBytes : Nat → Nat → Bytes
  | 0, _ => []
  | n + 1, v => UInt8.ofNat (v / 256 ^ n) :: beBytes n v

@[simp] theorem length_beBytes (n v : Nat) : (beBytes n v).length = n := by
  induction n with
  | zero => rfl
  | succ n ih => simp [beBytes, ih]

theorem beNat_append (xs ys : Bytes) :
    beNat (xs ++ ys) = beNat xs * 256 ^ ys.length + beNat ys := by
  induction xs with
  | nil => simp [beNat]
  | cons x xs ih =>
    simp only [List.cons_append, beNat, ih, List.length_append, pow_add]
    ring

/-- Reading back what `beBytes` wrote gives the number modulo `256 ^ n`. -/
theorem beNat_beBytes_mod (n v : Nat) : beNat (beBytes n v) = v % 256 ^ n := by
  induction n with
  | zero => simp [beBytes, beNat, Nat.mod_one]
  | succ n ih =>
    have hbyte : (UInt8.ofNat (v / 256 ^ n)).toNat = v / 256 ^ n % 256 := by
      simp
    -- the new byte is the digit that the smaller modulus cuts off
    rw [beBytes, beNat, ih, hbyte, length_beBytes, pow_succ, Nat.mod_mul]
    ring

theorem beNat_beBytes {n v : Nat} (h : v < 256 ^ n) : beNat (beBytes n v) = v := by
  rw [beNat_beBytes_mod, Nat.mod_eq_of_lt h]

/-- A byte standing before `ys.length` further bytes contributes at least its
own weight. -/
theorem mul_pow_le_beNat (xs ys : Bytes) (b : UInt8) :
    b.toNat * 256 ^ ys.length ≤ beNat (xs ++ b :: ys) := by
  rw [beNat_append, beNat]
  omega

/-! ### Cyclic masks -/

/-- Combine every byte with the key stream byte at its index. -/
def xorMask (key : Nat → UInt8) (bs : Bytes) : Bytes :=
  bs.mapIdx fun i b => b ^^^ key i

variable (key : Nat → UInt8) (bs : Bytes)

@[simp] theorem length_xorMask : (xorMask key bs).length = bs.length := by
  simp [xorMask]

@[simp] theorem xorMask_nil : xorMask key [] = [] := rfl

@[simp] theorem xorMask_xorMask : xorMask key (xorMask key bs) = bs := by
  apply List.ext_getElem
  · simp
  · intro i h₁ h₂
    simp only [xorMask, List.getElem_mapIdx]
    rw [UInt8.xor_assoc, UInt8.xor_self, UInt8.xor_zero]

end ArkToolchain
