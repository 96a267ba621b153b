/-
Numbers in decimal: `natText` and `intText` write one, as `std::to_string` does, and `digitsVal`
is the number that a row of digits stands for.
-/
import ArkToolchain.Bytes

namespace ArkToolchain

def natText (n : Nat) : Bytes :=
  (Nat.toDigits 10 n).map fun c => UInt8.ofNat c.toNat

/-- The digits, with a sign if the number is negative. -/
def intText (n : Int) : Bytes :=
  if n < 0 then 0x2d :: natText n.natAbs else natText n.natAbs

def digitsVal (digits : Bytes) : Nat :=
  digits.foldl (fun v d => 10 * v + (d.toNat - 0x30)) 0

theorem natText_ne_nil (n : Nat) : natText n ≠ [] := by
  rw [natText, ne_eq, List.map_eq_nil_iff]
  exact Nat.toDigits_ne_nil

theorem toNat_ofNat_of_isDigit {c : Char} (h : c.isDigit = true) :
    (UInt8.ofNat c.toNat).toNat = c.toNat ∧ 0x30 ≤ c.toNat ∧ c.toNat ≤ 0x39 := by
  obtain ⟨hlow, hhigh⟩ : 0x30 ≤ c.toNat ∧ c.toNat ≤ 0x39 := by
    simpa [Char.isDigit, UInt32.le_iff_toNat_le] using h
  exact ⟨by rw [UInt8.toNat_ofNat']; omega, hlow, hhigh⟩

theorem isDigit_of_mem_natText {n : Nat} {d : UInt8} (h : d ∈ natText n) :
    0x30 ≤ d.toNat ∧ d.toNat ≤ 0x39 := by
  obtain ⟨c, hc, rfl⟩ := List.mem_map.mp h
  obtain ⟨hbyte, hrange⟩ :=
    toNat_ofNat_of_isDigit (Nat.isDigit_of_mem_toDigits (by omega) (by omega) hc)
  rw [hbyte]
  exact hrange

theorem foldl_digits (cs : List Char) (h : ∀ c ∈ cs, c.isDigit = true) (v : Nat) :
    (cs.map fun c => UInt8.ofNat c.toNat).foldl (fun v d => 10 * v + (d.toNat - 0x30)) v
      = Nat.ofDigitChars 10 cs v := by
  induction cs generalizing v with
  | nil => rfl
  | cons c cs ih =>
    obtain ⟨hbyte, -⟩ := toNat_ofNat_of_isDigit (h c List.mem_cons_self)
    rw [List.map_cons, List.foldl_cons, hbyte, ih fun c' hc' => h c' (List.mem_cons_of_mem _ hc')]
    rfl

/-- **Reading what has been written.** -/
theorem digitsVal_natText (n : Nat) : digitsVal (natText n) = n := by
  have hdigits : ∀ c ∈ Nat.toDigits 10 n, c.isDigit = true :=
    fun c hc => Nat.isDigit_of_mem_toDigits (by omega) (by omega) hc
  rw [digitsVal, natText, foldl_digits _ hdigits, Nat.ofDigitChars_ten_toDigits]

theorem mem_intText {n : Int} {d : UInt8} (h : d ∈ intText n) :
    d = 0x2d ∨ (0x30 ≤ d.toNat ∧ d.toNat ≤ 0x39) := by
  rw [intText] at h
  split at h
  · rcases List.mem_cons.mp h with rfl | h
    · exact .inl rfl
    · exact .inr (isDigit_of_mem_natText h)
  · exact .inr (isDigit_of_mem_natText h)

theorem intText_ne_nil (n : Int) : intText n ≠ [] := by
  rw [intText]
  split
  · exact List.cons_ne_nil _ _
  · exact natText_ne_nil _

end ArkToolchain
