import Apue.Foundation.CString

/-!
# Numbers in decimal

The bytes that `printf` writes for a nonnegative number, without and with
leading zeros.  Reading the number back shows that different numbers are
padded to different texts.
-/

namespace Apue
namespace Foundation

def zeroDigit : Char := '0'

/-- `%d`. -/
def decimal (n : Nat) : List Byte :=
  (Nat.toDigits 10 n).map Char.toUInt8

/-- `%0*d`: at least `width` digits. -/
def zeroPadded (width n : Nat) : List Byte :=
  (List.replicate (width - (Nat.toDigits 10 n).length) zeroDigit ++
    Nat.toDigits 10 n).map Char.toUInt8

def readDecimal (s : List Byte) : Nat :=
  s.foldl (fun sofar b => 10 * sofar + (b.toNat - zeroDigit.toNat)) 0

theorem toNat_of_isDigit {c : Char} (h : c.isDigit = true) :
    48 ≤ c.toNat ∧ c.toNat ≤ 57 := by
  simpa [Char.isDigit, UInt32.le_iff_toNat_le] using h

theorem toNat_toUInt8_of_isDigit {c : Char} (h : c.isDigit = true) :
    c.toUInt8.toNat = c.toNat := by
  have hrange := toNat_of_isDigit h
  change c.toNat % 256 = c.toNat
  lia

theorem toNat_of_mem_map {l : List Char} (h : forall c, c ∈ l -> c.isDigit = true)
    {b : Byte} (hb : b ∈ l.map Char.toUInt8) : 48 ≤ b.toNat ∧ b.toNat ≤ 57 := by
  rcases List.mem_map.mp hb with ⟨c, hc, heq⟩
  rw [← heq, toNat_toUInt8_of_isDigit (h c hc)]
  exact toNat_of_isDigit (h c hc)

theorem readDecimal_map {l : List Char} (h : forall c, c ∈ l -> c.isDigit = true) :
    readDecimal (l.map Char.toUInt8) = Nat.ofDigitChars 10 l 0 := by
  unfold readDecimal
  rw [Nat.ofDigitChars_eq_foldl]
  generalize 0 = init
  induction l generalizing init with
  | nil => rfl
  | cons c rest ih =>
      have hc := toNat_toUInt8_of_isDigit (h c List.mem_cons_self)
      rw [List.map_cons, List.foldl_cons, List.foldl_cons, hc]
      exact ih (fun d hd => h d (List.mem_cons_of_mem c hd)) _

theorem isDigit_of_mem_padded {width n : Nat} {c : Char}
    (h : c ∈ List.replicate width zeroDigit ++ Nat.toDigits 10 n) :
    c.isDigit = true := by
  rcases List.mem_append.mp h with hzero | hdigit
  · rw [List.eq_of_mem_replicate hzero]
    rfl
  · exact Nat.isDigit_of_mem_toDigits (by decide) (by decide) hdigit

theorem readDecimal_zeroPadded (width n : Nat) :
    readDecimal (zeroPadded width n) = n := by
  unfold zeroPadded
  rw [readDecimal_map (fun c hc => isDigit_of_mem_padded hc),
    Nat.ofDigitChars_append]
  change Nat.ofDigitChars 10 (Nat.toDigits 10 n)
    (Nat.ofDigitChars 10 (List.replicate _ '0') 0) = n
  rw [Nat.ofDigitChars_replicate_zero, Nat.mul_zero,
    Nat.ofDigitChars_ten_toDigits]

theorem zeroPadded_injective {width n m : Nat}
    (h : zeroPadded width n = zeroPadded width m) : n = m := by
  rw [← readDecimal_zeroPadded width n, h, readDecimal_zeroPadded]

theorem readDecimal_decimal (n : Nat) : readDecimal (decimal n) = n := by
  unfold decimal
  rw [readDecimal_map
    (fun c hc => Nat.isDigit_of_mem_toDigits (by decide) (by decide) hc),
    Nat.ofDigitChars_ten_toDigits]

theorem decimal_nulFree (n : Nat) {b : Byte} (h : b ∈ decimal n) : b ≠ 0 := by
  have hrange := toNat_of_mem_map
    (fun c hc => Nat.isDigit_of_mem_toDigits (by decide) (by decide) hc) h
  intro hzero
  rw [hzero] at hrange
  exact absurd hrange (by decide)

theorem zeroPadded_ne_slash {width n : Nat} {b : Byte}
    (h : b ∈ zeroPadded width n) : b ≠ 47 := by
  have hrange := toNat_of_mem_map (fun c hc => isDigit_of_mem_padded hc) h
  intro hslash
  rw [hslash] at hrange
  exact absurd hrange (by decide)

theorem zeroPadded_ne_nil (width n : Nat) : zeroPadded width n ≠ [] := by
  intro h
  have hdigits := List.append_eq_nil_iff.mp (List.map_eq_nil_iff.mp h)
  exact Nat.toDigits_ne_nil hdigits.2

end Foundation
end Apue
