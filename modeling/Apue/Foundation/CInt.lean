/-!
# Values of type int

An expression of type `int` is evaluated over the integers and fails when its
value is not one of the type.
-/

namespace Apue
namespace Foundation

universe u v

variable {ε : Type u} {α β : Type v}

def INT_MIN : Int := -2147483648
def INT_MAX : Int := 2147483647

def IsInt (x : Int) : Prop :=
  INT_MIN ≤ x ∧ x ≤ INT_MAX

instance (x : Int) : Decidable (IsInt x) :=
  inferInstanceAs (Decidable (INT_MIN ≤ x ∧ x ≤ INT_MAX))

/-- The value of an expression; `overflow` makes a fault of one that is not an
`int`. -/
def int (overflow : Int -> ε) (x : Int) : Except ε Int :=
  if IsInt x then Except.ok x else Except.error (overflow x)

theorem IsInt.of_bounds {x : Int} (hlo : -1 ≤ x) (hhi : x ≤ INT_MAX) : IsInt x := by
  refine ⟨?_, hhi⟩
  unfold INT_MIN
  lia

theorem IsInt.half {x : Int} (hlo : 0 ≤ x) (hhi : x ≤ INT_MAX) :
    IsInt (Int.tdiv x 2) := by
  rw [Int.tdiv_eq_ediv_of_nonneg hlo]
  apply IsInt.of_bounds
  · lia
  · lia

theorem int_ok (overflow : Int -> ε) {x : Int} (h : IsInt x) :
    int overflow x = Except.ok x :=
  if_pos h

theorem int_overflow (overflow : Int -> ε) {x : Int} (h : INT_MAX < x) :
    int overflow x = Except.error (overflow x) :=
  if_neg (fun hx => Int.not_lt.mpr hx.2 h)

/-!
# Conversion to int

A number that is not an `int` keeps its last 32 bits.
-/

def toInt (x : Int) : Int :=
  if x % 4294967296 ≤ INT_MAX then x % 4294967296 else x % 4294967296 - 4294967296

theorem isInt_toInt (x : Int) : IsInt (toInt x) := by
  unfold toInt IsInt INT_MIN INT_MAX
  split
  · omega
  · omega

theorem toInt_of_isInt {x : Int} (h : IsInt x) : toInt x = x := by
  unfold IsInt INT_MIN INT_MAX at h
  unfold toInt INT_MAX
  split
  · omega
  · omega

theorem toInt_le {x : Int} (h : 0 ≤ x) : toInt x ≤ x := by
  unfold toInt INT_MAX
  split
  · omega
  · omega

theorem bind_eq_ok {x : Except ε α} {f : α -> Except ε β} {b : β}
    (h : x >>= f = Except.ok b) : exists a, x = Except.ok a ∧ f a = Except.ok b := by
  cases x with
  | error e => cases h
  | ok a => exact ⟨a, rfl, h⟩

end Foundation
end Apue
