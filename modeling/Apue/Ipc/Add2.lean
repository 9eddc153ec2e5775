import Apue.Foundation.CInt
import Apue.Foundation.Decimal
import Apue.Foundation.Fgets

/-!
# The coprocess add2

`add2` scans two numbers out of what it has read and answers with their sum, or
with a complaint.  An `int` has 32 bits: `%d` converts by way of `long`, which
saturates, and the sum of two `int`s wraps around.
-/

namespace Apue
namespace Add2

open Foundation

def isspace (b : Byte) : Bool :=
  b = 32 || (9 ≤ b && b ≤ 13)

def isdigit (b : Byte) : Bool :=
  48 ≤ b && b ≤ 57

def minus : Byte := 45

def plus : Byte := 43

def LONG_MAX : Int := 9223372036854775807

def LONG_MIN : Int := -9223372036854775808

def toLong (n : Int) : Int :=
  max LONG_MIN (min n LONG_MAX)

def sign : List Byte -> Bool × List Byte
  | [] => (false, [])
  | x :: rest =>
      if x = minus then
        (true, rest)
      else if x = plus then
        (false, rest)
      else
        (false, x :: rest)

/-- `%d`: blanks are skipped; without a digit the conversion fails. -/
def scanInt (s : List Byte) : Option (Int × List Byte) :=
  let (negative, s) := sign (s.dropWhile isspace)
  let digits := s.takeWhile isdigit
  let value : Int := readDecimal digits
  if digits = [] then
    none
  else
    some (toInt (toLong (if negative then -value else value)),
      s.dropWhile isdigit)

/-- `sscanf(line, "%d%d", &int1, &int2) == 2`. -/
def scanTwo (line : List Byte) : Option (Int × Int) :=
  match scanInt line with
  | none => none
  | some (int1, rest) =>
      match scanInt rest with
      | none => none
      | some (int2, _) => some (int1, int2)

def decimalInt (n : Int) : List Byte :=
  if n < 0 then minus :: decimal n.natAbs else decimal n.natAbs

def invalidArgs : List Byte :=
  [105, 110, 118, 97, 108, 105, 100, 32, 97, 114, 103, 115, 10]

def answer (line : List Byte) : List Byte :=
  match scanTwo (str line) with
  | none => invalidArgs
  | some (int1, int2) => decimalInt (toInt (int1 + int2)) ++ [newline]

example : answer [49, 50, 32, 45, 53, 10] = [55, 10] := by decide

/-!
# An answer is never empty and always fits into the reader's buffer
-/

theorem answer_ne_nil (line : List Byte) : answer line ≠ [] := by
  unfold answer
  cases scanTwo (str line) with
  | none => exact List.cons_ne_nil _ _
  | some pair =>
      rcases pair with ⟨int1, int2⟩
      exact List.append_ne_nil_of_right_ne_nil _ (List.cons_ne_nil _ _)

theorem decimal_length_le {n : Nat} (h : n < 4294967296) :
    (decimal n).length ≤ 10 := by
  unfold decimal
  rw [List.length_map]
  exact (Nat.length_toDigits_le_iff (by decide) (by decide)).mpr
    (Nat.lt_trans h (by decide))

theorem decimalInt_toInt_length (n : Int) :
    (decimalInt (toInt n)).length ≤ 11 := by
  rcases isInt_toInt n with ⟨hlow, hhigh⟩
  unfold INT_MIN at hlow
  unfold INT_MAX at hhigh
  have habs : (toInt n).natAbs < 4294967296 := by lia
  have hlength := decimal_length_le habs
  unfold decimalInt
  split
  · rw [List.length_cons]
    lia
  · lia

theorem answer_length_le (line : List Byte) : (answer line).length ≤ 13 := by
  unfold answer
  cases scanTwo (str line) with
  | none => exact Nat.le_refl 13
  | some pair =>
      rcases pair with ⟨int1, int2⟩
      have hlength := decimalInt_toInt_length (int1 + int2)
      change (decimalInt (toInt (int1 + int2)) ++ [newline]).length ≤ 13
      rw [List.length_append, List.length_singleton]
      lia

end Add2
end Apue
