import Apue.Foundation.CInt
import Apue.Foundation.Strcmp

/-!
# The environment list

The search loops compare an entry with the first `len` bytes of the name and the
byte behind them with an equals sign.  `len` is an `int`: the length of a name that
is longer than `INT_MAX` comes out as another number, which may be negative.
-/

namespace Apue

open Foundation

/-- The limit on the strings that `exec` passes on. -/
def ARG_MAX : Nat := 131072

/-- The strings of `environ` as the program has them from `exec`, which limits both
their lengths and their number. -/
structure Environ where
  strings : List CString
  fits : forall s, s ∈ strings -> s.length < ARG_MAX
  count : (strings.length : Int) ≤ INT_MAX

namespace Environ

/-- `int len = strlen(name)`. -/
def len (name : CString) : Int :=
  toInt name.length

/-- `len` as the argument of `strncmp`, which is a `size_t`. -/
def size (len : Int) : Nat :=
  (len % 18446744073709551616).toNat

/-- A byte at an index; there is nothing in front of the string. -/
def byteAt (memory : List Byte) (i : Int) : Option Byte :=
  if i < 0 then none else memory[i.toNat]?

/-- `strncmp(name, environ[i], len) == 0 && environ[i][len] == '='`; nothing when
it reads outside of the entry. -/
def test (name entry : CString) : Option Bool :=
  if strncmp name.bytes entry.bytes (size (len name)) = 0 then
    (byteAt (entry.bytes ++ [0]) (len name)).map (fun c => c == '='.toUInt8)
  else
    some false

/-- The text from `&environ[i][len+1]` on. -/
def value (name entry : CString) : CString :=
  entry.drop ((len name).toNat + 1)

theorem value_bytes (name entry : CString) :
    (value name entry).bytes = entry.bytes.drop ((len name).toNat + 1) :=
  rfl

theorem value_fits (env : Environ) {name entry : CString}
    (h : entry ∈ env.strings) : (value name entry).length < ARG_MAX :=
  Nat.lt_of_le_of_lt (entry.drop_length_le _) (env.fits entry h)

/-!
# The length as an int
-/

theorem len_of_le {name : CString} (h : (name.length : Int) ≤ INT_MAX) :
    len name = name.length :=
  toInt_of_isInt (IsInt.of_bounds (by omega) h)

theorem len_le (name : CString) : len name ≤ name.length :=
  toInt_le (Int.natCast_nonneg _)

theorem len_lt {name : CString} (h : INT_MAX < (name.length : Int)) :
    len name < name.length :=
  Int.lt_of_le_of_lt (isInt_toInt name.length).2 h

theorem len_le_INT_MAX (name : CString) : len name ≤ INT_MAX :=
  (isInt_toInt name.length).2

theorem size_of_nonneg {name : CString} (h : 0 ≤ len name) :
    size (len name) = (len name).toNat := by
  have hbound := len_le_INT_MAX name
  unfold INT_MAX at hbound
  unfold size
  omega

theorem size_of_le {name : CString} (h : (name.length : Int) ≤ INT_MAX) :
    size (len name) = name.length := by
  rw [size_of_nonneg (by rw [len_of_le h]; exact Int.natCast_nonneg _), len_of_le h]
  exact Int.toNat_natCast _

/-- Only the length of a long name is negative, and then no entry is long enough
for the comparison. -/
theorem size_of_neg {name : CString} (h : len name < 0) :
    ARG_MAX ≤ size (len name) ∧ ARG_MAX ≤ name.length := by
  have hlow : INT_MIN ≤ len name := (isInt_toInt name.length).1
  have hlong : INT_MAX < name.length := by
    apply Int.lt_of_not_ge
    intro hle
    rw [len_of_le hle] at h
    omega
  unfold INT_MAX at hlong
  unfold INT_MIN at hlow
  unfold ARG_MAX size
  omega

/-- The loops read outside of no string of an environment that `exec` has passed
on. -/
theorem test_isSome (env : Environ) (name : CString) {entry : CString}
    (h : entry ∈ env.strings) : exists b, test name entry = some b := by
  have hfits := env.fits entry h
  unfold test
  split
  · next hzero =>
      have hlong : size (len name) ≤ entry.length ∨ name.length ≤ entry.length := by
        rcases Nat.lt_or_ge entry.length (size (len name)) with hlt | hge
        · rcases Nat.lt_or_ge entry.length name.length with hlt' | hge'
          · exact absurd hzero (strncmp_ne_zero name.nulFree hlt' hlt)
          · exact Or.inr hge'
        · exact Or.inl hge
      rcases Int.lt_or_le (len name) 0 with hneg | hnonneg
      · have hsize := size_of_neg hneg
        lia
      · have hle := len_le name
        have hindex : (len name).toNat < (entry.bytes ++ [0]).length := by
          rw [size_of_nonneg hnonneg] at hlong
          rw [List.length_append]
          change _ < entry.length + 1
          omega
        unfold byteAt
        rw [if_neg (Int.not_lt.mpr hnonneg), List.getElem?_eq_getElem hindex]
        exact ⟨_, rfl⟩
  · exact ⟨false, rfl⟩

end Environ
end Apue
