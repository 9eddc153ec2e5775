import Mathlib.Data.List.GetD
import Apue.Foundation.CString

/-!
# Files mapped into memory

A shared mapping shows the file itself: a load reads it and a store is carried
through to it.  The mapping and the file both end with a whole page; behind the
end of the file, in its last page, there are zeros, and what is stored there is
not part of the file.
-/

namespace Apue
namespace Kernel

open Foundation

/-- The size of a page, which is at least two bytes. -/
structure PageSize where
  bytes : Nat
  two_le : 2 ≤ bytes

/-- The signals that an access outside of a mapping or of its file brings about. -/
inductive Fault where
  | SIGSEGV (index : Nat)
  | SIGBUS (index : Nat)
  deriving Repr, DecidableEq

namespace PageSize

def roundUp (p : PageSize) (n : Nat) : Nat :=
  (n + (p.bytes - 1)) / p.bytes * p.bytes

theorem le_roundUp (p : PageSize) (n : Nat) : n ≤ p.roundUp n := by
  have hpos : 0 < p.bytes := Nat.lt_of_lt_of_le Nat.two_pos p.two_le
  have hsum := Nat.div_add_mod' (n + (p.bytes - 1)) p.bytes
  have hmod := Nat.mod_lt (n + (p.bytes - 1)) hpos
  unfold roundUp
  lia

theorem bytes_le_roundUp (p : PageSize) {n : Nat} (h : 0 < n) :
    p.bytes ≤ p.roundUp n := by
  have hle := p.le_roundUp n
  unfold roundUp at hle ⊢
  apply Nat.le_mul_of_pos_left
  apply Nat.pos_of_ne_zero
  intro hzero
  rw [hzero, Nat.zero_mul] at hle
  exact absurd h (Nat.not_lt_of_le hle)

/-- An access to the byte `i` of a mapping of `len` bytes of a file. -/
def check (p : PageSize) (len : Nat) (file : List Byte) (i : Nat) :
    Except Fault Unit :=
  if p.roundUp len ≤ i then Except.error (Fault.SIGSEGV i)
  else if p.roundUp file.length ≤ i then Except.error (Fault.SIGBUS i)
  else Except.ok ()

def load (p : PageSize) (len : Nat) (file : List Byte) (i : Nat) :
    Except Fault Byte :=
  match p.check len file i with
  | Except.error f => Except.error f
  | Except.ok _ => Except.ok (file.getD i 0)

def store (p : PageSize) (len : Nat) (file : List Byte) (i : Nat) (x : Byte) :
    Except Fault (List Byte) :=
  match p.check len file i with
  | Except.error f => Except.error f
  | Except.ok _ => Except.ok (file.set i x)

def copyFrom (p : PageSize) (len : Nat) (src : List Byte) :
    Nat -> Nat -> List Byte -> Except Fault (List Byte)
  | 0, _, dst => Except.ok dst
  | k + 1, i, dst =>
      match p.load len src i with
      | Except.error f => Except.error f
      | Except.ok x =>
          match p.store len dst i x with
          | Except.error f => Except.error f
          | Except.ok dst => copyFrom p len src k (i + 1) dst

/-- `memcpy` between two mappings of `len` bytes. -/
def memcpy (p : PageSize) (len : Nat) (dst src : List Byte) :
    Except Fault (List Byte) :=
  copyFrom p len src len 0 dst

theorem check_ok (p : PageSize) {len : Nat} {file : List Byte} {i : Nat}
    (hlen : i < p.roundUp len) (hfile : i < p.roundUp file.length) :
    p.check len file i = Except.ok () := by
  unfold check
  rw [if_neg (Nat.not_le_of_lt hlen), if_neg (Nat.not_le_of_lt hfile)]

theorem load_ok (p : PageSize) {len : Nat} {file : List Byte} {i : Nat}
    (hlen : i < p.roundUp len) (hfile : i < p.roundUp file.length) :
    p.load len file i = Except.ok (file.getD i 0) := by
  unfold load
  rw [p.check_ok hlen hfile]

theorem store_ok (p : PageSize) {len : Nat} {file : List Byte} {i : Nat}
    (x : Byte) (hlen : i < p.roundUp len) (hfile : i < p.roundUp file.length) :
    p.store len file i x = Except.ok (file.set i x) := by
  unfold store
  rw [p.check_ok hlen hfile]

/-- Once the bytes in front of `i` are those of the source, the copy goes on to
the end. -/
theorem copyFrom_ok (p : PageSize) {len : Nat} {src dst : List Byte} {k i : Nat}
    (hsrc : src.length = len) (hdst : dst.length = len) (hk : i + k = len)
    (hfront : dst.take i = src.take i) :
    p.copyFrom len src k i dst = Except.ok src := by
  induction k generalizing i dst with
  | zero =>
      have hi : i = len := hk
      rw [hi, List.take_of_length_le (Nat.le_of_eq hdst),
        List.take_of_length_le (Nat.le_of_eq hsrc)] at hfront
      rw [hfront]
      rfl
  | succ k ih =>
      have hi : i < len := by lia
      have hlen := Nat.lt_of_lt_of_le hi (p.le_roundUp len)
      have hisrc : i < src.length := by lia
      have hget : src.getD i 0 = src[i] := List.getD_eq_getElem src 0 hisrc
      unfold copyFrom
      rw [p.load_ok hlen (by rw [hsrc]; exact hlen)]
      dsimp only
      rw [p.store_ok _ hlen (by rw [hdst]; exact hlen)]
      dsimp only
      apply ih
      · rw [List.length_set, hdst]
      · lia
      · rw [hget, take_set_succ (by lia), hfront,
          List.take_succ_eq_append_getElem hisrc]

theorem memcpy_ok (p : PageSize) {len : Nat} {src dst : List Byte}
    (hsrc : src.length = len) (hdst : dst.length = len) :
    p.memcpy len dst src = Except.ok src :=
  p.copyFrom_ok hsrc hdst (Nat.zero_add len) rfl

end PageSize

end Kernel
end Apue
