import Apue.Foundation.CString

/-!
# Arrays that read and write work on

A block is an array of a fixed number of bytes.  `read` stores what it delivers
from the beginning of a block; `write` is asked to take some bytes and may take
fewer.
-/

namespace Apue
namespace Foundation

structure Block (n : Nat) where
  bytes : Buffer
  length_eq : bytes.length = n
  deriving DecidableEq

/-- What one `read` of at most `size` bytes delivers before the end of a
stream. -/
structure Chunk (size : Nat) where
  bytes : List Byte
  nonempty : bytes ≠ []
  fits : bytes.length ≤ size
  deriving Repr, DecidableEq

/-- How the last `read` ends a loop: at the end of the stream, or with an
error. -/
inductive Ending where
  | eof
  | failed (errno : Nat)
  deriving Repr, DecidableEq

inductive WriteAnswer where
  | wrote (n : Nat)
  | failed (errno : Nat)
  deriving Repr, DecidableEq

namespace Block

variable {n : Nat}

def zeros (n : Nat) : Block n where
  bytes := List.replicate n 0
  length_eq := List.length_replicate

/-- The assignment `b[i] = x`; outside of the array it fails with the index. -/
def store (b : Block n) (i : Nat) (x : Byte) : Except Nat (Block n) :=
  if i < n then
    Except.ok
      { bytes := b.bytes.set i x
        length_eq := by rw [List.length_set, b.length_eq] }
  else
    Except.error i

/-- The bytes `s` are stored from the beginning on, one after another; the first
that has no room would go to index `n`. -/
def fill (b : Block n) (s : List Byte) : Except Nat (Block n) :=
  if h : s.length ≤ n then
    Except.ok
      { bytes := s ++ b.bytes.drop s.length
        length_eq := by
          rw [List.length_append, List.length_drop, b.length_eq]
          exact Nat.add_sub_of_le h }
  else
    Except.error n

theorem store_error (b : Block n) {i : Nat} (x : Byte) (h : n ≤ i) :
    b.store i x = Except.error i :=
  if_neg (Nat.not_lt_of_le h)

theorem fill_error (b : Block n) {s : List Byte} (h : n < s.length) :
    b.fill s = Except.error n :=
  dif_neg (Nat.not_le_of_lt h)

theorem fill_bytes (b : Block n) {s : List Byte} (h : s.length ≤ n) :
    exists b', b.fill s = Except.ok b' ∧ b'.bytes = s ++ b.bytes.drop s.length :=
  ⟨_, dif_pos h, rfl⟩

theorem fill_ok (b : Block n) {s : List Byte} (h : s.length ≤ n) :
    exists b', b.fill s = Except.ok b' ∧ b'.bytes.take s.length = s :=
  ⟨_, dif_pos h, List.take_left⟩

end Block

theorem str_append_nul (s rest : List Byte) : str (s ++ 0 :: rest) = str s := by
  induction s with
  | nil => rfl
  | cons x s ih =>
      unfold str at ih ⊢
      rw [List.cons_append, List.takeWhile_cons, List.takeWhile_cons, ih]

theorem Block.terminate_ok {n : Nat} (b : Block n) {s : List Byte}
    (h : s.length < n) :
    exists b' b'', b.fill s = Except.ok b' ∧
      b'.store s.length 0 = Except.ok b'' ∧ str b''.bytes = str s := by
  refine ⟨_, _, dif_pos (Nat.le_of_lt h), if_pos h, ?_⟩
  have hdrop : b.bytes.drop s.length ≠ [] := by
    intro hnil
    have hlen := congrArg List.length hnil
    rw [List.length_drop, b.length_eq, List.length_nil] at hlen
    lia
  rcases List.exists_cons_of_ne_nil hdrop with ⟨x, rest, hx⟩
  change str ((s ++ b.bytes.drop s.length).set s.length 0) = str s
  rw [hx, List.set_append_right s.length 0 (Nat.le_refl _), Nat.sub_self,
    List.set_cons_zero]
  exact str_append_nul s rest

theorem Block.fill_string {n : Nat} (b : Block n) {s : List Byte}
    (hnul : forall x, x ∈ s -> x ≠ 0) (h : s.length < n) :
    exists b', b.fill (s ++ [0]) = Except.ok b' ∧ str b'.bytes = s ∧
      b'.bytes.take s.length = s := by
  have hfits : (s ++ [0]).length ≤ n := by
    rw [List.length_append]
    exact h
  refine ⟨_, dif_pos hfits, ?_, ?_⟩
  · change str (s ++ [0] ++ _) = s
    rw [List.append_assoc]
    exact takeWhile_eq_self hnul _
  · change (s ++ [0] ++ _).take s.length = s
    rw [List.append_assoc]
    exact List.take_left

namespace WriteAnswer

def value : WriteAnswer -> Int
  | wrote n => n
  | failed _ => -1

def taken (w : WriteAnswer) (s : List Byte) : List Byte :=
  match w with
  | wrote n => s.take n
  | failed _ => []

def full (w : WriteAnswer) (s : List Byte) : Bool :=
  match w with
  | wrote n => s.length ≤ n
  | failed _ => false

theorem taken_of_full {w : WriteAnswer} {s : List Byte} (h : w.full s = true) :
    w.taken s = s := by
  cases w with
  | wrote n => exact List.take_of_length_le (of_decide_eq_true h)
  | failed errno => cases h

theorem taken_isPrefix (w : WriteAnswer) (s : List Byte) : w.taken s <+: s := by
  cases w with
  | wrote n => exact List.take_prefix n s
  | failed errno => exact List.nil_prefix

end WriteAnswer

end Foundation
end Apue
