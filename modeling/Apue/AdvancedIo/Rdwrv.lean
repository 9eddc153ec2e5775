import Apue.Foundation.CInt
import Apue.Foundation.CString
import Apue.Foundation.Scatter

/-!
# readv into several buffers, and writing them again

The program gathers three strings into a file, reads the file into three buffers
of 15 bytes, and writes each buffer as far as it was filled.  How much is left to
write is counted in an `int`, which is compared with a length of type `size_t`:
once the count has become negative, it compares as a very large number.
-/

namespace Apue
namespace Rdwrv

open Foundation

/-- An `int` as a `size_t`. -/
def toSize (n : Int) : Int :=
  n % 18446744073709551616

/-- The third argument of `write`. -/
def count (total : Int) (iov_len : Nat) : Nat :=
  if toSize total > iov_len then iov_len else (toSize total).toNat

/-- The loop over `readvbuf`: what each `write` is given. -/
def printLoop : Int -> List (List Byte) -> List (List Byte)
  | _, [] => []
  | total, b :: rest =>
      b.take (count total b.length) ::
        printLoop (toInt (toSize total - b.length)) rest

/-- `readv` of a file from its beginning: how much was read, and the buffers. -/
def readv (bufs : List (List Byte)) (file : List Byte) : Int × List (List Byte) :=
  (min (room bufs) file.length, scatter bufs file)

/-- From `readv` on. -/
def readAndPrint (bufs : List (List Byte)) (file : List Byte) : List (List Byte) :=
  printLoop (readv bufs file).1 (readv bufs file).2

/-!
# The count
-/

def INT_RANGE : Nat := 2147483648

theorem toInt_eq {n : Int} (hlo : -INT_RANGE ≤ n) (hhi : n < INT_RANGE) :
    toInt n = n := by
  unfold INT_RANGE at hlo hhi
  apply toInt_of_isInt
  unfold IsInt INT_MIN INT_MAX
  lia

theorem toSize_of_nonneg {n : Nat} (h : n < INT_RANGE) : toSize n = n := by
  unfold INT_RANGE at h
  unfold toSize
  lia

theorem toSize_of_neg {n : Int} (hlo : -INT_RANGE ≤ n) (hneg : n < 0) :
    toSize n = n + 18446744073709551616 := by
  unfold INT_RANGE at hlo
  unfold toSize
  lia

theorem count_of_nonneg {n : Nat} (h : n < INT_RANGE) (len : Nat) :
    count n len = min n len := by
  unfold count
  rw [toSize_of_nonneg h]
  split
  · lia
  · lia

theorem count_of_neg {n : Int} {len : Nat} (hlo : -INT_RANGE ≤ n) (hneg : n < 0)
    (hlen : len < INT_RANGE) : count n len = len := by
  unfold count
  rw [toSize_of_neg hlo hneg]
  unfold INT_RANGE at hlo hlen
  rw [if_pos (by lia)]

theorem next_of_nonneg {n len : Nat} (hn : n < INT_RANGE) (hlen : len < INT_RANGE) :
    toInt (toSize n - len) = (n : Int) - len := by
  rw [toSize_of_nonneg hn]
  apply toInt_eq
  · lia
  · lia

theorem printLoop_cons {n : Nat} {b : List Byte} {rest : List (List Byte)}
    (hn : n < INT_RANGE) (hb : b.length < INT_RANGE) :
    printLoop n (b :: rest) =
      b.take (min n b.length) :: printLoop ((n : Int) - b.length) rest := by
  have hunfold : printLoop n (b :: rest) =
      b.take (count n b.length) :: printLoop (toInt (toSize n - b.length)) rest := rfl
  rw [hunfold, count_of_nonneg hn, next_of_nonneg hn hb]

/-!
# What the loop writes
-/

def before (bufs : List (List Byte)) : Nat :=
  room bufs.dropLast

theorem before_cons_cons (b c : List Byte) (rest : List (List Byte)) :
    before (b :: c :: rest) = b.length + before (c :: rest) := by
  unfold before
  rw [List.dropLast_cons_of_ne_nil (List.cons_ne_nil c rest), room_cons]

theorem before_le (bufs : List (List Byte)) : before bufs ≤ room bufs := by
  induction bufs with
  | nil => exact Nat.le_refl 0
  | cons b rest ih =>
      cases rest with
      | nil => exact Nat.zero_le _
      | cons c rest =>
          rw [before_cons_cons, room_cons]
          exact Nat.add_le_add_left ih _

theorem printLoop_flatten {n : Nat} {bufs : List (List Byte)}
    (hn : n < INT_RANGE) (hroom : room bufs < INT_RANGE) (h : before bufs ≤ n) :
    (printLoop n bufs).flatten = bufs.flatten.take n := by
  induction bufs generalizing n with
  | nil =>
      show ([] : List Byte) = [].take n
      rw [List.take_nil]
  | cons b rest ih =>
      rw [room_cons] at hroom
      rw [printLoop_cons hn (by lia), List.flatten_cons, List.flatten_cons]
      cases rest with
      | nil =>
          show b.take (min n b.length) ++ [] = (b ++ []).take n
          rw [List.append_nil, List.append_nil, ← List.take_take, List.take_length]
      | cons c rest =>
          rw [before_cons_cons] at h
          have hcast : (n : Int) - b.length = ((n - b.length : Nat) : Int) := by lia
          have hle : b.length ≤ n := by lia
          rw [hcast, ih (by lia) (by lia) (by lia), Nat.min_eq_right hle,
            List.take_length, List.take_append, List.take_of_length_le hle]

theorem printLoop_length_of_neg {n : Int} {b : List Byte} {rest : List (List Byte)}
    (hlo : -INT_RANGE ≤ n) (hneg : n < 0) (hb : b.length < INT_RANGE) :
    b.length ≤ (printLoop n (b :: rest)).flatten.length := by
  show _ ≤ (b.take (count n b.length) :: printLoop _ rest).flatten.length
  rw [count_of_neg hlo hneg hb, List.take_length, List.flatten_cons,
    List.length_append]
  exact Nat.le_add_right _ _

theorem printLoop_length {n : Nat} {bufs : List (List Byte)}
    (hroom : room bufs < INT_RANGE) (hne : forall b, b ∈ bufs -> b ≠ [])
    (h : n < before bufs) : n < (printLoop n bufs).flatten.length := by
  induction bufs generalizing n with
  | nil => exact absurd h (Nat.not_lt_zero n)
  | cons b rest ih =>
      cases rest with
      | nil => exact absurd h (Nat.not_lt_zero n)
      | cons c rest =>
          rw [before_cons_cons] at h
          have hbefore := before_le (c :: rest)
          rw [room_cons] at hroom
          rw [printLoop_cons (by lia) (by lia), List.flatten_cons, List.length_append,
            List.length_take, Nat.min_assoc, Nat.min_self]
          by_cases hle : b.length ≤ n
          · have hcast : (n : Int) - b.length = ((n - b.length : Nat) : Int) := by lia
            have hrest := @ih (n - b.length) (by lia)
              (fun d hd => hne d (List.mem_cons_of_mem b hd)) (by lia)
            rw [hcast]
            lia
          · rw [room_cons] at hroom
            have hc : c ≠ [] := hne c (List.mem_cons_of_mem b List.mem_cons_self)
            have hpos := List.length_pos_iff.mpr hc
            have hrest := @printLoop_length_of_neg ((n : Int) - b.length) c rest
              (by lia) (by lia) (by lia)
            lia

/-!
# What is read is what is written
-/

theorem room_scatter (bufs : List (List Byte)) (data : List Byte) :
    room (scatter bufs data) = room bufs := by
  unfold room
  rw [List.length_flatten, List.length_flatten, map_length_scatter]

theorem before_eq_of_lengths {bufs bufs' : List (List Byte)}
    (h : bufs.map List.length = bufs'.map List.length) : before bufs = before bufs' := by
  unfold before room
  rw [List.length_flatten, List.length_flatten, List.map_dropLast, List.map_dropLast, h]

theorem ne_nil_of_lengths {bufs bufs' : List (List Byte)}
    (h : bufs.map List.length = bufs'.map List.length)
    (hne : forall b, b ∈ bufs' -> b ≠ []) : forall b, b ∈ bufs -> b ≠ [] := by
  intro b hb hnil
  have hmem : (0 : Nat) ∈ bufs'.map List.length := by
    rw [← h]
    exact List.mem_map.mpr ⟨b, hb, by rw [hnil]; rfl⟩
  rcases List.mem_map.mp hmem with ⟨b', hb', hzero⟩
  exact hne b' hb' (List.length_eq_zero_iff.mp hzero)

theorem readv_fst (bufs : List (List Byte)) (file : List Byte) :
    (readv bufs file).1 = ((min (room bufs) file.length : Nat) : Int) := by
  show min (room bufs : Int) file.length = _
  lia

theorem readAndPrint_full {bufs : List (List Byte)} {file : List Byte}
    (hroom : room bufs < INT_RANGE) (h : before bufs ≤ file.length) :
    (readAndPrint bufs file).flatten = file.take (room bufs) := by
  have hbefore : before (scatter bufs file) = before bufs :=
    before_eq_of_lengths (map_length_scatter bufs file)
  have hle := before_le bufs
  unfold readAndPrint
  rw [readv_fst]
  show (printLoop _ (scatter bufs file)).flatten = _
  rw [printLoop_flatten (by lia) (by rw [room_scatter]; exact hroom)
    (by rw [hbefore]; lia), flatten_scatter]
  have hfront : (file.take (room bufs)).length = min (room bufs) file.length :=
    List.length_take
  rw [← hfront, List.take_left]

/-- "tian xia ", "you qing ren " and "zhong cheng juan shu". -/
def buf : List (List Byte) :=
  [[116, 105, 97, 110, 32, 120, 105, 97, 32],
    [121, 111, 117, 32, 113, 105, 110, 103, 32, 114, 101, 110, 32],
    [122, 104, 111, 110, 103, 32, 99, 104, 101, 110, 103, 32, 106, 117, 97, 110, 32,
      115, 104, 117]]

/-- The three parts of `rbuf`, with what they hold before. -/
def readvbuf (rbuf : List Byte) : List (List Byte) :=
  [rbuf.take 15, (rbuf.drop 15).take 15, (rbuf.drop 30).take 15]

/-- `writev` at the beginning of the file that was there. -/
def written (old : List Byte) : List Byte :=
  buf.flatten ++ old.drop buf.flatten.length

def main (old rbuf : List Byte) : List (List Byte) :=
  readAndPrint (readvbuf rbuf) (written old)

theorem main_writes (old rbuf : List Byte) (h : rbuf.length = 1024) :
    (main old rbuf).flatten = buf.flatten ++ (old.drop 42).take 3 := by
  have hlengths : (readvbuf rbuf).map List.length = [15, 15, 15] := by
    unfold readvbuf
    simp [h]
  have hroom : room (readvbuf rbuf) = 45 := by
    unfold room
    rw [List.length_flatten, hlengths]
    rfl
  have hbefore : before (readvbuf rbuf) = 30 := by
    unfold before room
    rw [List.length_flatten, List.map_dropLast, hlengths]
    rfl
  have hfile : 42 ≤ (written old).length := by
    unfold written
    rw [List.length_append]
    exact Nat.le_add_right 42 _
  unfold main
  rw [readAndPrint_full (by rw [hroom]; decide) (by rw [hbefore]; lia), hroom]
  unfold written
  rw [List.take_append, List.take_of_length_le (by decide)]
  rfl

end Rdwrv
end Apue
