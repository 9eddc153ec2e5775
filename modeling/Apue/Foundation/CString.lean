/-!
# C strings in byte buffers

A buffer is the contents of an allocated block; its length is the number of
bytes allocated.  Every store goes through `poke`, which fails with the
offending index when it would fall outside the block, so that absence of
overflow is a statement about results.
-/

namespace Apue
namespace Foundation

abbrev Byte := UInt8
abbrev Buffer := List Byte

/-- A string as C sees it: the bytes before the terminator. -/
structure CString where
  bytes : List Byte
  nulFree : forall b, b ∈ bytes -> b ≠ 0
  deriving DecidableEq

namespace CString

def length (s : CString) : Nat :=
  s.bytes.length

theorem eq_of_bytes {s t : CString} (h : s.bytes = t.bytes) : s = t := by
  cases s
  cases t
  cases h
  rfl

def ofBytes (bytes : List Byte) (h : bytes.all (fun b => b ≠ 0) = true) :
    CString where
  bytes := bytes
  nulFree := by
    intro b hb
    simpa using List.all_eq_true.mp h b hb

def append (s t : CString) : CString where
  bytes := s.bytes ++ t.bytes
  nulFree := by
    intro b hb
    rcases List.mem_append.mp hb with hs | ht
    · exact s.nulFree b hs
    · exact t.nulFree b ht

@[simp] theorem append_length (s t : CString) :
    (s.append t).length = s.length + t.length :=
  List.length_append

def take (s : CString) (n : Nat) : CString where
  bytes := s.bytes.take n
  nulFree := fun b hb => s.nulFree b (List.mem_of_mem_take hb)

def drop (s : CString) (n : Nat) : CString where
  bytes := s.bytes.drop n
  nulFree := fun b hb => s.nulFree b (List.mem_of_mem_drop hb)

def replicate (n : Nat) (x : Byte) (hx : x ≠ 0) : CString where
  bytes := List.replicate n x
  nulFree := by
    intro b hb
    rw [(List.mem_replicate.mp hb).2]
    exact hx

theorem replicate_length (n : Nat) {x : Byte} (hx : x ≠ 0) :
    (replicate n x hx).length = n :=
  List.length_replicate

theorem drop_length_le (s : CString) (n : Nat) : (s.drop n).length ≤ s.length := by
  unfold length drop
  rw [List.length_drop]
  exact Nat.sub_le _ _

theorem take_of_length_le {s : CString} {n : Nat} (h : s.length ≤ n) :
    s.take n = s :=
  eq_of_bytes (List.take_of_length_le h)

end CString

theorem letter_ne_nul : (97 : Byte) ≠ 0 := by
  decide

/-!
# Stores
-/

/-- One store; outside the block it fails with the index. -/
def poke (b : Buffer) (i : Nat) (x : Byte) : Except Nat Buffer :=
  if i < b.length then Except.ok (b.set i x) else Except.error i

/-- `strcpy(b + i, s)`: the bytes one after another, then the terminator. -/
def strcpy (b : Buffer) (i : Nat) : List Byte -> Except Nat Buffer
  | [] => poke b i 0
  | x :: rest =>
      match poke b i x with
      | Except.error j => Except.error j
      | Except.ok b => strcpy b (i + 1) rest

/-- `strncpy(b, s, n)` into a block of `n` bytes pads with zero bytes. -/
def strncpy (s : List Byte) (n : Nat) : Buffer :=
  s.take n ++ List.replicate (n - s.length) 0

/-- `snprintf(b, sizeof(b), ...)`: as much of the text as fits with a terminator;
the bytes behind it stay. -/
def snprintf (b : Buffer) (s : List Byte) : Buffer :=
  s.take (b.length - 1) ++ 0 :: b.drop (min s.length (b.length - 1) + 1)

def str (b : Buffer) : List Byte :=
  b.takeWhile (fun x => x ≠ 0)

theorem poke_ok {b : Buffer} {i : Nat} (x : Byte) (h : i < b.length) :
    poke b i x = Except.ok (b.set i x) :=
  if_pos h

theorem poke_error {b : Buffer} {i : Nat} (x : Byte) (h : b.length ≤ i) :
    poke b i x = Except.error i :=
  if_neg (Nat.not_lt.mpr h)

/-!
# Buffers that hold a string
-/

structure Spells (b : Buffer) (s : CString) : Prop where
  front : b.take s.length = s.bytes
  nul : b[s.length]? = some 0

theorem Spells.length_lt {b : Buffer} {s : CString} (h : Spells b s) :
    s.length < b.length :=
  (List.getElem?_eq_some_iff.mp h.nul).1

theorem takeWhile_eq_self {xs : List Byte} (h : forall x, x ∈ xs -> x ≠ 0)
    (rest : List Byte) :
    (xs ++ 0 :: rest).takeWhile (fun x => x ≠ 0) = xs := by
  induction xs with
  | nil => rfl
  | cons x xs ih =>
      have hx : x ≠ 0 := h x List.mem_cons_self
      rw [List.cons_append, List.takeWhile_cons_of_pos (by simpa using hx),
        ih (fun y hy => h y (List.mem_cons_of_mem x hy))]

theorem eq_of_take_of_getElem? {b : Buffer} {n : Nat} {x : Byte}
    (h : b[n]? = some x) : b = b.take n ++ x :: b.drop (n + 1) := by
  rcases List.getElem?_eq_some_iff.mp h with ⟨hn, hx⟩
  rw [← hx, ← List.drop_eq_getElem_cons hn, List.take_append_drop]

theorem Spells.str_eq {b : Buffer} {s : CString} (h : Spells b s) :
    str b = s.bytes := by
  unfold str
  rw [eq_of_take_of_getElem? h.nul, h.front]
  exact takeWhile_eq_self s.nulFree _

theorem spells_set_nul {b : Buffer} {s : CString}
    (hfront : b.take s.length = s.bytes) (hlt : s.length < b.length) :
    Spells (b.set s.length 0) s := by
  constructor
  · rw [List.take_set_of_le (Nat.le_refl _)]
    exact hfront
  · exact List.getElem?_set_self hlt

theorem take_set_succ {b : Buffer} {n : Nat} {x : Byte} (h : n < b.length) :
    (b.set n x).take (n + 1) = b.take n ++ [x] := by
  rw [List.take_add_one, List.take_set_of_le (Nat.le_refl _),
    List.getElem?_set_self h]
  rfl

/--
`strcpy` behind a prefix, when it fits: the buffer spells the prefix followed by
the copied string and keeps its length.
-/
theorem strcpy_ok {b : Buffer} (pre s : CString)
    (hfront : b.take pre.length = pre.bytes)
    (hfit : pre.length + s.length < b.length) :
    exists b', strcpy b pre.length s.bytes = Except.ok b' ∧
      b'.length = b.length ∧ Spells b' (pre.append s) := by
  rcases s with ⟨bytes, nulFree⟩
  change pre.length + bytes.length < b.length at hfit
  induction bytes generalizing b pre with
  | nil =>
      have hlt : pre.length < b.length := by
        simpa using hfit
      refine ⟨b.set pre.length 0, poke_ok 0 hlt, List.length_set, ?_⟩
      have hpre : pre.append ⟨[], nulFree⟩ = pre :=
        CString.eq_of_bytes (List.append_nil _)
      rw [hpre]
      exact spells_set_nul hfront hlt
  | cons x rest ih =>
      rw [List.length_cons] at hfit
      have hlt : pre.length < b.length := by lia
      let one : CString :=
        { bytes := [x]
          nulFree := by
            intro y hy
            rw [List.mem_singleton.mp hy]
            exact nulFree x List.mem_cons_self }
      have hone : (pre.append one).length = pre.length + 1 := by
        rw [CString.append_length]
        rfl
      have hfront' :
          (b.set pre.length x).take (pre.append one).length =
            (pre.append one).bytes := by
        rw [hone, take_set_succ hlt, hfront]
        rfl
      have hfit' :
          (pre.append one).length + rest.length <
            (b.set pre.length x).length := by
        rw [hone, List.length_set]
        lia
      rcases ih (pre.append one) hfront'
          (fun y hy => nulFree y (List.mem_cons_of_mem x hy)) hfit' with
        ⟨b', hcopy, hlen, hspells⟩
      refine ⟨b', ?_, ?_, ?_⟩
      · unfold strcpy
        rw [poke_ok x hlt]
        rw [hone] at hcopy
        exact hcopy
      · rw [hlen, List.length_set]
      · have heq : (pre.append one).append
              ⟨rest, fun y hy => nulFree y (List.mem_cons_of_mem x hy)⟩ =
            pre.append ⟨x :: rest, nulFree⟩ :=
          CString.eq_of_bytes (List.append_assoc _ _ _)
        rw [← heq]
        exact hspells

theorem strcpy_start {b : Buffer} (s : CString) (hfit : s.length < b.length) :
    exists b', strcpy b 0 s.bytes = Except.ok b' ∧
      b'.length = b.length ∧ Spells b' s := by
  let empty : CString := ⟨[], fun _ hx => nomatch hx⟩
  have hfit' : empty.length + s.length < b.length := by
    simpa [empty, CString.length] using hfit
  exact strcpy_ok empty s rfl hfit'

theorem strcpy_length {b b' : Buffer} {i : Nat} {s : List Byte}
    (h : strcpy b i s = Except.ok b') : b'.length = b.length := by
  induction s generalizing b i with
  | nil =>
      unfold strcpy poke at h
      split at h
      · cases h
        exact List.length_set
      · cases h
  | cons x rest ih =>
      unfold strcpy poke at h
      split at h
      · cases h
      · next next hnext =>
          split at hnext
          · cases hnext
            rw [ih h, List.length_set]
          · cases hnext

theorem strcpy_error {b : Buffer} {i : Nat} {s : List Byte}
    (hbig : b.length ≤ i + s.length) :
    exists j, strcpy b i s = Except.error j ∧ b.length ≤ j := by
  induction s generalizing b i with
  | nil =>
      have hle : b.length ≤ i := by simpa using hbig
      exact ⟨i, poke_error 0 hle, hle⟩
  | cons x rest ih =>
      rw [List.length_cons] at hbig
      unfold strcpy
      by_cases hlt : i < b.length
      · rw [poke_ok x hlt]
        have hbig' : (b.set i x).length ≤ i + 1 + rest.length := by
          rw [List.length_set]
          lia
        rcases ih hbig' with ⟨j, hj, hle⟩
        rw [List.length_set] at hle
        exact ⟨j, hj, hle⟩
      · have hle : b.length ≤ i := Nat.not_lt.mp hlt
        rw [poke_error x hle]
        exact ⟨i, rfl, hle⟩

theorem spells_strncpy (s : CString) {n : Nat} (hn : 0 < n) :
    poke (strncpy s.bytes n) (n - 1) 0 =
        Except.ok ((strncpy s.bytes n).set (n - 1) 0) ∧
      ((strncpy s.bytes n).set (n - 1) 0).length = n ∧
      Spells ((strncpy s.bytes n).set (n - 1) 0) (s.take (n - 1)) := by
  have hlen : (strncpy s.bytes n).length = n := by
    unfold strncpy
    rw [List.length_append, List.length_take, List.length_replicate]
    lia
  refine ⟨poke_ok 0 (by lia), by rw [List.length_set, hlen], ?_⟩
  by_cases hshort : s.length < n
  · have htake : s.take (n - 1) = s := CString.take_of_length_le (by lia)
    have hbytes : strncpy s.bytes n =
        s.bytes ++ List.replicate (n - s.length) 0 := by
      unfold strncpy
      rw [List.take_of_length_le (Nat.le_of_lt hshort)]
      rfl
    rw [htake]
    constructor
    · rw [List.take_set_of_le (by lia), hbytes]
      exact List.take_left
    · have hget : (strncpy s.bytes n)[s.length]? = some 0 := by
        change (strncpy s.bytes n)[s.bytes.length]? = some 0
        rw [hbytes, List.getElem?_append_right (Nat.le_refl _), Nat.sub_self,
          List.getElem?_replicate, if_pos (by lia)]
      rw [List.getElem?_set]
      by_cases heq : n - 1 = s.length
      · rw [if_pos heq, if_pos (by lia)]
      · rw [if_neg heq]
        exact hget
  · have hle : n ≤ s.bytes.length := Nat.not_lt.mp hshort
    have hbytes : strncpy s.bytes n = s.bytes.take n := by
      unfold strncpy
      rw [Nat.sub_eq_zero_of_le hle, List.replicate_zero, List.append_nil]
    have htakelen : (s.take (n - 1)).length = n - 1 := by
      change (s.bytes.take (n - 1)).length = n - 1
      rw [List.length_take]
      lia
    have hfront : (strncpy s.bytes n).take (s.take (n - 1)).length =
        (s.take (n - 1)).bytes := by
      rw [htakelen, hbytes, List.take_take, Nat.min_eq_left (Nat.sub_le n 1)]
      rfl
    have hspells := spells_set_nul hfront (by rw [htakelen, hlen]; lia)
    rw [htakelen] at hspells
    exact hspells

theorem snprintf_length {b : Buffer} (s : List Byte) (hb : 0 < b.length) :
    (snprintf b s).length = b.length := by
  unfold snprintf
  rw [List.length_append, List.length_take, List.length_cons, List.length_drop]
  lia

theorem spells_snprintf (b : Buffer) (s : CString) :
    Spells (snprintf b s.bytes) (s.take (b.length - 1)) := by
  constructor
  · exact List.take_left
  · unfold snprintf
    change (s.bytes.take (b.length - 1) ++ _)[(s.bytes.take _).length]? = some 0
    rw [List.getElem?_append_right (Nat.le_refl _), Nat.sub_self]
    rfl

theorem Spells.unique {b : Buffer} {s t : CString} (hs : Spells b s)
    (ht : Spells b t) : s = t :=
  CString.eq_of_bytes (hs.str_eq.symm.trans ht.str_eq)

end Foundation
end Apue
