import Apue.Foundation.Block
import Apue.Foundation.Rounds
import Apue.Ipc.Add2

/-!
# add2 as a filter

The loop of `add2` with its buffer: what `read` delivers is terminated, scanned,
and answered out of the same buffer.  The sum of two `int`s that is not an `int`
is an overflow, after which nothing is known.
-/

namespace Apue
namespace Add2

open Foundation

inductive Fault where
  | outside (index : Nat)
  | overflow (int1 int2 : Int)
  deriving Repr, DecidableEq

structure Exit where
  status : Nat
  stdout : List Byte
  deriving Repr, DecidableEq

structure State where
  line : Block 1024
  stdout : List Byte
  deriving DecidableEq

structure Turn where
  chunk : Chunk 1024
  write : WriteAnswer
  deriving Repr, DecidableEq

/-- `int1 + int2` -/
def plusInt (int1 int2 : Int) : Except Fault Int :=
  if INT_MIN ≤ int1 + int2 ∧ int1 + int2 ≤ INT_MAX then
    Except.ok (int1 + int2)
  else
    Except.error (Fault.overflow int1 int2)

/-- `if (write(STDOUT_FILENO, text, n) != n) exit(1);` -/
def reply (s : State) (text : List Byte) (w : WriteAnswer) :
    Round Fault State Exit :=
  let stdout := s.stdout ++ w.taken text
  if w.full text then
    Round.next { s with stdout }
  else
    Round.leave { status := 1, stdout }

/-- `line[n] = '\0'` -/
def terminate (line : Block 1024) (c : Chunk 1024) : Except Fault (Block 1024) :=
  match line.fill c.bytes with
  | Except.error i => Except.error (Fault.outside i)
  | Except.ok line =>
      match line.store c.bytes.length 0 with
      | Except.error i => Except.error (Fault.outside i)
      | Except.ok line => Except.ok line

/-- `sprintf(line, "%d\n", ..)` -/
def printLine (line : Block 1024) (n : Int) : Except Fault (Block 1024) :=
  match line.fill (decimalInt n ++ [newline] ++ [0]) with
  | Except.error i => Except.error (Fault.outside i)
  | Except.ok line => Except.ok line

def body (s : State) (t : Turn) : Round Fault State Exit :=
  match terminate s.line t.chunk with
  | Except.error f => Round.fault f
  | Except.ok line =>
      match scanTwo (str line.bytes) with
      | none => reply { s with line } invalidArgs t.write
      | some (int1, int2) =>
          match plusInt int1 int2 with
          | Except.error f => Round.fault f
          | Except.ok sum =>
              match printLine line sum with
              | Except.error f => Round.fault f
              | Except.ok line =>
                  let n := (str line.bytes).length
                  reply { s with line } (line.bytes.take n) t.write

/-- The end of the input and an error of `read` end the loop alike. -/
def finish (s : State) : Exit :=
  { status := 0, stdout := s.stdout }

def filter (line : Block 1024) (turns : List Turn) : Except Fault Exit :=
  rounds body finish { line, stdout := [] } turns

/-!
# What the filter is for
-/

def sumText (text : List Byte) : List Byte :=
  match scanTwo text with
  | none => invalidArgs
  | some (int1, int2) => decimalInt (int1 + int2) ++ [newline]

def Turn.text (t : Turn) : List Byte :=
  sumText (str t.chunk.bytes)

def Turn.leaves (t : Turn) : Bool :=
  !t.write.full t.text

/-- There is no fault, and every answer is the sum. -/
def Sums (line : Block 1024) (turns : List Turn) : Prop :=
  exists e, filter line turns = Except.ok e ∧
    e.stdout = (taken Turn.leaves turns).flatMap (fun t => t.write.taken t.text)

/-- The terminator has room, and the sum is an `int`. -/
structure Turn.Small (t : Turn) : Prop where
  short : t.chunk.bytes.length ≤ 1023
  sum : forall int1 int2, scanTwo (str t.chunk.bytes) = some (int1, int2) ->
    INT_MIN ≤ int1 + int2 ∧ int1 + int2 ≤ INT_MAX

/-!
# One turn of the loop
-/

theorem terminate_ok (line : Block 1024) {c : Chunk 1024}
    (h : c.bytes.length ≤ 1023) :
    exists line', terminate line c = Except.ok line' ∧
      str line'.bytes = str c.bytes := by
  rcases line.terminate_ok (Nat.lt_succ_of_le h) with
    ⟨line', line'', hfill, hstore, hstr⟩
  refine ⟨line'', ?_, hstr⟩
  unfold terminate
  rw [hfill]
  dsimp only
  rw [hstore]

theorem terminate_error (line : Block 1024) {c : Chunk 1024}
    (h : ¬ c.bytes.length ≤ 1023) :
    terminate line c = Except.error (Fault.outside 1024) := by
  have hfits := c.fits
  have hlen : c.bytes.length = 1024 := by lia
  rcases line.fill_ok c.fits with ⟨line', hfill, -⟩
  unfold terminate
  rw [hfill, hlen]
  dsimp only
  rw [line'.store_error 0 (Nat.le_refl 1024)]

theorem decimalInt_nulFree (n : Int) {b : Byte} (h : b ∈ decimalInt n) : b ≠ 0 := by
  unfold decimalInt at h
  split at h
  · rcases List.mem_cons.mp h with heq | hb
    · rw [heq]
      decide
    · exact decimal_nulFree _ hb
  · exact decimal_nulFree _ h

theorem sumLine_nulFree (n : Int) {b : Byte}
    (h : b ∈ decimalInt n ++ [newline]) : b ≠ 0 := by
  rcases List.mem_append.mp h with hb | hb
  · exact decimalInt_nulFree n hb
  · rw [List.mem_singleton.mp hb]
    decide

theorem printLine_ok (line : Block 1024) {n : Int} (h : INT_MIN ≤ n ∧ n ≤ INT_MAX) :
    exists line', printLine line n = Except.ok line' ∧
      line'.bytes.take (str line'.bytes).length = decimalInt n ++ [newline] := by
  have hlength := decimalInt_toInt_length n
  rw [toInt_of_isInt h] at hlength
  have hroom : (decimalInt n ++ [newline]).length < 1024 := by
    rw [List.length_append, List.length_singleton]
    lia
  rcases line.fill_string (fun _ => sumLine_nulFree n) hroom with
    ⟨line', hfill, hstr, htake⟩
  refine ⟨line', ?_, ?_⟩
  · unfold printLine
    rw [hfill]
  · rw [hstr]
    exact htake

theorem plusInt_ok {int1 int2 : Int}
    (h : INT_MIN ≤ int1 + int2 ∧ int1 + int2 ≤ INT_MAX) :
    plusInt int1 int2 = Except.ok (int1 + int2) :=
  if_pos h

theorem body_small (s : State) {t : Turn} (h : t.Small) :
    exists line, body s t = reply { s with line } t.text t.write := by
  rcases terminate_ok s.line h.short with ⟨line, hline, hstr⟩
  unfold body Turn.text sumText
  rw [hline]
  dsimp only
  rw [hstr]
  cases hscan : scanTwo (str t.chunk.bytes) with
  | none => exact ⟨line, rfl⟩
  | some pair =>
      rcases pair with ⟨int1, int2⟩
      have hrange := h.sum int1 int2 hscan
      rcases printLine_ok line hrange with ⟨line', hprint, htake⟩
      refine ⟨line', ?_⟩
      dsimp only
      rw [plusInt_ok hrange]
      dsimp only
      rw [hprint]
      dsimp only
      rw [htake]

theorem body_fault (s : State) {t : Turn} (h : ¬ t.Small) :
    exists f, body s t = Round.fault f := by
  unfold body
  by_cases hshort : t.chunk.bytes.length ≤ 1023
  · rcases terminate_ok s.line hshort with ⟨line, hline, hstr⟩
    rw [hline]
    dsimp only
    rw [hstr]
    cases hscan : scanTwo (str t.chunk.bytes) with
    | none =>
        refine absurd ⟨hshort, fun int1 int2 h => ?_⟩ h
        rw [hscan] at h
        cases h
    | some pair =>
        rcases pair with ⟨int1, int2⟩
        have hrange : ¬ (INT_MIN ≤ int1 + int2 ∧ int1 + int2 ≤ INT_MAX) := by
          intro hrange
          refine h ⟨hshort, fun a b hab => ?_⟩
          rw [hscan] at hab
          cases hab
          exact hrange
        dsimp only
        unfold plusInt
        rw [if_neg hrange]
        exact ⟨_, rfl⟩
  · rw [terminate_error s.line hshort]
    exact ⟨_, rfl⟩

def answered (turns : List Turn) : List Byte :=
  turns.flatMap (fun t => t.write.taken t.text)

theorem answered_snoc (turns : List Turn) (t : Turn) :
    answered (turns ++ [t]) = answered turns ++ t.write.taken t.text := by
  unfold answered
  rw [List.flatMap_append]
  exact congrArg (_ ++ ·) (List.append_nil _)

theorem law :
    Law body finish Turn.Small Turn.leaves (fun past s => s.stdout = answered past)
      (fun past e => e.stdout = answered past) := by
  constructor
  · intro past s t _ hbad
    exact body_fault s hbad
  · intro past s t hs hsmall hleaves
    rcases body_small s hsmall with ⟨line, hbody⟩
    have hshort : t.write.full t.text = false := by
      simpa [Turn.leaves] using hleaves
    unfold reply at hbody
    dsimp only at hbody
    rw [hshort, if_neg Bool.false_ne_true] at hbody
    refine ⟨_, hbody, ?_⟩
    change s.stdout ++ t.write.taken t.text = _
    rw [hs, answered_snoc]
  · intro past s t hs hsmall hleaves
    rcases body_small s hsmall with ⟨line, hbody⟩
    have hfull : t.write.full t.text = true := by
      simpa [Turn.leaves] using hleaves
    unfold reply at hbody
    dsimp only at hbody
    rw [hfull, if_pos rfl] at hbody
    refine ⟨_, hbody, ?_⟩
    change s.stdout ++ t.write.taken t.text = _
    rw [hs, answered_snoc]
  · intro past s hs
    exact hs

/-!
# The whole loop
-/

/-- Exactly when the filter sums: in every turn that is taken the terminator has
room and the sum is an `int`. -/
theorem sums_iff (line : Block 1024) (turns : List Turn) :
    Sums line turns ↔ forall t, t ∈ taken Turn.leaves turns -> t.Small := by
  constructor
  · rintro ⟨e, he, -⟩
    exact (law.of_ok rfl he).left
  · intro hsmall
    exact law.of_good rfl hsmall

def overflowing : Chunk 1024 where
  bytes := [50, 49, 52, 55, 52, 56, 51, 54, 52, 55, 32, 49, 10]
  nonempty := by decide
  fits := by decide

def fullLine : Chunk 1024 where
  bytes := List.replicate 1024 49
  nonempty := List.cons_ne_nil 49 (List.replicate 1023 49)
  fits := Nat.le_of_eq List.length_replicate

/-- The sum of the two numbers is one more than the largest `int`; and where
`read` fills `line`, the terminator is stored behind it. -/
theorem sum_overflows :
    let sum := [{ chunk := overflowing, write := WriteAnswer.wrote 13 }]
    let full := [{ chunk := fullLine, write := WriteAnswer.wrote 13 }]
    filter (Block.zeros 1024) sum = Except.error (Fault.overflow 2147483647 1) ∧
      ¬ Sums (Block.zeros 1024) sum ∧
      filter (Block.zeros 1024) full = Except.error (Fault.outside 1024) ∧
      ¬ Sums (Block.zeros 1024) full := by
  intro sum full
  have hscan : scanTwo (str overflowing.bytes) = some (2147483647, 1) := by decide
  have hsum : filter (Block.zeros 1024) sum =
      Except.error (Fault.overflow 2147483647 1) := by
    rcases terminate_ok (Block.zeros 1024) (c := overflowing) (by decide) with
      ⟨line, hline, hstr⟩
    unfold filter
    rw [rounds_cons, body, hline]
    dsimp only
    rw [hstr, hscan]
    rfl
  have hlong : ¬ fullLine.bytes.length ≤ 1023 := by
    change ¬ (List.replicate 1024 (49 : Byte)).length ≤ 1023
    rw [List.length_replicate]
    decide
  have hfull : filter (Block.zeros 1024) full =
      Except.error (Fault.outside 1024) := by
    unfold filter
    rw [rounds_cons, body, terminate_error _ hlong]
  refine ⟨hsum, ?_, hfull, ?_⟩
  · rintro ⟨e, he, -⟩
    rw [hsum] at he
    cases he
  · rintro ⟨e, he, -⟩
    rw [hfull] at he
    cases he

end Add2
end Apue
