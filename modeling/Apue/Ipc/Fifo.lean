import Apue.Foundation.Block
import Apue.Foundation.Fgets
import Apue.Foundation.Rounds

/-!
# The reader of a FIFO

`main` makes the FIFO `tempfifo` and opens it, which waits for a writer.  What it
reads it prints as a string, after it has stored a terminator behind the bytes
of that `read`.  What is printed about errors is kept apart from the data.
-/

namespace Apue
namespace Fifo

open Foundation

inductive Message where
  | mkfifoError (errno : Nat)
  | openError (errno : Nat)
  | readError (errno : Nat)
  deriving Repr, DecidableEq

structure Exit where
  status : Nat
  printed : List Byte
  message : Option Message
  deriving Repr, DecidableEq

structure State where
  line : Block 1024
  printed : List Byte
  deriving DecidableEq

/-- `line[n] = '\0'; printf("%s", line);` -/
def body (s : State) (c : Chunk 1024) : Round Nat State Exit :=
  match s.line.fill c.bytes with
  | Except.error i => Round.fault i
  | Except.ok line =>
      match line.store c.bytes.length 0 with
      | Except.error i => Round.fault i
      | Except.ok line =>
          Round.next { line, printed := s.printed ++ str line.bytes }

def finish (ending : Ending) (s : State) : Exit :=
  match ending with
  | Ending.eof => { status := 0, printed := s.printed, message := none }
  | Ending.failed errno =>
      { status := 1
        printed := s.printed
        message := some (Message.readError errno) }

/-- A store outside of `line` fails with its index. -/
def main (mkfifo opened : Except Nat Unit) (line : Block 1024)
    (reads : List (Chunk 1024)) (ending : Ending) : Except Nat Exit :=
  match mkfifo with
  | Except.error errno =>
      Except.ok
        { status := 1
          printed := []
          message := some (Message.mkfifoError errno) }
  | Except.ok _ =>
      match opened with
      | Except.error errno =>
          Except.ok
            { status := 1
              printed := []
              message := some (Message.openError errno) }
      | Except.ok _ => rounds body (finish ending) { line, printed := [] } reads

/-- What is printed is what was read, and nothing is stored outside of `line`. -/
def Faithful (line : Block 1024) (reads : List (Chunk 1024)) (ending : Ending) :
    Prop :=
  exists e, main (Except.ok ()) (Except.ok ()) line reads ending = Except.ok e ∧
    e.printed = (reads.map Chunk.bytes).flatten

/-!
# One turn of the loop
-/

theorem body_full {s : State} {c : Chunk 1024} (h : ¬ c.bytes.length < 1024) :
    body s c = Round.fault 1024 := by
  have hlen : c.bytes.length = 1024 := Nat.le_antisymm c.fits (Nat.le_of_not_lt h)
  rcases s.line.fill_ok c.fits with ⟨line, hfill, -⟩
  unfold body
  rw [hfill, hlen]
  dsimp only
  rw [line.store_error 0 (Nat.le_refl 1024)]

theorem body_prints {s : State} {c : Chunk 1024} (h : c.bytes.length < 1024) :
    exists line, body s c =
      Round.next { line, printed := s.printed ++ str c.bytes } := by
  rcases s.line.terminate_ok h with ⟨line, line', hfill, hstore, hstr⟩
  refine ⟨line', ?_⟩
  unfold body
  rw [hfill]
  dsimp only
  rw [hstore]
  dsimp only
  rw [hstr]

def shown (reads : List (Chunk 1024)) : List Byte :=
  (reads.map Chunk.bytes).flatMap str

theorem shown_snoc (reads : List (Chunk 1024)) (c : Chunk 1024) :
    shown (reads ++ [c]) = shown reads ++ str c.bytes := by
  unfold shown
  rw [List.map_append, List.flatMap_append]
  exact congrArg (_ ++ ·) (List.append_nil _)

theorem law (ending : Ending) :
    Law body (finish ending) (fun c => c.bytes.length < 1024) (fun _ => false)
      (fun past s => s.printed = shown past) (fun past e => e.printed = shown past) := by
  constructor
  · intro past s c _ hfull
    exact ⟨1024, body_full hfull⟩
  · intro past s c _ _ h
    cases h
  · intro past s c hs hlt _
    rcases body_prints (s := s) hlt with ⟨line, hbody⟩
    refine ⟨_, hbody, ?_⟩
    change s.printed ++ str c.bytes = shown (past ++ [c])
    rw [hs, shown_snoc]
  · intro past s hs
    cases ending with
    | eof => exact hs
    | failed errno => exact hs

/-!
# The whole loop
-/

/-- Exactly when the loop is faithful to its input. -/
theorem faithful_iff (line : Block 1024) (reads : List (Chunk 1024))
    (ending : Ending) :
    Faithful line reads ending ↔
      forall c, c ∈ reads ->
        c.bytes.length ≤ 1023 ∧ forall b, b ∈ c.bytes -> b ≠ 0 := by
  have hnul := flatMap_str_eq_iff (reads.map Chunk.bytes)
  constructor
  · rintro ⟨e, he, hprinted⟩
    rcases (law ending).of_ok rfl he with ⟨hshort, hshown⟩
    rw [taken_eq_self] at hshort hshown
    rw [hprinted] at hshown
    intro c hc
    refine ⟨Nat.le_of_lt_succ (hshort c hc), fun b hb => ?_⟩
    apply hnul.mp hshown.symm
    exact List.mem_flatten.mpr ⟨c.bytes, List.mem_map.mpr ⟨c, hc, rfl⟩, hb⟩
  · intro hall
    have hshort : forall c, c ∈ taken (fun _ => false) reads ->
        c.bytes.length < 1024 := by
      rw [taken_eq_self]
      exact fun c hc => Nat.lt_succ_of_le (hall c hc).left
    rcases (law ending).of_good (s := { line, printed := [] }) rfl hshort with
      ⟨e, he, hshown⟩
    rw [taken_eq_self] at hshown
    refine ⟨e, he, ?_⟩
    rw [hshown]
    apply hnul.mpr
    intro b hb
    rcases List.mem_flatten.mp hb with ⟨s, hs, hb⟩
    rcases List.mem_map.mp hs with ⟨c, hc, heq⟩
    rw [← heq] at hb
    exact (hall c hc).right b hb

def fullLine : Chunk 1024 where
  bytes := List.replicate 1024 97
  nonempty := List.cons_ne_nil 97 (List.replicate 1023 97)
  fits := Nat.le_of_eq List.length_replicate

/-- The terminator is stored behind the end of `line`; and a zero byte hides
what comes after it. -/
theorem full_line_overflows :
    main (Except.ok ()) (Except.ok ()) (Block.zeros 1024) [fullLine] Ending.eof =
        Except.error 1024 ∧
      ¬ Faithful (Block.zeros 1024) [fullLine] Ending.eof ∧
      ¬ Faithful (Block.zeros 1024)
        [{ bytes := [97, 0, 98], nonempty := by decide, fits := by decide }]
        Ending.eof := by
  have hfull : ¬ fullLine.bytes.length < 1024 := by
    change ¬ (List.replicate 1024 (97 : Byte)).length < 1024
    rw [List.length_replicate]
    exact Nat.lt_irrefl 1024
  have hmain : main (Except.ok ()) (Except.ok ()) (Block.zeros 1024) [fullLine]
      Ending.eof = Except.error 1024 := by
    unfold main
    dsimp only
    rw [rounds_cons_of_fault (body_full hfull)]
  refine ⟨hmain, ?_, ?_⟩
  · rintro ⟨e, he, -⟩
    rw [hmain] at he
    cases he
  · rintro ⟨e, he, hprinted⟩
    have hshown := ((law Ending.eof).of_ok rfl he).right
    rw [hprinted] at hshown
    cases hshown

end Fifo
end Apue
