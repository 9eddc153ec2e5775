import Apue.Foundation.Block
import Apue.Foundation.Rounds

/-!
# copyfile

Standard input is copied to standard output through a buffer of `BUFFSIZE` bytes,
but each `read` is allowed to deliver up to `BUFSIZ`.
-/

namespace Apue
namespace Copyfile

open Foundation

def BUFFSIZE : Nat := 4096

def BUFSIZ : Nat := 8192

inductive Message where
  | cantWrite
  | cantRead
  deriving Repr, DecidableEq

structure Exit where
  status : Nat
  stdout : List Byte
  message : Option Message
  deriving Repr, DecidableEq

structure State where
  buf : Block BUFFSIZE
  stdout : List Byte
  deriving DecidableEq

structure Turn where
  chunk : Chunk BUFSIZ
  write : WriteAnswer
  deriving Repr, DecidableEq

/-- `err_sys` prints its message to standard error and exits. -/
def err_sys (stdout : List Byte) (message : Message) : Exit :=
  { status := 1, stdout, message := some message }

/-- `if (write(STDOUT_FILENO, buf, n) != n) err_sys(..);` -/
def body (s : State) (t : Turn) : Round Nat State Exit :=
  match s.buf.fill t.chunk.bytes with
  | Except.error i => Round.fault i
  | Except.ok buf =>
      let data := buf.bytes.take t.chunk.bytes.length
      let stdout := s.stdout ++ t.write.taken data
      if t.write.full data then
        Round.next { buf, stdout }
      else
        Round.leave (err_sys stdout Message.cantWrite)

def finish (ending : Ending) (s : State) : Exit :=
  match ending with
  | Ending.eof => { status := 0, stdout := s.stdout, message := none }
  | Ending.failed _ => err_sys s.stdout Message.cantRead

def main (buf : Block BUFFSIZE) (turns : List Turn) (ending : Ending) :
    Except Nat Exit :=
  rounds body (finish ending) { buf, stdout := [] } turns

def input (turns : List Turn) : List Byte :=
  (turns.map (fun t => t.chunk.bytes)).flatten

/-- Nothing is stored outside of `buf`, and a copy that is reported as good is
the input. -/
def Safe (buf : Block BUFFSIZE) (turns : List Turn) (ending : Ending) : Prop :=
  exists e, main buf turns ending = Except.ok e ∧
    (e.status = 0 -> e.stdout = input turns)

/-!
# One turn of the loop
-/

def Turn.leaves (t : Turn) : Bool :=
  !t.write.full t.chunk.bytes

theorem input_snoc (turns : List Turn) (t : Turn) :
    input (turns ++ [t]) = input turns ++ t.chunk.bytes := by
  unfold input
  rw [List.map_append, List.flatten_append]
  exact congrArg (_ ++ ·) (List.append_nil _)

theorem body_error (s : State) {t : Turn}
    (h : ¬ t.chunk.bytes.length ≤ BUFFSIZE) : body s t = Round.fault BUFFSIZE := by
  unfold body
  rw [s.buf.fill_error (Nat.lt_of_not_le h)]

theorem body_ok (s : State) {t : Turn} (h : t.chunk.bytes.length ≤ BUFFSIZE) :
    exists buf, body s t =
      if t.write.full t.chunk.bytes then
        Round.next { buf, stdout := s.stdout ++ t.write.taken t.chunk.bytes }
      else
        Round.leave
          (err_sys (s.stdout ++ t.write.taken t.chunk.bytes) Message.cantWrite) := by
  rcases s.buf.fill_ok h with ⟨buf, hfill, htake⟩
  refine ⟨buf, ?_⟩
  unfold body
  rw [hfill]
  dsimp only
  rw [htake]

theorem law (ending : Ending) :
    Law body (finish ending) (fun t => t.chunk.bytes.length ≤ BUFFSIZE) Turn.leaves
      (fun past s => s.stdout = input past ∧ forall t, t ∈ past -> t.leaves = false)
      (fun past e => e.status = 0 ->
        e.stdout = input past ∧ forall t, t ∈ past -> t.leaves = false) := by
  constructor
  · intro past s t _ hlong
    exact ⟨BUFFSIZE, body_error s hlong⟩
  · intro past s t _ hfits hleaves
    rcases body_ok s hfits with ⟨buf, hbody⟩
    have hshort : t.write.full t.chunk.bytes = false := by
      simpa [Turn.leaves] using hleaves
    rw [hshort, if_neg Bool.false_ne_true] at hbody
    refine ⟨_, hbody, fun hstatus => ?_⟩
    cases hstatus
  · intro past s t hs hfits hleaves
    rcases body_ok s hfits with ⟨buf, hbody⟩
    have hfull : t.write.full t.chunk.bytes = true := by
      simpa [Turn.leaves] using hleaves
    rw [hfull, if_pos rfl, WriteAnswer.taken_of_full hfull] at hbody
    refine ⟨_, hbody, ?_, ?_⟩
    · change s.stdout ++ t.chunk.bytes = input (past ++ [t])
      rw [hs.left, input_snoc]
    · intro u hu
      rcases List.mem_append.mp hu with hu | hu
      · exact hs.right u hu
      · rw [List.mem_singleton.mp hu]
        exact hleaves
  · intro past s hs
    cases ending with
    | eof => exact fun _ => hs
    | failed errno =>
        intro hstatus
        cases hstatus

/-!
# The whole copy
-/

/-- Exactly when the copy is safe: no `read` that is made delivers more than the
buffer holds. -/
theorem safe_iff (buf : Block BUFFSIZE) (turns : List Turn) (ending : Ending) :
    Safe buf turns ending ↔
      forall t, t ∈ taken Turn.leaves turns -> t.chunk.bytes.length ≤ BUFFSIZE := by
  have hstart : State.stdout { buf, stdout := [] } = input [] ∧
      forall t : Turn, t ∈ [] -> t.leaves = false :=
    ⟨rfl, fun t ht => nomatch ht⟩
  constructor
  · rintro ⟨e, he, -⟩
    exact ((law ending).of_ok hstart he).left
  · intro hfits
    rcases (law ending).of_good hstart hfits with ⟨e, he, hcopied⟩
    refine ⟨e, he, fun hstatus => ?_⟩
    rcases hcopied hstatus with ⟨hstdout, hstays⟩
    rw [taken_eq_of_stays hstays] at hstdout
    exact hstdout

def largest : Chunk BUFSIZ where
  bytes := List.replicate BUFSIZ 97
  nonempty := List.cons_ne_nil 97 (List.replicate 8191 97)
  fits := Nat.le_of_eq List.length_replicate

/-- The bytes from the 4097th on are stored behind the end of `buf`. -/
theorem largest_read_overflows :
    main (Block.zeros BUFFSIZE) [{ chunk := largest, write := WriteAnswer.wrote BUFSIZ }]
        Ending.eof = Except.error 4096 ∧
      ¬ Safe (Block.zeros BUFFSIZE)
        [{ chunk := largest, write := WriteAnswer.wrote BUFSIZ }] Ending.eof := by
  have hlong : ¬ largest.bytes.length ≤ BUFFSIZE := by
    change ¬ (List.replicate BUFSIZ (97 : Byte)).length ≤ BUFFSIZE
    rw [List.length_replicate]
    decide
  have hmain : main (Block.zeros BUFFSIZE)
      [{ chunk := largest, write := WriteAnswer.wrote BUFSIZ }] Ending.eof =
        Except.error 4096 := by
    unfold main
    rw [rounds_cons_of_fault (body_error _ hlong)]
    rfl
  refine ⟨hmain, ?_⟩
  rintro ⟨e, he, -⟩
  rw [hmain] at he
  cases he

end Copyfile
end Apue
