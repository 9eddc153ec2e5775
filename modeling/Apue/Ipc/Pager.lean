import Apue.Foundation.Block
import Apue.Foundation.Fgets

/-!
# The parent of the pager

The parent copies a file line by line into the pipe that the pager reads.  How
many bytes it writes it finds out with `strlen`.  What is printed about errors
goes to standard output and not into the pipe.
-/

namespace Apue
namespace Pager

open Foundation

inductive Message where
  | writeError
  | fgetsError
  | waitpidError
  deriving Repr, DecidableEq

structure Exit where
  status : Nat
  pipe : List Byte
  message : Option Message
  deriving Repr, DecidableEq

abbrev Writes := Nat -> List Byte -> WriteAnswer

/-- The loop over the lines that `fgets(buf, 1024, fp)` delivers: what is in the
pipe, and whether every `write` was as long as it should be. -/
def copyLoop (write : Writes) :
    Nat -> List Byte -> List (List Byte) -> List Byte × Bool
  | _, pipe, [] => (pipe, true)
  | k, pipe, buf :: rest =>
      -- `n = strlen(buf)`
      let w := write k (str buf)
      let pipe := pipe ++ w.taken (str buf)
      if w.full (str buf) then copyLoop write (k + 1) pipe rest else (pipe, false)

/-- `ferror` tells whether reading the file ended with an error, `waitpid` whether
that call succeeds. -/
def parent (write : Writes) (file : List Byte) (ferror waitpid : Bool) : Exit :=
  match copyLoop write 0 [] (chunks 1024 file) with
  | (pipe, false) => { status := 1, pipe, message := some Message.writeError }
  | (pipe, true) =>
      if ferror then
        { status := 1, pipe, message := some Message.fgetsError }
      else if waitpid then
        { status := 0, pipe, message := none }
      else
        { status := 1, pipe, message := some Message.waitpidError }

/-!
# What reaches the pipe
-/

theorem copyLoop_cons (write : Writes) (k : Nat) (pipe buf : List Byte)
    (rest : List (List Byte)) :
    copyLoop write k pipe (buf :: rest) =
      if (write k (str buf)).full (str buf) then
        copyLoop write (k + 1) (pipe ++ (write k (str buf)).taken (str buf)) rest
      else
        (pipe ++ (write k (str buf)).taken (str buf), false) := rfl

/-- However the writes go, the pipe gets the beginning of the text that the lines
show as strings. -/
theorem copyLoop_prefix (write : Writes) (k : Nat) (pipe : List Byte)
    (lines : List (List Byte)) :
    exists rest, (copyLoop write k pipe lines).1 ++ rest =
      pipe ++ lines.flatMap str := by
  induction lines generalizing k pipe with
  | nil => exact ⟨[], rfl⟩
  | cons buf lines ih =>
      rw [copyLoop_cons, List.flatMap_cons]
      cases hfull : (write k (str buf)).full (str buf) with
      | true =>
          rw [if_pos rfl, WriteAnswer.taken_of_full hfull]
          rcases ih (k + 1) (pipe ++ str buf) with ⟨rest, hrest⟩
          exact ⟨rest, hrest.trans (List.append_assoc _ _ _)⟩
      | false =>
          rw [if_neg Bool.false_ne_true]
          rcases (write k (str buf)).taken_isPrefix (str buf) with ⟨rest, hrest⟩
          refine ⟨rest ++ lines.flatMap str, ?_⟩
          dsimp only
          rw [List.append_assoc, ← List.append_assoc _ rest, hrest]

theorem parent_prefix (write : Writes) (file : List Byte) (ferror waitpid : Bool) :
    exists rest, (parent write file ferror waitpid).pipe ++ rest =
      (chunks 1024 file).flatMap str := by
  rcases copyLoop_prefix write 0 [] (chunks 1024 file) with ⟨rest, hrest⟩
  refine ⟨rest, ?_⟩
  rw [List.nil_append] at hrest
  rw [← hrest]
  unfold parent
  rcases copyLoop write 0 [] (chunks 1024 file) with ⟨pipe, full⟩
  cases full with
  | false => rfl
  | true =>
      cases ferror with
      | true => rfl
      | false =>
          cases waitpid with
          | true => rfl
          | false => rfl

def writesAll : Writes :=
  fun _ s => WriteAnswer.wrote s.length

theorem taken_writesAll (k : Nat) (s : List Byte) : (writesAll k s).taken s = s :=
  List.take_length

theorem full_writesAll (k : Nat) (s : List Byte) : (writesAll k s).full s = true :=
  decide_eq_true (Nat.le_refl _)

theorem copyLoop_writesAll (k : Nat) (pipe : List Byte) (lines : List (List Byte)) :
    copyLoop writesAll k pipe lines = (pipe ++ lines.flatMap str, true) := by
  induction lines generalizing k pipe with
  | nil =>
      rw [List.flatMap_nil, List.append_nil]
      rfl
  | cons buf rest ih =>
      rw [copyLoop_cons, taken_writesAll, full_writesAll, if_pos rfl, ih, List.flatMap_cons,
        List.append_assoc]

theorem pipe_writesAll (file : List Byte) (ferror waitpid : Bool) :
    (parent writesAll file ferror waitpid).pipe = (chunks 1024 file).flatMap str := by
  unfold parent
  rw [copyLoop_writesAll]
  cases ferror with
  | true => rfl
  | false =>
      cases waitpid with
      | true => rfl
      | false => rfl

/-- Exactly when the pager gets the file. -/
theorem pipe_eq_file_iff (file : List Byte) (ferror waitpid : Bool) :
    (parent writesAll file ferror waitpid).pipe = file ↔
      forall b, b ∈ file -> b ≠ 0 := by
  have hlines := chunks_flatten (by decide : 2 ≤ 1024) file
  have hiff := flatMap_str_eq_iff (chunks 1024 file)
  rw [hlines] at hiff
  rw [pipe_writesAll]
  exact hiff

/-- The line `a`, zero byte, `b` is written as `a`, without its newline. -/
theorem zero_byte_lost :
    let file := [97, 0, 98, 10, 99]
    parent writesAll file false true =
        { status := 0, pipe := [97, 99], message := none } ∧
      (parent writesAll file false true).pipe ≠ file := by
  decide

end Pager
end Apue
