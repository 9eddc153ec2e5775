import Apue.FileIo.Atomic
import Apue.Kernel.Mapping

/-!
# Copying a file by way of memory

`main` gives the destination its size with a seek and the `write` of one byte,
maps both files, copies, and maps the destination once more.  Calls that the
kernel has to refuse fail by themselves; which of them fail for another reason is
a parameter.
-/

namespace Apue
namespace Mmap

open Foundation Kernel

/-- The calls that fail although what they are asked for is right. -/
structure Failures where
  openFrom : Bool
  openTo : Bool
  fstat : Bool
  lseek : Bool
  write : Bool
  mmapFrom : Bool
  mmapTo : Bool
  munmap : Bool
  reopenTo : Bool
  remapTo : Bool
  deriving Repr, DecidableEq

def noFailures : Failures where
  openFrom := false
  openTo := false
  fstat := false
  lseek := false
  write := false
  mmapFrom := false
  mmapTo := false
  munmap := false
  reopenTo := false
  remapTo := false

inductive Message where
  | usage
  | cantOpenFrom
  | cantOpenTo
  | cantStat
  | cantLseek
  | cantWrite
  | cantMmapFrom
  | cantMmapTo
  | mprotectError
  | dst1 (c : Byte)
  | munmapError
  | cantReopen
  | remapError
  deriving Repr, DecidableEq

/-- The exit status, the file `argv[2]` and what was printed. -/
structure Exit where
  status : Nat
  tofile : Option (List Byte)
  printed : List Message
  deriving Repr, DecidableEq

def lseek (fails : Bool) (offset : Int) : Option Nat :=
  if fails ∨ offset < 0 then none else some offset.toNat

/-- Whether a mapping of `len` bytes is made; one of no bytes is refused. -/
def mmap (fails : Bool) (len : Nat) : Bool :=
  !fails && len != 0

/-- From `munmap` on: the destination is opened and mapped again. -/
def again (fails : Failures) (len : Nat) (tofile : List Byte)
    (printed : List Message) : Exit :=
  if fails.munmap then
    { status := 1
      tofile := some tofile
      printed := printed ++ [Message.munmapError] }
  else if fails.reopenTo then
    { status := 1
      tofile := some tofile
      printed := printed ++ [Message.cantReopen] }
  else if mmap fails.remapTo len then
    { status := 0, tofile := some tofile, printed }
  else
    { status := 1
      tofile := some tofile
      printed := printed ++ [Message.remapError] }

/-- From the first `mmap` on.  `mprotect` may not make the mapping of a file
writable that was opened with `O_RDONLY`; what can be written can be read. -/
def mapAndCopy (page : PageSize) (fails : Failures) (fromfile tofile : List Byte) :
    Except Fault Exit :=
  let len := fromfile.length
  if mmap fails.mmapFrom len then
    if mmap fails.mmapTo len then
      match page.memcpy len tofile fromfile with
      | Except.error f => Except.error f
      | Except.ok tofile =>
          match page.load len tofile 1 with
          | Except.error f => Except.error f
          | Except.ok c =>
              Except.ok
                (again fails len tofile [Message.mprotectError, Message.dst1 c])
    else
      Except.ok
        { status := 1, tofile := some tofile, printed := [Message.cantMmapTo] }
  else
    Except.ok
      { status := 1, tofile := some tofile, printed := [Message.cantMmapFrom] }

def resize (page : PageSize) (fails : Failures) (fromfile tofile : List Byte) :
    Except Fault Exit :=
  let st_size : Int := fromfile.length
  match lseek fails.lseek (st_size - 1) with
  | none =>
      Except.ok
        { status := 1, tofile := some tofile, printed := [Message.cantLseek] }
  | some pos =>
      if fails.write then
        Except.ok
          { status := 1, tofile := some tofile, printed := [Message.cantWrite] }
      else
        mapAndCopy page fails fromfile (Atomic.putAt tofile pos [0])

/-- `old` is what the destination was before; opening it leaves it empty. -/
def main (page : PageSize) (fails : Failures) (argc : Nat) (fromfile : List Byte)
    (old : Option (List Byte)) : Except Fault Exit :=
  if argc ≠ 3 then
    Except.ok { status := 1, tofile := old, printed := [Message.usage] }
  else if fails.openFrom then
    Except.ok { status := 1, tofile := old, printed := [Message.cantOpenFrom] }
  else if fails.openTo then
    Except.ok { status := 1, tofile := old, printed := [Message.cantOpenTo] }
  else if fails.fstat then
    Except.ok { status := 1, tofile := some [], printed := [Message.cantStat] }
  else
    resize page fails fromfile []

/-- The program exits with status 0, and the destination is the source. -/
def Copies (page : PageSize) (fromfile : List Byte) (old : Option (List Byte)) :
    Prop :=
  exists e, main page noFailures 3 fromfile old = Except.ok e ∧ e.status = 0 ∧
    e.tofile = some fromfile

/-!
# The size of the destination
-/

theorem putAt_length (n : Nat) : (Atomic.putAt [] n [0]).length = n + 1 := by
  unfold Atomic.putAt
  rw [List.take_nil, List.drop_nil, List.nil_append, List.append_nil,
    List.length_append, List.length_replicate]
  rfl

theorem lseek_ok {n : Nat} (h : 0 < n) :
    lseek false ((n : Int) - 1) = some (n - 1) := by
  unfold lseek
  rw [if_neg (by simp; lia)]
  congr 1
  lia

theorem mmap_ok {n : Nat} (h : 0 < n) : mmap false n = true := by
  simp [mmap, Nat.ne_of_gt h]

/-!
# The copy
-/

theorem again_ok {len : Nat} (h : 0 < len) (tofile : List Byte)
    (printed : List Message) :
    again noFailures len tofile printed =
      { status := 0, tofile := some tofile, printed } := by
  have hmap : mmap noFailures.remapTo len = true := mmap_ok h
  unfold again
  rw [hmap]
  rfl

theorem mapAndCopy_ok (page : PageSize) {fromfile tofile : List Byte}
    (hpos : 0 < fromfile.length) (hsize : tofile.length = fromfile.length) :
    exists e, mapAndCopy page noFailures fromfile tofile = Except.ok e ∧
      e.status = 0 ∧ e.tofile = some fromfile := by
  have hfrom : mmap noFailures.mmapFrom fromfile.length = true := mmap_ok hpos
  have hto : mmap noFailures.mmapTo fromfile.length = true := mmap_ok hpos
  have hpage : 1 < page.roundUp fromfile.length :=
    Nat.lt_of_lt_of_le page.two_le (page.bytes_le_roundUp hpos)
  unfold mapAndCopy
  dsimp only
  rw [hfrom, if_pos rfl, hto, if_pos rfl, page.memcpy_ok rfl hsize]
  dsimp only
  rw [page.load_ok hpage hpage]
  dsimp only
  rw [again_ok hpos]
  exact ⟨_, rfl, rfl, rfl⟩

/-- Exactly when the program copies. -/
theorem copies_iff (page : PageSize) (fromfile : List Byte)
    (old : Option (List Byte)) : Copies page fromfile old ↔ fromfile ≠ [] := by
  constructor
  · rintro ⟨e, he, hstatus, -⟩ hempty
    rw [hempty] at he
    -- the offset is -1
    cases he
    cases hstatus
  · intro hne
    have hpos := List.length_pos_iff.mpr hne
    have hsize : (Atomic.putAt [] (fromfile.length - 1) [0]).length =
        fromfile.length := by
      rw [putAt_length]
      lia
    have hmain : main page noFailures 3 fromfile old =
        mapAndCopy page noFailures fromfile
          (Atomic.putAt [] (fromfile.length - 1) [0]) := by
      change resize page noFailures fromfile [] = _
      unfold resize
      dsimp only
      have hseek : lseek noFailures.lseek ((fromfile.length : Int) - 1) =
          some (fromfile.length - 1) := lseek_ok hpos
      rw [hseek]
      rfl
    rcases mapAndCopy_ok page hpos hsize with ⟨e, he, hstatus, htofile⟩
    exact ⟨e, hmain.trans he, hstatus, htofile⟩

/-- An empty file is not copied: the offset -1 is refused. -/
theorem empty_file_not_copied :
    let page : PageSize := { bytes := 4096, two_le := by decide }
    main page noFailures 3 [] none =
        Except.ok
          { status := 1, tofile := some [], printed := [Message.cantLseek] } ∧
      ¬ Copies page [] none := by
  refine ⟨rfl, ?_⟩
  rintro ⟨e, he, hstatus, -⟩
  cases he
  cases hstatus

end Mmap
end Apue
