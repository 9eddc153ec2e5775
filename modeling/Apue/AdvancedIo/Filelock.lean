/-!
# Asking for a record lock

`lock_test` asks the kernel which lock stands in the way of another one, and
`lock_reg` tries to set it.  The first looks at the locks only, the second at the
mode in which the file is open as well.
-/

namespace Apue
namespace Filelock

/-- `F_RDLCK` and `F_WRLCK` -/
inductive LockType where
  | F_RDLCK
  | F_WRLCK
  deriving Repr, DecidableEq

/-- The bytes from `start` to `last`. -/
structure Region where
  start : Int
  last : Int
  deriving Repr, DecidableEq

structure Lock where
  pid : Nat
  pid_pos : 0 < pid
  type : LockType
  region : Region
  deriving DecidableEq

structure OpenFile where
  readable : Bool
  writable : Bool
  offset : Int
  size : Int
  deriving Repr, DecidableEq

/-- `struct flock`; without a type it is `F_UNLCK`. -/
structure Flock where
  l_type : Option LockType
  l_whence : Int
  l_start : Int
  l_len : Int
  l_pid : Int
  deriving Repr, DecidableEq

inductive Cmd where
  | F_GETLK
  | F_SETLK
  deriving Repr, DecidableEq

/-!
# The kernel
-/

/-- The largest value of `off_t`. -/
def OFFSET_MAX : Int := 9223372036854775807

/-- Where offsets count from: `SEEK_SET`, `SEEK_CUR` or `SEEK_END`. -/
def base (f : OpenFile) (whence : Int) : Option Int :=
  if whence = 0 then
    some 0
  else if whence = 1 then
    some f.offset
  else if whence = 2 then
    some f.size
  else
    none

/-- The bytes that a `struct flock` is about, unless they begin in front of the
file or end behind the largest offset. -/
def region (f : OpenFile) (fl : Flock) : Option Region :=
  match base f fl.l_whence with
  | none => none
  | some from_ =>
      let start := from_ + fl.l_start
      if OFFSET_MAX < start ∨ start < 0 then
        none
      else if 0 < fl.l_len then
        if OFFSET_MAX < start + fl.l_len - 1 then
          none
        else
          some { start, last := start + fl.l_len - 1 }
      else if fl.l_len < 0 then
        if start + fl.l_len < 0 then
          none
        else
          some { start := start + fl.l_len, last := start - 1 }
      else
        some { start, last := OFFSET_MAX }

def Region.overlaps (r t : Region) : Bool :=
  r.start ≤ t.last && t.start ≤ r.last

def Lock.conflicts (l : Lock) (pid : Nat) (type : LockType) (r : Region) : Bool :=
  l.pid ≠ pid && l.region.overlaps r &&
    (l.type = LockType.F_WRLCK || type = LockType.F_WRLCK)

def OpenFile.allows (f : OpenFile) : LockType -> Bool
  | LockType.F_RDLCK => f.readable
  | LockType.F_WRLCK => f.writable

/-- The first lock in the way is reported in place of the one that was asked
about. -/
def getlk (locks : List Lock) (pid : Nat) (f : OpenFile) (fl : Flock) :
    Int × Flock :=
  match fl.l_type, region f fl with
  | none, _ => (-1, fl)
  | some _, none => (-1, fl)
  | some type, some r =>
      match locks.find? (fun l => l.conflicts pid type r) with
      | none => (0, { fl with l_type := none })
      | some l =>
          (0,
            { l_type := some l.type
              l_whence := 0
              l_start := l.region.start
              l_len :=
                if l.region.last = OFFSET_MAX then
                  0
                else
                  l.region.last - l.region.start + 1
              l_pid := l.pid })

def setlk (locks : List Lock) (pid : Nat) (f : OpenFile) (fl : Flock) : Int :=
  match fl.l_type, region f fl with
  | none, none => -1
  | none, some _ => 0
  | some _, none => -1
  | some type, some r =>
      if f.allows type ∧ locks.find? (fun l => l.conflicts pid type r) = none then
        0
      else
        -1

/-- The files that the descriptors of the process stand for, the locks on each of
them, and the process. -/
structure Kernel where
  files : Int -> Option OpenFile
  locks : Int -> List Lock
  pid : Nat

/-- The value of `fcntl` and the structure after it. -/
def fcntl (k : Kernel) (fd : Int) (cmd : Cmd) (fl : Flock) : Int × Flock :=
  match k.files fd with
  | none => (-1, fl)
  | some f =>
      match cmd with
      | Cmd.F_GETLK => getlk (k.locks fd) k.pid f fl
      | Cmd.F_SETLK => (setlk (k.locks fd) k.pid f fl, fl)

/-!
# The program
-/

/-- A value of type `off_t` or `int` as a `short`. -/
def short (n : Int) : Int :=
  Int.bmod n 65536

/-- The structure that both functions pass; its `l_pid` is not initialised. -/
def flock (type : Option LockType) (offset whence len garbage : Int) : Flock where
  l_type := type
  l_whence := short whence
  l_start := offset
  l_len := len
  l_pid := garbage

def lock_reg (k : Kernel) (fd : Int) (cmd : Cmd) (type : Option LockType)
    (offset whence len garbage : Int) : Int :=
  (fcntl k fd cmd (flock type offset whence len garbage)).1

def lock_test (k : Kernel) (fd : Int) (type : LockType)
    (offset whence len garbage : Int) : Int :=
  let fl := (fcntl k fd Cmd.F_GETLK (flock (some type) offset whence len garbage)).2
  if fl.l_type.isNone then 0 else fl.l_pid

def is_read_lockable (k : Kernel) (fd offset whence len garbage : Int) : Bool :=
  lock_test k fd LockType.F_RDLCK offset whence len garbage = 0

def is_write_lockable (k : Kernel) (fd offset whence len garbage : Int) : Bool :=
  lock_test k fd LockType.F_WRLCK offset whence len garbage = 0

def read_lock (k : Kernel) (fd offset whence len garbage : Int) : Int :=
  lock_reg k fd Cmd.F_SETLK (some LockType.F_RDLCK) offset whence len garbage

def write_lock (k : Kernel) (fd offset whence len garbage : Int) : Int :=
  lock_reg k fd Cmd.F_SETLK (some LockType.F_WRLCK) offset whence len garbage

def un_lock (k : Kernel) (fd offset whence len garbage : Int) : Int :=
  lock_reg k fd Cmd.F_SETLK none offset whence len garbage

/-!
# What the two functions answer
-/

def regionOf (f : OpenFile) (offset whence len : Int) : Option Region :=
  region f (flock none offset whence len 0)

/-- A lock on the file of `fd` that is in the way. -/
def Kernel.InTheWay (k : Kernel) (fd : Int) (type : LockType)
    (offset whence len : Int) (l : Lock) : Prop :=
  exists f r, k.files fd = some f ∧ regionOf f offset whence len = some r ∧
    l ∈ k.locks fd ∧ l.conflicts k.pid type r = true

/-- The test gives 0 exactly when the lock could be set, and otherwise the process
of a lock that is in the way. -/
structure Agrees (k : Kernel) (fd : Int) (type : LockType)
    (offset whence len : Int) (test reg : Int) : Prop where
  zero : test = 0 ↔ reg = 0
  holder : reg ≠ 0 ->
    exists l, k.InTheWay fd type offset whence len l ∧ test = l.pid

section

variable {k : Kernel} {fd offset whence len : Int} {type : LockType}

theorem lock_test_failed
    (h : forall f, k.files fd = some f -> regionOf f offset whence len = none)
    (garbage : Int) :
    lock_test k fd type offset whence len garbage = garbage := by
  unfold lock_test fcntl
  cases hfile : k.files fd with
  | none => rfl
  | some f =>
      have hregion : region f (flock (some type) offset whence len garbage) = none :=
        h f hfile
      unfold getlk
      dsimp only
      rw [hregion]
      rfl

theorem lock_reg_failed
    (h : forall f, k.files fd = some f -> regionOf f offset whence len = none)
    (garbage : Int) :
    lock_reg k fd Cmd.F_SETLK (some type) offset whence len garbage = -1 := by
  unfold lock_reg fcntl
  cases hfile : k.files fd with
  | none => rfl
  | some f =>
      have hregion : region f (flock (some type) offset whence len garbage) = none :=
        h f hfile
      unfold setlk
      dsimp only
      rw [hregion]
      rfl

variable {f : OpenFile} {r : Region}

theorem lock_test_eq (hfile : k.files fd = some f)
    (hregion : regionOf f offset whence len = some r) (garbage : Int) :
    lock_test k fd type offset whence len garbage =
      match (k.locks fd).find? (fun l => l.conflicts k.pid type r) with
      | none => 0
      | some l => (l.pid : Int) := by
  have hregion' : region f (flock (some type) offset whence len garbage) = some r :=
    hregion
  cases hfind : (k.locks fd).find? (fun l => l.conflicts k.pid type r) with
  | none =>
      have hget : getlk (k.locks fd) k.pid f
          (flock (some type) offset whence len garbage) =
          (0, flock none offset whence len garbage) := by
        unfold getlk
        rw [hregion']
        dsimp only [flock]
        rw [hfind]
      unfold lock_test fcntl
      rw [hfile]
      dsimp only
      rw [hget]
      rfl
  | some l =>
      have hget : exists fl, getlk (k.locks fd) k.pid f
          (flock (some type) offset whence len garbage) = (0, fl) ∧
          fl.l_type = some l.type ∧ fl.l_pid = l.pid := by
        unfold getlk
        rw [hregion']
        dsimp only [flock]
        rw [hfind]
        exact ⟨_, rfl, rfl, rfl⟩
      rcases hget with ⟨fl, hget, htype, hpid⟩
      unfold lock_test fcntl
      rw [hfile]
      dsimp only
      rw [hget]
      dsimp only
      rw [htype, hpid]
      rfl

theorem lock_reg_eq (hfile : k.files fd = some f)
    (hregion : regionOf f offset whence len = some r) (garbage : Int) :
    lock_reg k fd Cmd.F_SETLK (some type) offset whence len garbage =
      if f.allows type ∧
          (k.locks fd).find? (fun l => l.conflicts k.pid type r) = none then
        0
      else
        -1 := by
  have hregion' : region f (flock (some type) offset whence len garbage) = some r :=
    hregion
  unfold lock_reg fcntl setlk
  rw [hfile]
  dsimp only
  rw [hregion']
  rfl

theorem not_agrees_of_failed
    (h : forall f, k.files fd = some f -> regionOf f offset whence len = none)
    (garbage garbage' : Int) :
    ¬ Agrees k fd type offset whence len
        (lock_test k fd type offset whence len garbage)
        (lock_reg k fd Cmd.F_SETLK (some type) offset whence len garbage') := by
  intro hagrees
  have hreg := @lock_reg_failed k fd offset whence len type h garbage'
  have hne : lock_reg k fd Cmd.F_SETLK (some type) offset whence len garbage' ≠ 0 := by
    rw [hreg]
    decide
  rcases hagrees.holder hne with ⟨l, ⟨f, r, hfile, hregion, _⟩, _⟩
  rw [h f hfile] at hregion
  cases hregion

theorem agrees_iff_of_region (hfile : k.files fd = some f)
    (hregion : regionOf f offset whence len = some r) (garbage garbage' : Int) :
    Agrees k fd type offset whence len
        (lock_test k fd type offset whence len garbage)
        (lock_reg k fd Cmd.F_SETLK (some type) offset whence len garbage') ↔
      f.allows type = true ∨
        exists l, l ∈ k.locks fd ∧ l.conflicts k.pid type r = true := by
  rw [lock_test_eq hfile hregion, lock_reg_eq hfile hregion]
  cases hfind : (k.locks fd).find? (fun l => l.conflicts k.pid type r) with
  | some l =>
      have hmem := List.mem_of_find?_eq_some hfind
      have hconflicts := List.find?_some hfind
      have hneg : ¬ (f.allows type = true ∧ some l = none) := fun h => nomatch h.2
      rw [if_neg hneg]
      apply iff_of_true
      · constructor
        · have hpos := l.pid_pos
          constructor
          · intro h
            change (l.pid : Int) = 0 at h
            lia
          · intro h
            cases h
        · intro _
          exact ⟨l, ⟨f, r, hfile, hregion, hmem, hconflicts⟩, rfl⟩
      · exact Or.inr ⟨l, hmem, hconflicts⟩
  | none =>
      have hno : ¬ exists l, l ∈ k.locks fd ∧ l.conflicts k.pid type r = true := by
        intro h
        rcases h with ⟨l, hl, hconflicts⟩
        exact List.find?_eq_none.mp hfind l hl hconflicts
      cases hallows : f.allows type with
      | true =>
          rw [if_pos ⟨rfl, rfl⟩]
          apply iff_of_true
          · exact ⟨Iff.rfl, fun h => absurd rfl h⟩
          · exact Or.inl rfl
      | false =>
          rw [if_neg (fun h => nomatch h.1)]
          apply iff_of_false
          · intro h
            have hzero : (-1 : Int) = 0 := h.zero.mp rfl
            cases hzero
          · intro h
            rcases h with h | h
            · cases h
            · exact hno h

end

/-- Testing and setting agree when the descriptor is open, the region is one of
the file, and the file is open in the mode that the lock needs or another process
holds a lock in the way, and only then. -/
theorem lock_test_agrees_iff (k : Kernel) (fd : Int) (type : LockType)
    (offset whence len garbage garbage' : Int) :
    Agrees k fd type offset whence len
        (lock_test k fd type offset whence len garbage)
        (lock_reg k fd Cmd.F_SETLK (some type) offset whence len garbage') ↔
      exists f r, k.files fd = some f ∧ regionOf f offset whence len = some r ∧
        (f.allows type = true ∨
          exists l, l ∈ k.locks fd ∧ l.conflicts k.pid type r = true) := by
  constructor
  · intro h
    apply Classical.byContradiction
    intro hno
    by_cases hfailed :
        forall f, k.files fd = some f -> regionOf f offset whence len = none
    · exact not_agrees_of_failed hfailed garbage garbage' h
    · rcases Classical.not_forall.mp hfailed with ⟨f, hf⟩
      rcases Classical.not_imp.mp hf with ⟨hfile, hregion⟩
      rcases Option.ne_none_iff_exists'.mp hregion with ⟨r, hr⟩
      exact hno ⟨f, r, hfile, hr, (agrees_iff_of_region hfile hr garbage garbage').mp h⟩
  · intro h
    rcases h with ⟨f, r, hfile, hregion, hright⟩
    exact (agrees_iff_of_region hfile hregion garbage garbage').mpr hright

def Kernel.readWrite (k : Kernel) : Kernel :=
  { k with
    files := fun fd =>
      (k.files fd).map (fun f => { f with readable := true, writable := true }) }

theorem Kernel.InTheWay.of_readWrite {k : Kernel} {fd offset whence len : Int}
    {type : LockType} {l : Lock}
    (h : k.readWrite.InTheWay fd type offset whence len l) :
    k.InTheWay fd type offset whence len l := by
  rcases h with ⟨f', r, hfile, hregion, hmem, hconflicts⟩
  rcases Option.map_eq_some_iff.mp hfile with ⟨f, hf, heq⟩
  rw [← heq] at hregion
  exact ⟨f, r, hf, hregion, hmem, hconflicts⟩

/-- On an open descriptor and a region of the file, testing agrees with setting
the lock on a descriptor that is open in the mode that the lock needs, and so on
this one when it is. -/
theorem lock_test_agrees {k : Kernel} {fd offset whence len : Int} {f : OpenFile}
    {r : Region} (hfile : k.files fd = some f)
    (hregion : regionOf f offset whence len = some r) (type : LockType)
    (garbage garbage' : Int) :
    Agrees k fd type offset whence len
        (lock_test k fd type offset whence len garbage)
        (lock_reg k.readWrite fd Cmd.F_SETLK (some type) offset whence len garbage') ∧
      (f.allows type = true ->
        Agrees k fd type offset whence len
          (lock_test k fd type offset whence len garbage)
          (lock_reg k fd Cmd.F_SETLK (some type) offset whence len garbage')) := by
  have hfile' : k.readWrite.files fd =
      some { f with readable := true, writable := true } := by
    show (k.files fd).map _ = _
    rw [hfile]
    rfl
  have hregion' : regionOf { f with readable := true, writable := true } offset
      whence len = some r := hregion
  constructor
  · have hallows : OpenFile.allows { f with readable := true, writable := true }
        type = true := by
      cases type with
      | F_RDLCK => rfl
      | F_WRLCK => rfl
    have htest : lock_test k.readWrite fd type offset whence len garbage =
        lock_test k fd type offset whence len garbage := by
      rw [lock_test_eq hfile' hregion', lock_test_eq hfile hregion]
      rfl
    have hagrees := (agrees_iff_of_region hfile' hregion' garbage garbage').mpr
      (Or.inl hallows)
    rw [htest] at hagrees
    refine ⟨hagrees.zero, ?_⟩
    intro hne
    rcases hagrees.holder hne with ⟨l, hl, heq⟩
    exact ⟨l, hl.of_readWrite, heq⟩
  · intro hallows
    exact (agrees_iff_of_region hfile hregion garbage garbage').mpr (Or.inl hallows)

/-- A process with a file at offset 40 on descriptor 3; another one has locked ten
of its bytes for writing. -/
def held : Kernel where
  files := fun fd =>
    if fd = 3 then
      some { readable := true, writable := true, offset := 40, size := 100 }
    else
      none
  locks := fun _ =>
    [{ pid := 200
       pid_pos := Nat.succ_pos 199
       type := LockType.F_WRLCK
       region := { start := 50, last := 59 } }]
  pid := 100

/-- The bytes from 45 on are not free, those up to 49 are. -/
theorem lock_test_agrees_held :
    Agrees held 3 LockType.F_RDLCK 5 1 20
        (lock_test held 3 LockType.F_RDLCK 5 1 20 0)
        (lock_reg held 3 Cmd.F_SETLK (some LockType.F_RDLCK) 5 1 20 0) ∧
      lock_test held 3 LockType.F_RDLCK 5 1 20 0 = 200 ∧
      Agrees held 3 LockType.F_WRLCK 5 1 5
        (lock_test held 3 LockType.F_WRLCK 5 1 5 0)
        (lock_reg held 3 Cmd.F_SETLK (some LockType.F_WRLCK) 5 1 5 0) ∧
      lock_test held 3 LockType.F_WRLCK 5 1 5 0 = 0 := by
  have hlong : regionOf { readable := true, writable := true, offset := 40, size := 100 }
      5 1 20 = some { start := 45, last := 64 } := by decide
  have hshort : regionOf { readable := true, writable := true, offset := 40, size := 100 }
      5 1 5 = some { start := 45, last := 49 } := by decide
  refine ⟨?_, by decide, ?_, by decide⟩
  · exact (lock_test_agrees rfl hlong LockType.F_RDLCK 0 0).2 rfl
  · exact (lock_test_agrees rfl hshort LockType.F_WRLCK 0 0).2 rfl

/-- A process with descriptor 3 on an empty file that is open for reading, and no
locks. -/
def readOnly : Kernel where
  files := fun fd =>
    if fd = 3 then
      some { readable := true, writable := false, offset := 0, size := 0 }
    else
      none
  locks := fun _ => []
  pid := 100

theorem write_lock_refused :
    is_write_lockable readOnly 3 0 0 0 0 = true ∧
      write_lock readOnly 3 0 0 0 0 = -1 ∧
      lock_test readOnly 4 LockType.F_WRLCK 0 0 0 77 = 77 := by
  decide

end Filelock
end Apue
