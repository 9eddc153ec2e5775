import Apue.AdvancedIo.LockTable

/-!
# Locks from the end of a file

The program locks the file from its end on, writes, unlocks it from its end on,
and writes again.  The kernel turns the end into an offset when a lock is set, so
the two calls are not about the same bytes: what was written in between stays
locked.
-/

namespace Apue
namespace LockEOF

open Filelock

def SEEK_END : Int := 2

/-- A `write` of `n` bytes at the offset. -/
def write (f : OpenFile) (n : Nat) : OpenFile :=
  { f with offset := f.offset + n, size := max f.size (f.offset + n) }

def write_lock (locks : List Lock) (p : Pid) (f : OpenFile)
    (offset whence len : Int) : Option (List Lock) :=
  match setLock locks p f (some LockType.F_WRLCK) offset whence len with
  | (answer, locks) => if answer < 0 then none else some locks

def un_lock (locks : List Lock) (p : Pid) (f : OpenFile)
    (offset whence len : Int) : Option (List Lock) :=
  match setLock locks p f none offset whence len with
  | (answer, locks) => if answer < 0 then none else some locks

/-- `main` up to `fork`, for writes of `n` and of `m` bytes. -/
def appendTwice (locks : List Lock) (p : Pid) (f : OpenFile) (n m : Nat) :
    Option (List Lock × OpenFile) :=
  match write_lock locks p f 0 SEEK_END 0 with
  | none => none
  | some locks =>
      match un_lock locks p (write f n) 0 SEEK_END 0 with
      | none => none
      | some locks => some (locks, write (write f n) m)

def fromOn (n : Int) : Region where
  start := n
  last := OFFSET_MAX

section

variable {locks : List Lock} {p : Pid} {f : OpenFile}

theorem regionOf_end (hlo : 0 ≤ f.size) (hhi : f.size ≤ OFFSET_MAX) :
    regionOf f 0 SEEK_END 0 = some (fromOn f.size) := by
  have hbase : base f (short SEEK_END) = some f.size := rfl
  unfold regionOf region flock
  dsimp only
  rw [hbase]
  dsimp only
  rw [Int.add_zero, if_neg (by lia), if_neg (by decide), if_neg (by decide)]
  rfl

theorem write_lock_end (hlo : 0 ≤ f.size) (hhi : f.size ≤ OFFSET_MAX)
    (hwritable : f.writable = true)
    (hfree : Free locks p.1 LockType.F_WRLCK (fromOn f.size)) :
    write_lock locks p f 0 SEEK_END 0 =
      some (addLock locks (lockOf p LockType.F_WRLCK (fromOn f.size))) := by
  have hallows : f.allows LockType.F_WRLCK = true := hwritable
  have hset : setLock locks p f (some LockType.F_WRLCK) 0 SEEK_END 0 =
      (0, addLock locks (lockOf p LockType.F_WRLCK (fromOn f.size))) := by
    unfold setLock
    rw [regionOf_end hlo hhi]
    exact if_pos ⟨hallows, hfree⟩
  unfold write_lock
  rw [hset]
  rfl

theorem un_lock_end (hlo : 0 ≤ f.size) (hhi : f.size ≤ OFFSET_MAX) :
    un_lock locks p f 0 SEEK_END 0 = some (unlock locks p.1 (fromOn f.size)) := by
  unfold un_lock setLock
  rw [regionOf_end hlo hhi]
  rfl

theorem appendTwice_eq {n m : Nat} (hlo : 0 ≤ f.size) (hend : f.offset = f.size)
    (hroom : f.size + n ≤ OFFSET_MAX) (hwritable : f.writable = true)
    (hfree : Free locks p.1 LockType.F_WRLCK (fromOn f.size)) :
    appendTwice locks p f n m =
      some (unlock (addLock locks (lockOf p LockType.F_WRLCK (fromOn f.size))) p.1
        (fromOn (f.size + n)), write (write f n) m) := by
  have hsize : (write f n).size = f.size + n := by
    show max f.size (f.offset + n) = f.size + n
    lia
  unfold appendTwice
  rw [write_lock_end hlo (by lia) hwritable hfree]
  dsimp only
  rw [un_lock_end (by rw [hsize]; lia) (by rw [hsize]; exact hroom), hsize]

end

/-- After both calls a byte is locked because it was written in between, or it was
locked before and is not one that the process has unlocked. -/
theorem holds_appended {locks : List Lock} {p : Pid} {n m : Int} (hn : n ≤ m)
    (hm : m ≤ OFFSET_MAX) {q : Nat} {b : Int} {t : LockType} :
    Holds (unlock (addLock locks (lockOf p LockType.F_WRLCK (fromOn n))) p.1
        (fromOn m)) q b t ↔
      (q = p.1 ∧ t = LockType.F_WRLCK ∧ n ≤ b ∧ b < m) ∨
        (Holds locks q b t ∧ ¬ (q = p.1 ∧ (fromOn n).Covers b)) := by
  rw [holds_unlock, holds_addLock]
  unfold lockOf fromOn Region.Covers
  dsimp only
  constructor
  · rintro ⟨⟨hq, hb, ht⟩ | ⟨hold, hout⟩, hno⟩
    · refine Or.inl ⟨hq.symm, ht.symm, hb.1, ?_⟩
      apply Int.not_le.mp
      intro hle
      exact hno ⟨hq.symm, hle, hb.2⟩
    · exact Or.inr ⟨hold, hout⟩
  · rintro (⟨hq, ht, hlo, hlt⟩ | ⟨hold, hout⟩)
    · exact ⟨Or.inl ⟨hq.symm, ⟨hlo, by lia⟩, ht.symm⟩, fun hin => by lia⟩
    · exact ⟨Or.inr ⟨hold, hout⟩, fun hin => hout ⟨hin.1, by lia, hin.2.2⟩⟩

/--
Whatever is locked already: a process at the end of the file that locks from the
end on, writes `n` bytes and unlocks from the end on has locked exactly these
bytes; no other lock has changed, but for its own from the old end on.  Another
process can then lock a region from the old end on for writing exactly when it
begins behind these bytes.
-/
theorem appended_bytes_locked {locks : List Lock} {p : Pid} {f : OpenFile}
    (hproper : Proper locks) (hlo : 0 ≤ f.size) (hend : f.offset = f.size)
    (hwritable : f.writable = true)
    (hfree : Free locks p.1 LockType.F_WRLCK (fromOn f.size)) (n m : Nat)
    (hroom : f.size + n ≤ OFFSET_MAX) :
    exists after, appendTwice locks p f n m = some (after, write (write f n) m) ∧
      (forall q b t, Holds after q b t ↔
        (q = p.1 ∧ t = LockType.F_WRLCK ∧ f.size ≤ b ∧ b < f.size + n) ∨
          (Holds locks q b t ∧ ¬ (q = p.1 ∧ (fromOn f.size).Covers b))) ∧
      forall (q : Pid) (r : Region), q ≠ p -> f.size ≤ r.start -> r.start ≤ r.last ->
        r.last ≤ OFFSET_MAX ->
        (Free after q.1 LockType.F_WRLCK r ↔ f.size + n ≤ r.start) := by
  have hle : f.size ≤ f.size + n := by lia
  refine ⟨_, appendTwice_eq hlo hend hroom hwritable hfree,
    fun _ _ _ => holds_appended hle hroom, ?_⟩
  intro q r hne hstart hr hlast
  have hproper' : Proper (unlock (addLock locks
      (lockOf p LockType.F_WRLCK (fromOn f.size))) p.1 (fromOn (f.size + n))) := by
    apply Proper.unlock
    apply hproper.addLock
    show f.size ≤ OFFSET_MAX
    lia
  have hpid : p.1 ≠ q.1 := fun heq => hne (Subtype.ext heq.symm)
  rw [free_writing_iff hr hproper']
  constructor
  · intro h
    apply Int.not_lt.mp
    intro hlt
    exact h p.1 r.start LockType.F_WRLCK hpid ⟨Int.le_refl _, hr⟩
      ((holds_appended hle hroom).mpr (Or.inl ⟨rfl, rfl, hstart, hlt⟩))
  · intro h x b t hx hb hold
    have hcovers : (fromOn f.size).Covers b :=
      ⟨Int.le_trans hstart hb.1, Int.le_trans hb.2 hlast⟩
    rcases (holds_appended hle hroom).mp hold with ⟨_, _, _, hlt⟩ | ⟨hold, hout⟩
    · exact absurd (Int.le_trans h hb.1) (Int.not_le.mpr hlt)
    · by_cases hxp : x = p.1
      · exact hout ⟨hxp, hcovers⟩
      · have hread := (hfree.of_holds hxp hcovers hold).2
        cases hread

/-- The empty file after `creat`. -/
def tempfile : OpenFile where
  readable := false
  writable := true
  offset := 0
  size := 0

def parent : Pid := ⟨300, by decide⟩

def child : Pid := ⟨301, by decide⟩

/-- The program: "a" stays locked for the child, and what is behind "b" is not. -/
theorem appended_bytes_locked_main :
    exists after, appendTwice [] parent tempfile 1 1 =
        some (after, write (write tempfile 1) 1) ∧
      ¬ Free after child.1 LockType.F_WRLCK { start := 0, last := 0 } ∧
      Free after child.1 LockType.F_WRLCK { start := 2, last := 2 } := by
  rcases @appended_bytes_locked [] parent tempfile (fun _ hl => by cases hl)
    (by decide) rfl rfl rfl 1 1 (by decide) with ⟨after, heq, _, hother⟩
  refine ⟨after, heq, ?_, ?_⟩
  · rw [hother child _ (by decide) (by decide) (by decide) (by decide)]
    decide
  · rw [hother child _ (by decide) (by decide) (by decide) (by decide)]
    decide

end LockEOF
end Apue
