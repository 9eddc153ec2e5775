/-!
# Reader-writer locks

A lock is held by one writer, or by readers.  A thread may hold it for reading
several times, so the readers are a list.  What each thread holds follows from
where it is; the lock and the threads agree on it.
-/

namespace Apue
namespace Foundation

universe u

structure Rwlock (tid : Type u) where
  readers : List tid
  writer : Option tid
  deriving Repr, DecidableEq

namespace Rwlock

variable {tid : Type u}

def unlocked : Rwlock tid where
  readers := []
  writer := none

def rdlock (l : Rwlock tid) (t : tid) : Option (Rwlock tid) :=
  match l.writer with
  | none => some { l with readers := t :: l.readers }
  | some _ => none

def wrlock (l : Rwlock tid) (t : tid) : Option (Rwlock tid) :=
  match l.writer, l.readers with
  | none, [] => some { l with writer := some t }
  | _, _ => none

/-- `pthread_rwlock_unlock`; nothing is defined for a thread that does not hold
the lock. -/
def unlock [DecidableEq tid] (l : Rwlock tid) (t : tid) : Option (Rwlock tid) :=
  if l.writer = some t then
    some { l with writer := none }
  else if t ∈ l.readers then
    some { l with readers := l.readers.erase t }
  else
    none

/-- Each thread that holds the lock for reading does so once, and nobody reads
while one thread writes. -/
structure Held (l : Rwlock tid) (reads writes : tid -> Prop) : Prop where
  reader : forall t, reads t ↔ t ∈ l.readers
  once : l.readers.Nodup
  writer : forall t, writes t ↔ l.writer = some t
  apart : l.writer ≠ none -> l.readers = []

theorem held_unlocked : Held (unlocked : Rwlock tid) (fun _ => False) (fun _ => False) where
  reader t := by simp [unlocked]
  once := List.nodup_nil
  writer t := by simp [unlocked]
  apart h := absurd rfl h

section

variable {l l' : Rwlock tid} {reads writes reads' writes' : tid -> Prop} {t : tid}

theorem Held.of_iff (h : Held l reads writes) (hr : forall u, reads' u ↔ reads u)
    (hw : forall u, writes' u ↔ writes u) : Held l reads' writes' where
  reader u := (hr u).trans (h.reader u)
  once := h.once
  writer u := (hw u).trans (h.writer u)
  apart := h.apart

theorem Held.not_reads (h : Held l reads writes) (hw : writes t) (u : tid) :
    ¬ reads u := by
  intro hr
  have hsome := (h.writer t).mp hw
  have hmem := (h.reader u).mp hr
  rw [h.apart (by rw [hsome]; exact fun hnone => by cases hnone)] at hmem
  cases hmem

theorem Held.rdlock_isSome_iff (h : Held l reads writes) :
    (exists l', l.rdlock t = some l') ↔ forall u, ¬ writes u := by
  unfold rdlock
  cases hw : l.writer with
  | none =>
      apply iff_of_true
      · exact ⟨_, rfl⟩
      · intro u hu
        rw [h.writer u, hw] at hu
        cases hu
  | some u =>
      apply iff_of_false
      · rintro ⟨_, hnone⟩
        cases hnone
      · intro hno
        exact hno u ((h.writer u).mpr hw)

theorem Held.wrlock_isSome_iff (h : Held l reads writes) :
    (exists l', l.wrlock t = some l') ↔ forall u, ¬ reads u ∧ ¬ writes u := by
  unfold wrlock
  split
  · next hw hr =>
      apply iff_of_true
      · exact ⟨_, rfl⟩
      · intro u
        rw [h.reader u, h.writer u, hw, hr]
        exact ⟨List.not_mem_nil, fun hsome => nomatch hsome⟩
  · next hno =>
      apply iff_of_false
      · rintro ⟨_, hnone⟩
        cases hnone
      · intro hfree
        apply hno
        · cases hw : l.writer with
          | none => rfl
          | some u => exact absurd ((h.writer u).mpr hw) (hfree u).2
        · cases hr : l.readers with
          | nil => rfl
          | cons u rest =>
              have hread := (h.reader u).mpr (by rw [hr]; exact List.mem_cons_self)
              exact absurd hread (hfree u).1

theorem Held.rdlock (h : Held l reads writes) (hl : l.rdlock t = some l')
    (hnew : ¬ reads t) (hr : forall u, reads' u ↔ u = t ∨ reads u)
    (hw : forall u, writes' u ↔ writes u) : Held l' reads' writes' := by
  unfold Rwlock.rdlock at hl
  split at hl
  · next hnone =>
      cases hl
      refine ⟨?_, ?_, ?_, ?_⟩
      · intro u
        rw [hr u, h.reader u]
        exact List.mem_cons.symm
      · exact List.nodup_cons.mpr ⟨fun hmem => hnew ((h.reader t).mpr hmem), h.once⟩
      · intro u
        rw [hw u]
        exact h.writer u
      · intro hne
        exact absurd hnone hne
  · cases hl

theorem Held.wrlock (h : Held l reads writes) (hl : l.wrlock t = some l')
    (hr : forall u, reads' u ↔ reads u) (hw : forall u, writes' u ↔ u = t) :
    Held l' reads' writes' := by
  unfold Rwlock.wrlock at hl
  split at hl
  · next hnone hnil =>
      cases hl
      refine ⟨?_, h.once, ?_, fun _ => hnil⟩
      · intro u
        rw [hr u]
        exact h.reader u
      · intro u
        rw [hw u]
        exact ⟨fun heq => by rw [heq], fun hsome => by cases hsome; rfl⟩
  · cases hl

variable [DecidableEq tid]

theorem Held.unlock_reader (h : Held l reads writes) (hl : l.unlock t = some l')
    (ht : reads t) (hr : forall u, reads' u ↔ u ≠ t ∧ reads u)
    (hw : forall u, writes' u ↔ writes u) : Held l' reads' writes' := by
  have hmem := (h.reader t).mp ht
  have hnot : l.writer ≠ some t := by
    intro hsome
    exact h.not_reads ((h.writer t).mpr hsome) t ht
  unfold unlock at hl
  rw [if_neg hnot, if_pos hmem] at hl
  cases hl
  refine ⟨?_, h.once.erase t, ?_, ?_⟩
  · intro u
    rw [hr u, h.reader u]
    exact (h.once.mem_erase_iff).symm
  · intro u
    rw [hw u]
    exact h.writer u
  · intro hne
    rw [h.apart hne] at hmem
    cases hmem

theorem Held.unlock_writer (h : Held l reads writes) (hl : l.unlock t = some l')
    (ht : writes t) (hr : forall u, reads' u ↔ reads u) (hw : forall u, ¬ writes' u) :
    Held l' reads' writes' := by
  unfold unlock at hl
  rw [if_pos ((h.writer t).mp ht)] at hl
  cases hl
  refine ⟨?_, h.once, ?_, ?_⟩
  · intro u
    rw [hr u]
    exact h.reader u
  · intro u
    exact ⟨fun hwrites => absurd hwrites (hw u), fun hsome => by cases hsome⟩
  · intro hne
    exact absurd rfl hne

theorem Held.unlock_isSome_iff (h : Held l reads writes) :
    (exists l', l.unlock t = some l') ↔ reads t ∨ writes t := by
  unfold unlock
  rw [h.reader t, h.writer t]
  split
  · next hsome => exact iff_of_true ⟨_, rfl⟩ (Or.inr hsome)
  · next hsome =>
      split
      · next hmem => exact iff_of_true ⟨_, rfl⟩ (Or.inl hmem)
      · next hmem =>
          apply iff_of_false
          · rintro ⟨_, hnone⟩
            cases hnone
          · exact fun hor => hor.elim hmem hsome

end

end Rwlock

end Foundation
end Apue
