import Mathlib.Logic.Function.Basic

/-!
# Pending signals

A signal that arrives is pending until it is taken: delivered to a handler, or
accepted by a thread that waits for it.  The kernel keeps no queue, so taking a
signal once takes every instance of it that has arrived so far.
-/

namespace Apue
namespace Foundation

universe u

abbrev SigSet (signo : Type u) := signo -> Bool

/-- How often each signal has arrived, and how many of these instances have been
taken. -/
structure Signals (signo : Type u) where
  arrived : signo -> Nat
  taken : signo -> Nat
  taken_le : forall g, taken g ≤ arrived g

namespace Signals

variable {signo : Type u}

def pending (s : Signals signo) (g : signo) : Bool :=
  s.taken g < s.arrived g

theorem pending_iff (s : Signals signo) (g : signo) :
    s.pending g = true ↔ s.taken g < s.arrived g :=
  decide_eq_true_iff

theorem taken_or_pending (s : Signals signo) {g : signo} {k : Nat}
    (h : k < s.arrived g) : k < s.taken g ∨ s.pending g = true := by
  rw [pending_iff]
  rcases Nat.lt_or_ge k (s.taken g) with hlt | hge
  · exact Or.inl hlt
  · exact Or.inr (Nat.lt_of_le_of_lt hge h)

variable [DecidableEq signo]

def arrive (s : Signals signo) (g : signo) : Signals signo where
  arrived := Function.update s.arrived g (s.arrived g + 1)
  taken := s.taken
  taken_le := by
    intro h
    rcases eq_or_ne h g with heq | hne
    · rw [heq, Function.update_self]
      exact Nat.le_succ_of_le (s.taken_le g)
    · rw [Function.update_of_ne hne]
      exact s.taken_le h

def take (s : Signals signo) (g : signo) : Signals signo where
  arrived := s.arrived
  taken := Function.update s.taken g (s.arrived g)
  taken_le := by
    intro h
    rcases eq_or_ne h g with heq | hne
    · exact Nat.le_of_eq (by rw [heq, Function.update_self])
    · rw [Function.update_of_ne hne]
      exact s.taken_le h

@[simp] theorem taken_arrive (s : Signals signo) (g h : signo) :
    (s.arrive g).taken h = s.taken h := rfl

theorem taken_take_self (s : Signals signo) (g : signo) :
    (s.take g).taken g = s.arrived g := by
  change Function.update s.taken g (s.arrived g) g = s.arrived g
  rw [Function.update_self]

theorem taken_take_of_ne (s : Signals signo) {g h : signo} (hne : h ≠ g) :
    (s.take g).taken h = s.taken h := by
  change Function.update s.taken g (s.arrived g) h = s.taken h
  rw [Function.update_of_ne hne]

theorem taken_le_take (s : Signals signo) (g h : signo) :
    s.taken h ≤ (s.take g).taken h := by
  rcases eq_or_ne h g with heq | hne
  · rw [heq, taken_take_self]
    exact s.taken_le g
  · exact Nat.le_of_eq (s.taken_take_of_ne hne).symm

theorem taken_take_pos {s : Signals signo} {g : signo} (h : s.pending g = true) :
    0 < (s.take g).taken g := by
  rw [taken_take_self]
  exact Nat.lt_of_le_of_lt (Nat.zero_le _) ((s.pending_iff g).mp h)

end Signals

end Foundation
end Apue
