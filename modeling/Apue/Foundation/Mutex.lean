/-!
# Locks

A lock remembers its owner; what the owner may do follows from where it is.  The
two agree when the owner is exactly the thread that is somewhere where the lock
is held.
-/

namespace Apue
namespace Foundation

universe u v

/-- The lock has the owner `t` when, and only when, `t` holds it. -/
def OwnedBy {tid : Type u} (lock : Option tid) (holds : tid -> Prop) : Prop :=
  forall t, holds t ↔ lock = some t

section OwnedBy

variable {tid : Type u} {lock : Option tid} {holds after : tid -> Prop} {t : tid}

theorem OwnedBy.unique (h : OwnedBy lock holds) {s t : tid} (hs : holds s)
    (ht : holds t) : s = t := by
  have hsome := (h s).mp hs
  rw [(h t).mp ht] at hsome
  cases hsome
  rfl

theorem OwnedBy.keep (h : OwnedBy lock holds)
    (hother : forall u, u ≠ t -> (after u ↔ holds u))
    (ht : after t ↔ holds t) : OwnedBy lock after := by
  intro u
  by_cases hu : u = t
  · rw [hu, ht]
    exact h t
  · rw [hother u hu]
    exact h u

theorem OwnedBy.acquire (h : OwnedBy none holds)
    (hother : forall u, u ≠ t -> (after u ↔ holds u)) (ht : after t) :
    OwnedBy (some t) after := by
  intro u
  by_cases hu : u = t
  · rw [hu]
    exact ⟨fun _ => rfl, fun _ => ht⟩
  · rw [hother u hu]
    constructor
    · intro hold
      have hnone := (h u).mp hold
      cases hnone
    · intro hsome
      cases hsome
      exact absurd rfl hu

theorem OwnedBy.release (h : OwnedBy lock holds) (held : holds t)
    (hother : forall u, u ≠ t -> (after u ↔ holds u)) (ht : ¬ after t) :
    OwnedBy none after := by
  intro u
  by_cases hu : u = t
  · rw [hu]
    exact ⟨fun hafter => absurd hafter ht, fun hnone => by cases hnone⟩
  · rw [hother u hu]
    constructor
    · intro hold
      exact absurd (h.unique hold held) hu
    · intro hnone
      cases hnone

end OwnedBy

/-!
# Locks in order

When every thread waits for a lock that comes after all those it holds, threads
never wait for each other in a circle.
-/

section Order

variable {tid : Type u} {lock : Type v}

/-- A set of threads each of which waits for a lock that a thread of the set
holds. -/
structure Circular (waits holds : tid -> lock -> Prop) (S : tid -> Prop) :
    Prop where
  nonempty : exists t, S t
  closed : forall t, S t -> exists l u, waits t l ∧ holds u l ∧ S u

variable {waits holds : tid -> lock -> Prop} {rank : lock -> Nat}

theorem Circular.climb
    (horder : forall t l m, waits t l -> holds t m -> rank m < rank l)
    {S : tid -> Prop} (h : Circular waits holds S) (n : Nat) :
    exists l u, holds u l ∧ S u ∧ n ≤ rank l := by
  induction n with
  | zero =>
      rcases h.nonempty with ⟨t, ht⟩
      rcases h.closed t ht with ⟨l, u, _, hholds, hu⟩
      exact ⟨l, u, hholds, hu, Nat.zero_le _⟩
  | succ n ih =>
      rcases ih with ⟨l, u, hholds, hu, hn⟩
      rcases h.closed u hu with ⟨m, v, hwaits, hnext, hv⟩
      have hlt := horder u m l hwaits hholds
      exact ⟨m, v, hnext, hv, Nat.lt_of_le_of_lt hn hlt⟩

theorem not_circular {bound : Nat} (hbound : forall l, rank l < bound)
    (horder : forall t l m, waits t l -> holds t m -> rank m < rank l)
    {S : tid -> Prop} : ¬ Circular waits holds S := by
  intro h
  rcases h.climb horder bound with ⟨l, _, _, _, hle⟩
  exact absurd (hbound l) (Nat.not_lt.mpr hle)

end Order

end Foundation
end Apue
