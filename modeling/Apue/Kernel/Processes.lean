import Mathlib.Logic.Function.Basic

/-!
# The process table

Each process has a parent.  A process that has ended stays in the table as a
zombie, with its status, until its parent waits for it; the children of a process
that ends get `init` as their parent.  A process that is gone leaves its number to
a later one.  No process ignores `SIGCHLD` or is a subreaper.
-/

namespace Apue
namespace Processes

abbrev Pid := Nat

def init : Pid := 1

inductive Life where
  | running
  | zombie (status : Nat)
  deriving Repr, DecidableEq

structure Entry where
  parent : Pid
  life : Life
  deriving Repr, DecidableEq

abbrev Table := Pid -> Option Entry

def Running (t : Table) (p : Pid) : Prop :=
  (t p).map Entry.life = some Life.running

instance (t : Table) (p : Pid) : Decidable (Running t p) :=
  inferInstanceAs (Decidable (_ = _))

/-- `c` is a number that is not in use. -/
def fork (t : Table) (p c : Pid) : Option Table :=
  if Running t p ∧ t c = none then
    some (Function.update t c (some { parent := p, life := Life.running }))
  else
    none

/-- What the end of `p` means to another process. -/
def adopt (p : Pid) (e : Entry) : Entry :=
  if e.parent = p then { e with parent := init } else e

def exit (t : Table) (p : Pid) (status : Nat) : Option Table :=
  if Running t p ∧ p ≠ init then
    some (Function.update (fun q => (t q).map (adopt p)) p
      ((t p).map (fun e => { e with life := Life.zombie status })))
  else
    none

/-- `waitpid` for the process `c`: the status, or nothing for `ECHILD`.  It waits for
a child that runs. -/
def waitpid (t : Table) (p c : Pid) : Option (Option Nat × Table) :=
  match t c with
  | some { parent := parent, life := Life.zombie status } =>
      if parent = p then
        some (some status, Function.update t c none)
      else
        some (none, t)
  | some { parent := parent, life := Life.running } =>
      if parent = p then none else some (none, t)
  | none => some (none, t)

/-- `kill` with a signal that does nothing: whether there is such a process. -/
def kill (t : Table) (p : Pid) : Bool :=
  (t p).isSome

def getppid (t : Table) (p : Pid) : Option Pid :=
  (t p).map Entry.parent

/-!
# What other processes do
-/

inductive Act where
  | fork (p c : Pid)
  | exit (p : Pid) (status : Nat)
  | waitpid (p c : Pid)
  deriving Repr, DecidableEq

def Act.by_ : Act -> Pid
  | Act.fork p _ => p
  | Act.exit p _ => p
  | Act.waitpid p _ => p

def wait (t : Table) (p c : Pid) : Option Table :=
  if Running t p then (waitpid t p c).map Prod.snd else none

def act (t : Table) : Act -> Option Table
  | Act.fork p c => fork t p c
  | Act.exit p status => exit t p status
  | Act.waitpid p c => wait t p c

theorem act_by_running {t u : Table} {a : Act} (h : act t a = some u) : Running t a.by_ := by
  cases a with
  | fork p c =>
      have hfork : fork t p c = some u := h
      unfold fork at hfork
      split at hfork
      · next hrunning => exact hrunning.1
      · cases hfork
  | exit p status =>
      have hexit : exit t p status = some u := h
      unfold exit at hexit
      split at hexit
      · next hrunning => exact hrunning.1
      · cases hexit
  | waitpid p c =>
      have hwait : wait t p c = some u := h
      unfold wait at hwait
      split at hwait
      · next hrunning => exact hrunning
      · cases hwait

section

variable {t u : Table} {p q c : Pid} {e : Entry} {status : Nat} {a : Act}

theorem running_iff :
    Running t p ↔ exists parent, t p = some { parent, life := Life.running } := by
  unfold Running
  cases h : t p with
  | none => simp
  | some e =>
      rcases e with ⟨parent, life⟩
      simp

theorem running_of_entry {parent : Pid} (h : t p = some { parent, life := Life.running }) :
    Running t p :=
  running_iff.mpr ⟨parent, h⟩

theorem fork_eq_some (h : fork t p c = some u) :
    Running t p ∧ t c = none ∧
      u = Function.update t c (some { parent := p, life := Life.running }) := by
  unfold fork at h
  split at h
  · next hfork =>
      cases h
      exact ⟨hfork.1, hfork.2, rfl⟩
  · cases h

theorem exit_eq_some (h : exit t p status = some u) :
    Running t p ∧ p ≠ init ∧
      u = Function.update (fun q => (t q).map (adopt p)) p
        ((t p).map (fun e => { e with life := Life.zombie status })) := by
  unfold exit at h
  split at h
  · next hexit =>
      cases h
      exact ⟨hexit.1, hexit.2, rfl⟩
  · cases h

theorem exit_isSome (status : Nat) (hrunning : Running t p) (hinit : p ≠ init) :
    exists u, exit t p status = some u :=
  ⟨_, if_pos ⟨hrunning, hinit⟩⟩

theorem exit_same {parent : Pid} (h : exit t p status = some u)
    (hp : t p = some { parent, life := Life.running }) :
    u p = some { parent, life := Life.zombie status } := by
  rcases exit_eq_some h with ⟨_, _, heq⟩
  rw [heq, Function.update_self, hp]
  rfl

theorem exit_other (h : exit t p status = some u) (hne : q ≠ p) :
    u q = (t q).map (adopt p) := by
  rcases exit_eq_some h with ⟨_, _, heq⟩
  rw [heq, Function.update_of_ne hne]

theorem ne_of_free (hrunning : Running t p) (hfree : t c = none) : c ≠ p := by
  intro heq
  unfold Running at hrunning
  rw [← heq, hfree] at hrunning
  cases hrunning

theorem waitpid_cases {r : Option Nat} (h : waitpid t p c = some (r, u)) :
    (r = none ∧ u = t ∧ forall e, t c = some e -> e.parent ≠ p) ∨
      (exists status, r = some status ∧
        t c = some { parent := p, life := Life.zombie status } ∧
        u = Function.update t c none) := by
  unfold waitpid at h
  split at h
  · next parent status hc =>
      split at h
      · next heq =>
          cases h
          rw [← heq]
          exact Or.inr ⟨status, rfl, hc, rfl⟩
      · next hne =>
          cases h
          refine Or.inl ⟨rfl, rfl, ?_⟩
          intro e he
          rw [hc] at he
          cases he
          exact hne
  · next parent hc =>
      split at h
      · cases h
      · next hne =>
          cases h
          refine Or.inl ⟨rfl, rfl, ?_⟩
          intro e he
          rw [hc] at he
          cases he
          exact hne
  · next hc =>
      cases h
      refine Or.inl ⟨rfl, rfl, ?_⟩
      intro e he
      rw [hc] at he
      cases he

theorem waitpid_zombie (h : t c = some { parent := p, life := Life.zombie status }) :
    waitpid t p c = some (some status, Function.update t c none) := by
  unfold waitpid
  rw [h]
  exact if_pos rfl

theorem waitpid_running (h : t c = some { parent := p, life := Life.running }) :
    waitpid t p c = none := by
  unfold waitpid
  rw [h]
  exact if_pos rfl

theorem wait_cases (h : wait t p c = some u) :
    u = t ∨ exists status, t c = some { parent := p, life := Life.zombie status } ∧
      u = Function.update t c none := by
  unfold wait at h
  split at h
  · rcases Option.map_eq_some_iff.mp h with ⟨⟨r, v⟩, hwait, hv⟩
    cases hv
    rcases waitpid_cases hwait with ⟨_, heq, _⟩ | ⟨status, _, hc, heq⟩
    · exact Or.inl heq
    · exact Or.inr ⟨status, hc, heq⟩
  · cases h

/-!
# What another process cannot do

An entry changes only through the process itself and through its parent.
-/

theorem act_entry (h : act t a = some u) (he : t q = some e) (hself : a.by_ ≠ q)
    (hparent : a.by_ ≠ e.parent) : u q = some e := by
  cases a with
  | fork p c =>
      rcases fork_eq_some h with ⟨_, hfree, heq⟩
      have hne : q ≠ c := by
        intro hqc
        rw [← hqc, he] at hfree
        cases hfree
      rw [heq, Function.update_of_ne hne, he]
  | exit p status =>
      rw [exit_other h (fun hqp => hself hqp.symm), he]
      show some (adopt p e) = some e
      unfold adopt
      rw [if_neg (fun hep => hparent hep.symm)]
  | waitpid p c =>
      rcases wait_cases h with heq | ⟨status, hc, heq⟩
      · rw [heq]
        exact he
      · have hne : q ≠ c := by
          intro hqc
          rw [← hqc, he] at hc
          cases hc
          exact hparent rfl
        rw [heq]
        rw [Function.update_of_ne hne]
        exact he

theorem act_entry_running (h : act t a = some u)
    (he : t q = some { parent := c, life := Life.running })
    (hno : forall p status, a ≠ Act.exit p status) :
    u q = some { parent := c, life := Life.running } := by
  cases a with
  | fork p d =>
      rcases fork_eq_some h with ⟨_, hfree, heq⟩
      have hne : q ≠ d := by
        intro hqd
        rw [← hqd, he] at hfree
        cases hfree
      rw [heq, Function.update_of_ne hne, he]
  | exit p status => exact absurd rfl (hno p status)
  | waitpid p d =>
      rcases wait_cases h with heq | ⟨status, hd, heq⟩
      · rw [heq, he]
      · have hne : q ≠ d := by
          intro hqd
          rw [← hqd, he] at hd
          cases hd
        rw [heq, Function.update_of_ne hne, he]

theorem act_orphan (h : act t a = some u)
    (he : t q = some { parent := init, life := Life.running }) (hself : a.by_ ≠ q) :
    u q = some { parent := init, life := Life.running } := by
  by_cases hinit : a.by_ = init
  · apply act_entry_running h he
    intro p status heq
    rw [heq] at h hinit
    exact (exit_eq_some h).2.1 hinit
  · exact act_entry h he hself hinit

theorem act_keeps_running (h : act t a = some u) (hrunning : Running t q)
    (hno : forall status, a ≠ Act.exit q status) : Running u q := by
  rcases running_iff.mp hrunning with ⟨parent, hq⟩
  apply running_iff.mpr
  cases a with
  | fork p c =>
      rcases fork_eq_some h with ⟨_, hfree, heq⟩
      have hne : q ≠ c := by
        intro hqc
        rw [← hqc, hq] at hfree
        cases hfree
      exact ⟨parent, by rw [heq, Function.update_of_ne hne, hq]⟩
  | exit p status =>
      rw [exit_other h (fun hqp => hno status (by rw [hqp])), hq]
      show exists parent', some (adopt p _) = _
      unfold adopt
      split
      · exact ⟨init, rfl⟩
      · exact ⟨parent, rfl⟩
  | waitpid p c =>
      rcases wait_cases h with heq | ⟨status, hc, heq⟩
      · rw [heq]
        exact ⟨parent, hq⟩
      · have hne : q ≠ c := by
          intro hqc
          rw [← hqc, hq] at hc
          cases hc
        rw [heq]
        rw [Function.update_of_ne hne]
        exact ⟨parent, hq⟩

theorem act_running (h : act t a = some u) (hrunning : Running t q) (hself : a.by_ ≠ q) :
    Running u q :=
  act_keeps_running h hrunning (fun status heq => hself (by rw [heq]; rfl))

theorem act_init (h : act t a = some u) (hrunning : Running t init) : Running u init := by
  apply act_keeps_running h hrunning
  intro status heq
  rw [heq] at h
  exact (exit_eq_some h).2.1 rfl

def Child (t : Table) (p q : Pid) : Prop :=
  getppid t q = some p

instance (t : Table) (p q : Pid) : Decidable (Child t p q) :=
  inferInstanceAs (Decidable (_ = _))

theorem child_iff : Child t p q ↔ exists life, t q = some { parent := p, life } := by
  unfold Child getppid
  cases h : t q with
  | none => simp
  | some e =>
      rcases e with ⟨parent, life⟩
      simp

theorem act_child (h : act t a = some u) (hself : a.by_ ≠ p) (hinit : p ≠ init)
    (hchild : Child u p q) : Child t p q := by
  rcases child_iff.mp hchild with ⟨life, hq⟩
  apply child_iff.mpr
  cases a with
  | fork r c =>
      rcases fork_eq_some h with ⟨_, _, heq⟩
      rw [heq] at hq
      by_cases hqc : q = c
      · rw [hqc, Function.update_self] at hq
        cases hq
        exact absurd rfl hself
      · rw [Function.update_of_ne hqc] at hq
        exact ⟨life, hq⟩
  | exit r status =>
      by_cases hqr : q = r
      · rcases exit_eq_some h with ⟨_, _, heq⟩
        rw [heq, hqr, Function.update_self] at hq
        rcases Option.map_eq_some_iff.mp hq with ⟨e, he, hlife⟩
        rw [hqr, he]
        cases hlife
        exact ⟨e.life, rfl⟩
      · rw [exit_other h hqr] at hq
        rcases Option.map_eq_some_iff.mp hq with ⟨e, he, hadopt⟩
        unfold adopt at hadopt
        split at hadopt
        · cases hadopt
          exact absurd rfl hinit
        · rw [he, hadopt]
          exact ⟨life, rfl⟩
  | waitpid r c =>
      rcases wait_cases h with heq | ⟨status, _, heq⟩
      · rw [heq] at hq
        exact ⟨life, hq⟩
      · rw [heq] at hq
        by_cases hqc : q = c
        · rw [hqc] at hq
          rw [Function.update_self] at hq
          cases hq
        · rw [Function.update_of_ne hqc] at hq
          exact ⟨life, hq⟩

theorem waitpid_other (h : ¬ Child t p c) : waitpid t p c = some (none, t) := by
  have hparent : forall parent life, t c = some { parent, life } -> parent ≠ p := by
    intro parent life hc heq
    rw [heq] at hc
    exact h (child_iff.mpr ⟨life, hc⟩)
  unfold waitpid
  split
  · next parent status hc => exact if_neg (hparent parent _ hc)
  · next parent hc => exact if_neg (hparent parent _ hc)
  · rfl

theorem act_child_stays (h : act t a = some u) (hself : a.by_ ≠ p)
    (hchild : Child t p q) : Child u p q := by
  rcases child_iff.mp hchild with ⟨life, hq⟩
  apply child_iff.mpr
  cases a with
  | fork r c =>
      rcases fork_eq_some h with ⟨_, hfree, heq⟩
      have hne : q ≠ c := by
        intro hqc
        rw [← hqc, hq] at hfree
        cases hfree
      exact ⟨life, by rw [heq, Function.update_of_ne hne, hq]⟩
  | exit r status =>
      by_cases hqr : q = r
      · rcases exit_eq_some h with ⟨_, _, heq⟩
        rw [heq, hqr, Function.update_self, ← hqr, hq]
        exact ⟨Life.zombie status, rfl⟩
      · rw [exit_other h hqr, hq]
        refine ⟨life, ?_⟩
        show some (adopt r _) = _
        unfold adopt
        rw [if_neg (fun hpr => hself hpr.symm)]
  | waitpid r c =>
      rcases wait_cases h with heq | ⟨status, hc, heq⟩
      · rw [heq]
        exact ⟨life, hq⟩
      · have hne : q ≠ c := by
          intro hqc
          rw [← hqc, hq] at hc
          cases hc
          exact hself rfl
        rw [heq]
        rw [Function.update_of_ne hne]
        exact ⟨life, hq⟩

end

end Processes
end Apue
