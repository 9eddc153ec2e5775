import Apue.Foundation.Decimal
import Apue.Foundation.Transition
import Apue.Kernel.Files

/-!
# already_running

Any number of processes run `already_running` on one lock file.  Every system
call is a step of its own.  The kernel gives the write lock on the whole file to
one process at a time and takes it back when that process closes the file or
exits.  Truncating and writing the file may fail, which the function does not notice.
-/

namespace Apue
namespace Daemon

open Foundation Kernel

/-- Where a process is.  `won` and `lost` are the states after the function
returned 0 and 1; a process number that nobody has is `absent`. -/
inductive Phase where
  | absent
  | start
  | opened
  | locked
  | truncated
  | won
  | refused
  | lost
  deriving Repr, DecidableEq

/-- What `already_running` returned. -/
def Phase.result : Phase -> Option Int
  | Phase.won => some 0
  | Phase.lost => some 1
  | _ => none

/-- The lock file (absent at first, perhaps), who has the lock, where each
process is, and whether it has changed the contents of the file. -/
structure State where
  file : Option (List Byte)
  lock : Option Pid
  phase : Pid -> Phase
  changed : Pid -> Bool

/-- `write` stores so many bytes, none when it fails. -/
inductive Label where
  | spawn (pid : Pid)
  | openFile (pid : Pid) (ok : Bool)
  | lockfile (pid : Pid) (error : Bool)
  | ftruncate (pid : Pid) (ok : Bool)
  | write (pid : Pid) (n : Nat)
  | close (pid : Pid)
  | exit (pid : Pid)
  deriving Repr, DecidableEq

def Label.pid : Label -> Pid
  | Label.spawn pid => pid
  | Label.openFile pid _ => pid
  | Label.lockfile pid _ => pid
  | Label.ftruncate pid _ => pid
  | Label.write pid _ => pid
  | Label.close pid => pid
  | Label.exit pid => pid

/-- `sprintf(buf, "%ld", getpid())` with the terminator. -/
def pidText (pid : Pid) : List Byte :=
  decimal pid ++ [0]

def overwrite (old new : List Byte) : List Byte :=
  new ++ old.drop new.length

def releaseLock (lock : Option Pid) (pid : Pid) : Option Pid :=
  if lock = some pid then none else lock

def move (s : State) (pid : Pid) (phase : Phase) : State :=
  { s with phase := fun q => if q = pid then phase else s.phase q }

/-- `exit`, and the `exit(1)` of a failing call. -/
def leave (s : State) (pid : Pid) : State :=
  move { s with lock := releaseLock s.lock pid } pid Phase.absent

/-- The system calls of `already_running`, one a step. -/
def call (s : State) : Label -> Option State
  | Label.spawn pid =>
      if s.phase pid = Phase.absent then
        some
          { move s pid Phase.start with
            changed := fun q => if q = pid then false else s.changed q }
      else
        none
  | Label.openFile pid ok =>
      if s.phase pid = Phase.start then
        if ok then
          some (move { s with file := some (s.file.getD []) } pid Phase.opened)
        else
          some (leave s pid)
      else
        none
  | Label.lockfile pid error =>
      if s.phase pid = Phase.opened then
        if error then
          some (leave s pid)
        else if s.lock = none ∨ s.lock = some pid then
          some (move { s with lock := some pid } pid Phase.locked)
        else
          some (move s pid Phase.refused)
      else
        none
  | Label.ftruncate pid ok =>
      if s.phase pid = Phase.locked then
        some (move { s with file := if ok then some [] else s.file } pid
          Phase.truncated)
      else
        none
  | Label.write pid n =>
      if s.phase pid = Phase.truncated then
        some (move
          { s with
            file := some (overwrite (s.file.getD []) ((pidText pid).take n)) }
          pid Phase.won)
      else
        none
  | Label.close pid =>
      if s.phase pid = Phase.refused then
        some (move { s with lock := releaseLock s.lock pid } pid Phase.lost)
      else
        none
  | Label.exit pid =>
      if s.phase pid = Phase.absent then none else some (leave s pid)

def note (before after : State) (pid : Pid) : State :=
  { after with
    changed := fun q =>
      after.changed q ||
        (q = pid && before.file.getD [] ≠ after.file.getD []) }

def step (s : State) (l : Label) : Option State :=
  match call s l with
  | none => none
  | some t => some (note s t l.pid)

def machine : Machine State Label where
  init s := s.lock = none ∧ forall pid, s.phase pid = Phase.absent
  step := step

/-!
# The invariant
-/

def Phase.holds : Phase -> Bool
  | Phase.locked => true
  | Phase.truncated => true
  | Phase.won => true
  | _ => false

def Phase.harmless : Phase -> Bool
  | Phase.absent => false
  | Phase.truncated => false
  | Phase.won => false
  | _ => true

structure Exclusive (s : State) : Prop where
  owner : forall pid, (s.phase pid).holds = true -> s.lock = some pid
  clean : forall pid, (s.phase pid).harmless = true -> s.changed pid = false

theorem Exclusive.unique {s : State} (h : Exclusive s) {p q : Pid}
    (hp : (s.phase p).holds = true) (hq : (s.phase q).holds = true) : p = q := by
  have howner := h.owner p hp
  rw [h.owner q hq] at howner
  cases howner
  rfl

theorem move_same (s : State) (pid : Pid) (phase : Phase) :
    (move s pid phase).phase pid = phase :=
  if_pos rfl

/-- The steps of one process, seen from the others: their phases stay, a lock
that one of them has stays, and so does the file once one of them truncated it. -/
structure Frame (s t : State) (pid : Pid) : Prop where
  phase : forall q, q ≠ pid -> t.phase q = s.phase q
  changed : forall q, q ≠ pid -> t.changed q = s.changed q
  lock : forall q, q ≠ pid -> s.lock = some q -> t.lock = s.lock
  file : s.file ≠ none -> t.file = s.file ∨ s.lock = some pid

structure Arrived (t : State) (pid : Pid) : Prop where
  owner : (t.phase pid).holds = true -> t.lock = some pid
  clean : (t.phase pid).harmless = true -> t.changed pid = false

theorem Exclusive.undisturbed {s t : State} {pid q : Pid} (h : Exclusive s)
    (hframe : Frame s t pid) (hne : q ≠ pid) : Arrived t q := by
  have hphase := hframe.phase q hne
  constructor
  · intro hq
    rw [hphase] at hq
    have howner := h.owner q hq
    rw [hframe.lock q hne howner]
    exact howner
  · intro hq
    rw [hphase] at hq
    rw [hframe.changed q hne]
    exact h.clean q hq

structure Moved (s t : State) (pid : Pid) : Prop where
  frame : Frame s t pid
  arrived : Arrived t pid

theorem Exclusive.advance {s t : State} {pid : Pid} (h : Exclusive s)
    (hmoved : Moved s t pid) : Exclusive t := by
  have harrived : forall q, Arrived t q := by
    intro q
    by_cases heq : q = pid
    · rw [heq]
      exact hmoved.arrived
    · exact h.undisturbed hmoved.frame heq
  exact ⟨fun q => (harrived q).owner, fun q => (harrived q).clean⟩

/-!
# What a step does
-/

theorem releaseLock_other {lock : Option Pid} {pid q : Pid} (hne : q ≠ pid)
    (hlock : lock = some q) : releaseLock lock pid = lock := by
  unfold releaseLock
  rw [if_neg]
  intro heq
  rw [hlock] at heq
  cases heq
  exact hne rfl

theorem step_cases {s t : State} {l : Label} (h : step s l = some t) :
    exists u, call s l = some u ∧ t = note s u l.pid := by
  unfold step at h
  split at h
  · cases h
  · next u hu =>
      cases h
      exact ⟨u, hu, rfl⟩

theorem Frame.note {s u : State} {pid : Pid} (h : Frame s u pid) :
    Frame s (note s u pid) pid := by
  constructor
  · exact h.phase
  · intro q hq
    change (u.changed q || (decide (q = pid) && _)) = s.changed q
    rw [decide_eq_false hq, Bool.false_and, Bool.or_false]
    exact h.changed q hq
  · exact h.lock
  · exact h.file

theorem note_clean {s u : State} {pid : Pid}
    (hsame : u.file.getD [] = s.file.getD [])
    (hclean : u.changed pid = false) : (note s u pid).changed pid = false := by
  change (u.changed pid || (decide (pid = pid) &&
    decide (s.file.getD [] ≠ u.file.getD []))) = false
  rw [hclean, hsame]
  simp

theorem frame_move {s : State} {pid : Pid} {phase : Phase}
    (file : Option (List Byte)) (lock : Option Pid)
    (hlock : forall q, q ≠ pid -> s.lock = some q -> lock = s.lock)
    (hfile : s.file ≠ none -> file = s.file ∨ s.lock = some pid) :
    Frame s (move { s with file := file, lock := lock } pid phase) pid :=
  ⟨fun _ hq => if_neg hq, fun _ _ => rfl, hlock, hfile⟩

theorem frame_leave (s : State) (pid : Pid) : Frame s (leave s pid) pid :=
  frame_move s.file _ (fun _ hq hlock => releaseLock_other hq hlock)
    (fun _ => Or.inl rfl)

theorem arrived_absent {t : State} {pid : Pid}
    (h : t.phase pid = Phase.absent) : Arrived t pid := by
  constructor
  · rw [h]
    intro hholds
    cases hholds
  · rw [h]
    intro hharmless
    cases hharmless

theorem arrived_clean {t : State} {pid : Pid} (phase : Phase)
    (h : t.phase pid = phase)
    (howner : phase.holds = true -> t.lock = some pid)
    (hclean : t.changed pid = false) : Arrived t pid := by
  constructor
  · rw [h]
    exact howner
  · intro _
    exact hclean

theorem arrived_owner {t : State} {pid : Pid} (phase : Phase)
    (h : t.phase pid = phase) (hharmless : phase.harmless = false)
    (howner : t.lock = some pid) : Arrived t pid := by
  constructor
  · intro _
    exact howner
  · rw [h, hharmless]
    intro hfalse
    cases hfalse

/-!
# Every step keeps the invariant
-/

theorem moved_leave (s : State) (pid : Pid) :
    Moved s (note s (leave s pid) pid) pid :=
  ⟨(frame_leave s pid).note,
    arrived_absent (move_same { s with lock := releaseLock s.lock pid } pid _)⟩

theorem moved_spawn {s t : State} {pid : Pid}
    (ht : call s (Label.spawn pid) = some t) : Moved s (note s t pid) pid := by
  simp only [call] at ht
  split at ht
  · cases ht
    constructor
    · apply Frame.note
      constructor
      · intro q hq
        exact if_neg hq
      · intro q hq
        exact if_neg hq
      · intro q _ _
        rfl
      · intro _
        left
        rfl
    · apply arrived_clean Phase.start (if_pos rfl)
      · intro hholds
        cases hholds
      · apply note_clean
        · rfl
        · exact if_pos rfl
  · cases ht

theorem Exclusive.openFile {s t : State} {pid : Pid} {ok : Bool}
    (h : Exclusive s) (ht : call s (Label.openFile pid ok) = some t) :
    Moved s (note s t pid) pid := by
  simp only [call] at ht
  split at ht
  · next hstart =>
      cases ok with
      | false =>
          cases ht
          exact moved_leave s pid
      | true =>
          cases ht
          constructor
          · apply Frame.note
            apply frame_move _ s.lock
            · intro q _ _
              rfl
            · intro hsome
              left
              cases hfile : s.file with
              | none => exact absurd hfile hsome
              | some b => rfl
          · apply arrived_clean Phase.opened (if_pos rfl)
            · intro hholds
              cases hholds
            · apply note_clean
              · rfl
              · exact h.clean pid (by rw [hstart]; rfl)
  · cases ht

theorem Exclusive.lockfile {s t : State} {pid : Pid} {error : Bool}
    (h : Exclusive s) (ht : call s (Label.lockfile pid error) = some t) :
    Moved s (note s t pid) pid := by
  simp only [call] at ht
  split at ht
  · next hopened =>
      have hclean : s.changed pid = false :=
        h.clean pid (by rw [hopened]; rfl)
      cases error with
      | true =>
          cases ht
          exact moved_leave s pid
      | false =>
          simp only [Bool.false_eq_true, if_false] at ht
          split at ht
          · next hfree =>
              cases ht
              constructor
              · apply Frame.note
                apply frame_move s.file
                · intro q hq hlock
                  rcases hfree with hnone | hown
                  · rw [hnone] at hlock
                    cases hlock
                  · exact hown.symm
                · intro _
                  left
                  rfl
              · apply arrived_clean Phase.locked (if_pos rfl)
                · intro _
                  rfl
                · exact note_clean rfl hclean
          · cases ht
            constructor
            · apply Frame.note
              exact frame_move s.file s.lock (fun _ _ _ => rfl)
                (fun _ => Or.inl rfl)
            · apply arrived_clean Phase.refused (if_pos rfl)
              · intro hholds
                cases hholds
              · exact note_clean rfl hclean
  · cases ht

theorem Exclusive.ftruncate {s t : State} {pid : Pid} {ok : Bool}
    (h : Exclusive s) (ht : call s (Label.ftruncate pid ok) = some t) :
    Moved s (note s t pid) pid := by
  simp only [call] at ht
  split at ht
  · next hlocked =>
      have howner : s.lock = some pid := h.owner pid (by rw [hlocked]; rfl)
      cases ht
      constructor
      · apply Frame.note
        exact frame_move _ s.lock (fun _ _ _ => rfl) (fun _ => Or.inr howner)
      · exact arrived_owner Phase.truncated (if_pos rfl) rfl howner
  · cases ht

theorem Exclusive.write {s t : State} {pid : Pid} {n : Nat} (h : Exclusive s)
    (ht : call s (Label.write pid n) = some t) :
    Moved s (note s t pid) pid := by
  simp only [call] at ht
  split at ht
  · next htruncated =>
      have howner : s.lock = some pid := h.owner pid (by rw [htruncated]; rfl)
      cases ht
      constructor
      · apply Frame.note
        exact frame_move _ s.lock (fun _ _ _ => rfl) (fun _ => Or.inr howner)
      · exact arrived_owner Phase.won (if_pos rfl) rfl howner
  · cases ht

theorem Exclusive.close {s t : State} {pid : Pid} (h : Exclusive s)
    (ht : call s (Label.close pid) = some t) : Moved s (note s t pid) pid := by
  simp only [call] at ht
  split at ht
  · next hrefused =>
      cases ht
      constructor
      · apply Frame.note
        exact frame_move s.file _
          (fun _ hq hlock => releaseLock_other hq hlock) (fun _ => Or.inl rfl)
      · apply arrived_clean Phase.lost (if_pos rfl)
        · intro hholds
          cases hholds
        · exact note_clean rfl (h.clean pid (by rw [hrefused]; rfl))
  · cases ht

theorem Exclusive.moved {s t : State} {l : Label} (h : Exclusive s)
    (ht : step s l = some t) : Moved s t l.pid := by
  rcases step_cases ht with ⟨u, hu, heq⟩
  rw [heq]
  cases l with
  | spawn pid => exact moved_spawn hu
  | openFile pid ok => exact h.openFile hu
  | lockfile pid error => exact h.lockfile hu
  | ftruncate pid ok => exact h.ftruncate hu
  | write pid n => exact h.write hu
  | close pid => exact h.close hu
  | exit pid =>
      simp only [call] at hu
      split at hu
      · cases hu
      · cases hu
        exact moved_leave s pid

theorem exclusive_initial {s : State} (hinit : machine.init s) : Exclusive s := by
  have habsent := fun pid => arrived_absent (hinit.2 pid)
  exact ⟨fun pid => (habsent pid).owner, fun pid => (habsent pid).clean⟩

theorem exclusive_of_reachable {s : State} (hs : machine.Reachable s) :
    Exclusive s := by
  apply Machine.invariant _ _ hs
  · intro s hinit
    exact exclusive_initial hinit
  · intro s l t hI ht
    exact hI.advance (hI.moved ht)

/-!
# The contents of the file

They are the winner's as long as both calls that it does not check take effect.
-/

/-- `ftruncate` succeeds, and `write` takes all bytes. -/
def Effective : Label -> Prop
  | Label.ftruncate _ ok => ok = true
  | Label.write pid n => (pidText pid).length ≤ n
  | _ => True

instance : DecidablePred Effective
  | Label.ftruncate _ ok => inferInstanceAs (Decidable (ok = true))
  | Label.write pid n => inferInstanceAs (Decidable ((pidText pid).length ≤ n))
  | Label.spawn _ => isTrue trivial
  | Label.openFile _ _ => isTrue trivial
  | Label.lockfile _ _ => isTrue trivial
  | Label.close _ => isTrue trivial
  | Label.exit _ => isTrue trivial

def Holds (s : State) (pid : Pid) : Phase -> Prop
  | Phase.truncated => s.file = some []
  | Phase.won => s.file = some (pidText pid)
  | _ => True

def Written (s : State) : Prop :=
  forall pid, Holds s pid (s.phase pid)

def Phase.writes : Phase -> Bool
  | Phase.truncated => true
  | Phase.won => true
  | _ => false

theorem Phase.holds_of_writes {phase : Phase} (h : phase.writes = true) :
    phase.holds = true := by
  cases phase with
  | truncated => rfl
  | won => rfl
  | absent => cases h
  | start => cases h
  | opened => cases h
  | locked => cases h
  | refused => cases h
  | lost => cases h

theorem holds_of_not_writes {s : State} {pid : Pid} {phase : Phase}
    (h : phase.writes = false) : Holds s pid phase := by
  cases phase with
  | truncated => cases h
  | won => cases h
  | absent => trivial
  | start => trivial
  | opened => trivial
  | locked => trivial
  | refused => trivial
  | lost => trivial

theorem holds_iff_of_writes (pid : Pid) {phase : Phase} (h : phase.writes = true) :
    exists b, forall s, Holds s pid phase ↔ s.file = some b := by
  cases phase with
  | truncated => exact ⟨[], fun s => Iff.rfl⟩
  | won => exact ⟨pidText pid, fun s => Iff.rfl⟩
  | absent => cases h
  | start => cases h
  | opened => cases h
  | locked => cases h
  | refused => cases h
  | lost => cases h

theorem Written.undisturbed {s t : State} {pid q : Pid} (h : Written s)
    (hexclusive : Exclusive s) (hframe : Frame s t pid) (hne : q ≠ pid) :
    Holds t q (t.phase q) := by
  rw [hframe.phase q hne]
  have hold := h q
  cases hwrites : (s.phase q).writes with
  | false => exact holds_of_not_writes hwrites
  | true =>
      rcases holds_iff_of_writes q hwrites with ⟨b, hfile⟩
      rw [hfile] at hold ⊢
      have hsome : s.file ≠ none := by
        rw [hold]
        exact Option.some_ne_none b
      rcases hframe.file hsome with hsame | hlock
      · exact hsame.trans hold
      · rw [hexclusive.owner q (Phase.holds_of_writes hwrites)] at hlock
        cases hlock
        exact absurd rfl hne

theorem holds_move {s : State} {pid : Pid} {phase : Phase}
    (h : phase.writes = false) :
    Holds (move s pid phase) pid ((move s pid phase).phase pid) := by
  rw [move_same]
  exact holds_of_not_writes h

theorem Written.call {s t : State} {l : Label} (h : Written s)
    (hl : Effective l) (ht : call s l = some t) :
    Holds t l.pid (t.phase l.pid) := by
  cases l with
  | spawn pid =>
      simp only [Daemon.call] at ht
      split at ht
      · cases ht
        exact @holds_move s pid Phase.start rfl
      · cases ht
  | openFile pid ok =>
      simp only [Daemon.call] at ht
      split at ht
      · split at ht
        · cases ht
          exact holds_move rfl
        · cases ht
          exact holds_move rfl
      · cases ht
  | lockfile pid error =>
      simp only [Daemon.call] at ht
      split at ht
      · split at ht
        · cases ht
          exact holds_move rfl
        · split at ht
          · cases ht
            exact holds_move rfl
          · cases ht
            exact holds_move rfl
      · cases ht
  | ftruncate pid ok =>
      simp only [Daemon.call] at ht
      split at ht
      · cases ht
        change Holds _ pid ((move _ pid Phase.truncated).phase pid)
        rw [move_same]
        exact if_pos hl
      · cases ht
  | write pid n =>
      simp only [Daemon.call] at ht
      split at ht
      · next htruncated =>
          have hempty := h pid
          rw [htruncated] at hempty
          change s.file = some [] at hempty
          have hall : (pidText pid).take n = pidText pid := List.take_of_length_le hl
          cases ht
          change Holds _ pid ((move _ pid Phase.won).phase pid)
          rw [move_same]
          change some (overwrite (s.file.getD []) ((pidText pid).take n)) = _
          rw [hempty, hall]
          unfold overwrite
          rw [Option.getD_some, List.drop_nil, List.append_nil]
      · cases ht
  | close pid =>
      simp only [Daemon.call] at ht
      split at ht
      · cases ht
        exact holds_move rfl
      · cases ht
  | exit pid =>
      simp only [Daemon.call] at ht
      split at ht
      · cases ht
      · cases ht
        exact holds_move rfl

theorem Written.step {s t : State} {l : Label} (h : Written s)
    (hexclusive : Exclusive s) (hl : Effective l) (ht : step s l = some t) :
    Written t := by
  intro q
  by_cases heq : q = l.pid
  · rcases step_cases ht with ⟨u, hu, hnote⟩
    rw [heq, hnote]
    have hholds : Holds u l.pid (u.phase l.pid) := h.call hl hu
    exact hholds
  · exact h.undisturbed hexclusive (hexclusive.moved ht).frame heq

theorem written_of_reachable {s : State}
    (hs : machine.ReachableUnder (fun _ l => Effective l) s) : Written s := by
  have hboth : Exclusive s ∧ Written s := by
    apply Machine.invariant_under _ _ hs
    · intro s hinit
      refine ⟨exclusive_initial hinit, fun pid => ?_⟩
      rw [hinit.2 pid]
      trivial
    · intro s l t hI hl ht
      exact ⟨hI.1.advance (hI.1.moved ht), hI.2.step hI.1 hl ht⟩
  exact hboth.2

theorem won_of_result {phase : Phase} (h : phase.result = some 0) :
    phase = Phase.won := by
  cases phase with
  | won => rfl
  | lost => cases h
  | absent => cases h
  | start => cases h
  | opened => cases h
  | locked => cases h
  | truncated => cases h
  | refused => cases h

theorem lost_of_result {phase : Phase} (h : phase.result = some 1) :
    phase = Phase.lost := by
  cases phase with
  | lost => rfl
  | won => cases h
  | absent => cases h
  | start => cases h
  | opened => cases h
  | locked => cases h
  | truncated => cases h
  | refused => cases h

/--
At any time at most one live process has got 0, a process that got 1 has not
changed the file, and while a process that got 0 is alive the file holds its
number in decimal with a terminator, if no truncation and no write has failed.
-/
theorem already_running_single (s : State) :
    (machine.Reachable s ->
      (forall p q, (s.phase p).result = some 0 -> (s.phase q).result = some 0 ->
        p = q) ∧
      forall p, (s.phase p).result = some 1 -> s.changed p = false) ∧
    (machine.ReachableUnder (fun _ l => Effective l) s ->
      forall p, (s.phase p).result = some 0 ->
        s.file = some (decimal p ++ [0])) := by
  constructor
  · intro hs
    have h := exclusive_of_reachable hs
    constructor
    · intro p q hp hq
      exact h.unique (by rw [won_of_result hp]; rfl)
        (by rw [won_of_result hq]; rfl)
    · intro p hp
      exact h.clean p (by rw [lost_of_result hp]; rfl)
  · intro hs p hp
    have htext := written_of_reachable hs p
    rw [won_of_result hp] at htext
    exact htext

def afterCrash : State where
  file := some (pidText 4711)
  lock := none
  phase := fun _ => Phase.absent
  changed := fun _ => false

def twoDaemons : List Label :=
  [Label.spawn 12, Label.spawn 34, Label.openFile 34 true,
    Label.openFile 12 true, Label.lockfile 12 false, Label.ftruncate 12 true,
    Label.lockfile 34 false, Label.close 34, Label.write 12 3]

theorem initial_afterCrash : machine.init afterCrash :=
  ⟨rfl, fun _ => rfl⟩

theorem already_running_single_two :
    exists s, machine.run afterCrash twoDaemons = some s ∧
      s.changed 34 = false ∧ s.file = some [49, 50, 0] := by
  have hrun : (machine.run afterCrash twoDaemons).isSome = true := by
    decide
  rcases Option.isSome_iff_exists.mp hrun with ⟨s, hs⟩
  have hphase : ((machine.run afterCrash twoDaemons).map
      (fun s => ((s.phase 12).result, (s.phase 34).result))) =
        some (some 0, some 1) := by
    decide
  rw [hs] at hphase
  have hmeets : machine.RunMeets (fun _ l => Effective l) afterCrash
      twoDaemons := by
    decide
  have hreach := Machine.reachable_of_run
    (Machine.ReachableUnder.init initial_afterCrash) hs
  have heffective := Machine.reachableUnder_of_run
    (Machine.ReachableUnder.init initial_afterCrash) hmeets hs
  have hloser := ((already_running_single s).1 hreach).2
  have hwinner := (already_running_single s).2 heffective
  simp only [Option.map_some, Option.some.injEq, Prod.mk.injEq] at hphase
  exact ⟨s, hs, hloser 34 hphase.2, hwinner 12 hphase.1⟩

/-- The disk is full: process 12 gets 0 and the file is empty. -/
theorem winner_without_pid :
    exists s, machine.Reachable s ∧ (s.phase 12).result = some 0 ∧
      s.file = some [] := by
  have hrun : (machine.run afterCrash
      [Label.spawn 12, Label.openFile 12 true, Label.lockfile 12 false,
        Label.ftruncate 12 true, Label.write 12 0]).map
      (fun s => ((s.phase 12).result, s.file)) = some (some 0, some []) := by
    decide
  rcases Option.map_eq_some_iff.mp hrun with ⟨s, hs, heq⟩
  simp only [Prod.mk.injEq] at heq
  exact ⟨s, Machine.reachable_of_run
    (Machine.ReachableUnder.init initial_afterCrash) hs, heq.1, heq.2⟩

end Daemon
end Apue
