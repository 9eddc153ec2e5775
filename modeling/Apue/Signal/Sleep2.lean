import Apue.Foundation.Transition

/-!
# sleep2

The handler of `SIGALRM` does not return but jumps back into `sleep2`.  The
kernel blocks the signal while its handler runs and unblocks it when the handler
returns; `longjmp` leaves the mask as it is.
-/

namespace Apue
namespace Sleep2

open Foundation

/-- The next thing that the process does.  Between `called` and `armed` the
argument of `sleep2` is still needed. -/
inductive Pc where
  | idle
  | called (seconds : Nat)
  | installed (seconds : Nat)
  | jmpSet (seconds : Nat)
  | armed
  | paused
  | handler
  | jumped
  deriving Repr, DecidableEq

/-- The calls still to make, where the process is, the timer, the signal mask
and the pending set as far as `SIGALRM` is concerned, whether `sig_alarm` is
installed, and what the calls returned. -/
structure State where
  todo : List Nat
  pc : Pc
  timer : Option Nat
  blocked : Bool
  pending : Bool
  installed : Bool
  returned : List Nat
  deriving Repr, DecidableEq

/-- A step of the process (`ok` is the outcome of `signal`), a second of the
timer, and the delivery of the signal. -/
inductive Label where
  | proc (ok : Bool)
  | tick
  | deliver
  deriving Repr, DecidableEq

/-- `alarm(seconds)`; with 0 it only turns the timer off. -/
def alarm (s : State) (seconds : Nat) : State :=
  { s with timer := if seconds = 0 then none else some seconds }

def ret (s : State) (unslept : Nat) : State :=
  { s with pc := Pc.idle, returned := s.returned ++ [unslept] }

/-- The steps of `sleep2` and of `sig_alarm`; `pause` waits for a signal. -/
def proc (s : State) (ok : Bool) : Option State :=
  match s.pc with
  | Pc.idle =>
      match s.todo with
      | [] => none
      | seconds :: rest =>
          some { s with todo := rest, pc := Pc.called seconds }
  | Pc.called seconds =>
      if ok then
        some { s with installed := true, pc := Pc.installed seconds }
      else
        some (ret s seconds)
  | Pc.installed seconds => some { s with pc := Pc.jmpSet seconds }
  | Pc.jmpSet seconds => some { alarm s seconds with pc := Pc.armed }
  | Pc.armed => some { s with pc := Pc.paused }
  | Pc.paused => none
  | Pc.handler => some { s with pc := Pc.jumped }
  | Pc.jumped => some (ret (alarm s 0) (s.timer.getD 0))

def tick (s : State) : Option State :=
  match s.timer with
  | none => none
  | some 0 => none
  | some 1 => some { s with timer := none, pending := true }
  | some (n + 2) => some { s with timer := some (n + 1) }

/-- A pending signal that is not blocked starts the handler, and is blocked from
then on. -/
def deliver (s : State) : Option State :=
  if s.pending ∧ s.blocked = false ∧ s.installed then
    some { s with pending := false, blocked := true, pc := Pc.handler }
  else
    none

def step (s : State) : Label -> Option State
  | Label.proc ok => proc s ok
  | Label.tick => tick s
  | Label.deliver => deliver s

def machine (secs : List Nat) : Machine State Label where
  init s := s.todo = secs ∧ s.pc = Pc.idle ∧ s.timer = none ∧
    s.blocked = false ∧ s.pending = false ∧ s.returned = []
  step := step

/-- The process waits in `pause`, the timer has run out, and the signal either
is gone or will not be delivered. -/
def Stuck (s : State) : Prop :=
  s.pc = Pc.paused ∧ s.timer = none ∧ ¬ (s.pending = true ∧ s.blocked = false)

def Finished (s : State) : Prop :=
  s.pc = Pc.idle ∧ s.todo = []

/-!
# One call
-/

structure Still (s : State) : Prop where
  timer : s.timer = none
  pending : s.pending = false
  todo : s.todo = []

structure Waiting (s : State) : Prop where
  todo : s.todo = []
  blocked : s.blocked = false
  installed : s.installed = true
  alarm : (s.pending = false ∧ exists n, s.timer = some (n + 1)) ∨
    (s.pending = true ∧ s.timer = none)

def Quiet (s : State) : Prop :=
  match s.pc with
  | Pc.idle =>
      s.timer = none ∧ s.pending = false ∧
        (s.todo = [] ∨ exists n, s.todo = [n] ∧ 1 ≤ n ∧ s.blocked = false)
  | Pc.called n => Still s ∧ s.blocked = false ∧ 1 ≤ n
  | Pc.installed n => Still s ∧ s.blocked = false ∧ 1 ≤ n ∧ s.installed = true
  | Pc.jmpSet n => Still s ∧ s.blocked = false ∧ 1 ≤ n ∧ s.installed = true
  | Pc.armed => Waiting s
  | Pc.paused => Waiting s
  | Pc.handler => Still s
  | Pc.jumped => Still s

theorem Quiet.not_stuck {s : State} (h : Quiet s) : ¬ Stuck s := by
  intro hstuck
  rcases hstuck with ⟨hpc, htimer, hgone⟩
  unfold Quiet at h
  rw [hpc] at h
  change Waiting s at h
  rcases h.alarm with ⟨_, n, hset⟩ | ⟨hpending, _⟩
  · rw [htimer] at hset
    cases hset
  · exact hgone ⟨hpending, h.blocked⟩

theorem Quiet.proc {s t : State} {ok : Bool} (h : Quiet s)
    (ht : proc s ok = some t) : Quiet t := by
  unfold Quiet at h
  unfold Sleep2.proc at ht
  cases hpc : s.pc with
  | idle =>
      rw [hpc] at h ht
      rcases h with ⟨htimer, hpending, htodo | ⟨n, htodo, hn, hblocked⟩⟩
      · simp only [htodo] at ht
        cases ht
      · simp only [htodo] at ht
        cases ht
        exact ⟨⟨htimer, hpending, rfl⟩, hblocked, hn⟩
  | called n =>
      rw [hpc] at h ht
      rcases h with ⟨hstill, hblocked, hn⟩
      cases ok with
      | true =>
          cases ht
          exact ⟨⟨hstill.timer, hstill.pending, hstill.todo⟩, hblocked, hn,
            rfl⟩
      | false =>
          cases ht
          exact ⟨hstill.timer, hstill.pending, Or.inl hstill.todo⟩
  | installed n =>
      rw [hpc] at h ht
      rcases h with ⟨hstill, hblocked, hn, hinstalled⟩
      cases ht
      exact ⟨⟨hstill.timer, hstill.pending, hstill.todo⟩, hblocked, hn,
        hinstalled⟩
  | jmpSet n =>
      rw [hpc] at h ht
      rcases h with ⟨hstill, hblocked, hn, hinstalled⟩
      cases ht
      refine ⟨hstill.todo, hblocked, hinstalled, ?_⟩
      left
      refine ⟨hstill.pending, n - 1, ?_⟩
      change (if n = 0 then none else some n) = some (n - 1 + 1)
      rw [if_neg (by lia), Nat.sub_add_cancel hn]
  | armed =>
      rw [hpc] at h ht
      cases ht
      exact ⟨h.todo, h.blocked, h.installed, h.alarm⟩
  | paused =>
      rw [hpc] at ht
      cases ht
  | handler =>
      rw [hpc] at h ht
      cases ht
      exact ⟨h.timer, h.pending, h.todo⟩
  | jumped =>
      rw [hpc] at h ht
      cases ht
      exact ⟨rfl, h.pending, Or.inl h.todo⟩

theorem Still.not_busy {s : State} (h : Still s)
    (hbusy : s.timer ≠ none ∨ s.pending = true) : False := by
  rcases hbusy with htimer | hpending
  · exact htimer h.timer
  · rw [h.pending] at hpending
    cases hpending

/-- Only a call that waits for the alarm has the timer or the signal under
way. -/
theorem Quiet.waiting {s : State} (h : Quiet s)
    (hbusy : s.timer ≠ none ∨ s.pending = true) :
    Waiting s ∧ (s.pc = Pc.armed ∨ s.pc = Pc.paused) := by
  unfold Quiet at h
  cases hpc : s.pc with
  | idle =>
      rw [hpc] at h
      rcases hbusy with htimer | hpending
      · exact absurd h.1 htimer
      · rw [h.2.1] at hpending
        cases hpending
  | called n =>
      rw [hpc] at h
      exact absurd hbusy h.1.not_busy
  | installed n =>
      rw [hpc] at h
      exact absurd hbusy h.1.not_busy
  | jmpSet n =>
      rw [hpc] at h
      exact absurd hbusy h.1.not_busy
  | armed =>
      rw [hpc] at h
      exact ⟨h, Or.inl rfl⟩
  | paused =>
      rw [hpc] at h
      exact ⟨h, Or.inr rfl⟩
  | handler =>
      rw [hpc] at h
      exact absurd hbusy h.not_busy
  | jumped =>
      rw [hpc] at h
      exact absurd hbusy h.not_busy

theorem quiet_of_waiting {s : State} (h : Waiting s)
    (hpc : s.pc = Pc.armed ∨ s.pc = Pc.paused) : Quiet s := by
  unfold Quiet
  rcases hpc with heq | heq
  · rw [heq]
    exact h
  · rw [heq]
    exact h

theorem Quiet.tick {s t : State} (h : Quiet s) (ht : tick s = some t) :
    Quiet t := by
  unfold Sleep2.tick at ht
  split at ht
  · cases ht
  · cases ht
  · next htimer =>
      rcases h.waiting (Or.inl (by rw [htimer]; exact Option.some_ne_none 1))
        with ⟨hwaiting, hpc⟩
      cases ht
      exact quiet_of_waiting ⟨hwaiting.todo, hwaiting.blocked,
        hwaiting.installed, Or.inr ⟨rfl, rfl⟩⟩ hpc
  · next n htimer =>
      rcases h.waiting
          (Or.inl (by rw [htimer]; exact Option.some_ne_none (n + 2)))
        with ⟨hwaiting, hpc⟩
      cases ht
      rcases hwaiting.alarm with ⟨hpending, _⟩ | ⟨_, hnone⟩
      · exact quiet_of_waiting ⟨hwaiting.todo, hwaiting.blocked,
          hwaiting.installed, Or.inl ⟨hpending, n, rfl⟩⟩ hpc
      · rw [htimer] at hnone
        cases hnone

theorem Quiet.deliver {s t : State} (h : Quiet s) (ht : deliver s = some t) :
    Quiet t := by
  unfold Sleep2.deliver at ht
  split at ht
  · next hready =>
      rcases h.waiting (Or.inr hready.1) with ⟨hwaiting, _⟩
      cases ht
      rcases hwaiting.alarm with ⟨hno, _⟩ | ⟨_, htimer⟩
      · rw [hready.1] at hno
        cases hno
      · exact ⟨htimer, rfl, hwaiting.todo⟩
  · cases ht

theorem quiet_of_reachable {secs : List Nat} {s : State}
    (hpos : forall n, n ∈ secs -> 1 ≤ n) (hlen : secs.length ≤ 1)
    (hs : (machine secs).Reachable s) : Quiet s := by
  apply Machine.invariant _ _ hs
  · intro s hinit
    rcases hinit with ⟨htodo, hpc, htimer, hblocked, hpending, _⟩
    unfold Quiet
    rw [hpc]
    refine ⟨htimer, hpending, ?_⟩
    cases secs with
    | nil =>
        left
        exact htodo
    | cons n rest =>
        right
        rw [List.length_cons] at hlen
        have hrest : rest = [] := List.length_eq_zero_iff.mp (by lia)
        rw [hrest] at htodo
        exact ⟨n, htodo, hpos n List.mem_cons_self, hblocked⟩
  · intro s l t hI ht
    cases l with
    | proc ok => exact hI.proc ht
    | tick => exact hI.tick ht
    | deliver => exact hI.deliver ht

/-!
# Every call can return
-/

section

variable {secs : List Nat}

theorem finish_jumped {s : State} (hpc : s.pc = Pc.jumped)
    (htodo : s.todo = []) : (machine secs).CanReach Finished s := by
  apply Machine.CanReach.of_step (Label.proc true)
    (t := ret (alarm s 0) (s.timer.getD 0))
  · change proc s true = _
    unfold proc
    rw [hpc]
  · exact Machine.CanReach.here ⟨rfl, htodo⟩

theorem finish_handler {s : State} (hpc : s.pc = Pc.handler)
    (htodo : s.todo = []) : (machine secs).CanReach Finished s := by
  apply Machine.CanReach.of_step (Label.proc true)
    (t := { s with pc := Pc.jumped })
  · change proc s true = _
    unfold proc
    rw [hpc]
  · exact finish_jumped rfl htodo

theorem finish_delivery {s : State} (h : Waiting s)
    (hpending : s.pending = true) : (machine secs).CanReach Finished s := by
  apply Machine.CanReach.of_step Label.deliver
    (t := { s with pending := false, blocked := true, pc := Pc.handler })
  · exact if_pos ⟨hpending, h.blocked, h.installed⟩
  · exact finish_handler rfl h.todo

theorem finish_timer {n : Nat} {s : State} (htodo : s.todo = [])
    (hblocked : s.blocked = false) (hinstalled : s.installed = true)
    (htimer : s.timer = some (n + 1)) :
    (machine secs).CanReach Finished s := by
  induction n generalizing s with
  | zero =>
      apply Machine.CanReach.of_step Label.tick
        (t := { s with timer := none, pending := true })
      · change tick s = _
        unfold tick
        rw [htimer]
      · exact finish_delivery
          ⟨htodo, hblocked, hinstalled, Or.inr ⟨rfl, rfl⟩⟩ rfl
  | succ n ih =>
      apply Machine.CanReach.of_step Label.tick
        (t := { s with timer := some (n + 1) })
      · change tick s = _
        unfold tick
        rw [htimer]
      · exact ih htodo hblocked hinstalled rfl

theorem finish_waiting {s : State} (h : Waiting s) :
    (machine secs).CanReach Finished s := by
  rcases h.alarm with ⟨_, n, htimer⟩ | ⟨hpending, _⟩
  · exact finish_timer h.todo h.blocked h.installed htimer
  · exact finish_delivery h hpending

theorem finish_jmpSet {s : State} {n : Nat} (h : Quiet s)
    (hpc : s.pc = Pc.jmpSet n) : (machine secs).CanReach Finished s := by
  have hstep : proc s true = some { alarm s n with pc := Pc.armed } := by
    unfold proc
    rw [hpc]
  have hwaiting : Waiting { alarm s n with pc := Pc.armed } := h.proc hstep
  exact Machine.CanReach.of_step (Label.proc true) hstep
    (finish_waiting hwaiting)

theorem finish_installed {s : State} {n : Nat} (h : Quiet s)
    (hpc : s.pc = Pc.installed n) : (machine secs).CanReach Finished s := by
  have hstep : proc s true = some { s with pc := Pc.jmpSet n } := by
    unfold proc
    rw [hpc]
  exact Machine.CanReach.of_step (Label.proc true) hstep
    (finish_jmpSet (h.proc hstep) rfl)

theorem finish_called {s : State} {n : Nat} (h : Quiet s)
    (hpc : s.pc = Pc.called n) : (machine secs).CanReach Finished s := by
  have hstep : proc s true =
      some { s with installed := true, pc := Pc.installed n } := by
    unfold proc
    rw [hpc]
    rfl
  exact Machine.CanReach.of_step (Label.proc true) hstep
    (finish_installed (h.proc hstep) rfl)

theorem finish_idle {s : State} (h : Quiet s) (hpc : s.pc = Pc.idle) :
    (machine secs).CanReach Finished s := by
  have hquiet := h
  unfold Quiet at hquiet
  rw [hpc] at hquiet
  rcases hquiet with ⟨_, _, htodo | ⟨n, htodo, _, _⟩⟩
  · exact Machine.CanReach.here ⟨hpc, htodo⟩
  · have hstep : proc s true =
        some { s with todo := [], pc := Pc.called n } := by
      unfold proc
      rw [hpc]
      simp only [htodo]
    exact Machine.CanReach.of_step (Label.proc true) hstep
      (finish_called (h.proc hstep) rfl)

theorem Quiet.finish {s : State} (h : Quiet s) :
    (machine secs).CanReach Finished s := by
  have hquiet := h
  unfold Quiet at hquiet
  cases hpc : s.pc with
  | idle => exact finish_idle h hpc
  | called n => exact finish_called h hpc
  | installed n => exact finish_installed h hpc
  | jmpSet n => exact finish_jmpSet h hpc
  | armed =>
      rw [hpc] at hquiet
      exact finish_waiting hquiet
  | paused =>
      rw [hpc] at hquiet
      exact finish_waiting hquiet
  | handler =>
      rw [hpc] at hquiet
      exact finish_handler hpc hquiet.todo
  | jumped =>
      rw [hpc] at hquiet
      exact finish_jumped hpc hquiet.todo

end

/-!
# The second call
-/

theorem reachable_step {secs : List Nat} {s t : State} (l : Label)
    (hs : (machine secs).Reachable s) (ht : step s l = some t) :
    (machine secs).Reachable t :=
  Machine.ReachableUnder.step hs trivial ht

theorem reachable_expiry {secs : List Nat} {n : Nat} {s : State}
    (hs : (machine secs).Reachable s) (htimer : s.timer = some (n + 1)) :
    (machine secs).Reachable { s with timer := none, pending := true } := by
  induction n generalizing s with
  | zero =>
      apply reachable_step Label.tick hs
      change tick s = _
      unfold tick
      rw [htimer]
  | succ n ih =>
      have hnext : (machine secs).Reachable { s with timer := some (n + 1) } := by
        apply reachable_step Label.tick hs
        change tick s = _
        unfold tick
        rw [htimer]
      exact ih (s := { s with timer := some (n + 1) }) hnext rfl

theorem reachable_pause {secs rest : List Nat} {n : Nat} {s : State}
    (hn : 1 ≤ n) (hs : (machine secs).Reachable s) (hpc : s.pc = Pc.idle)
    (htodo : s.todo = n :: rest) :
    (machine secs).Reachable
      { todo := rest, pc := Pc.paused, timer := none, blocked := s.blocked,
        pending := true, installed := true, returned := s.returned } := by
  have h₁ : (machine secs).Reachable
      { s with todo := rest, pc := Pc.called n } := by
    apply reachable_step (Label.proc true) hs
    change proc s true = _
    unfold proc
    rw [hpc]
    simp only [htodo]
  have h₂ := reachable_step (Label.proc true)
    (t := { s with todo := rest, pc := Pc.installed n, installed := true })
    h₁ rfl
  have h₃ := reachable_step (Label.proc true)
    (t := { s with todo := rest, pc := Pc.jmpSet n, installed := true }) h₂ rfl
  have htimer : (if n = 0 then none else some n) = some (n - 1 + 1) := by
    rw [if_neg (by lia), Nat.sub_add_cancel hn]
  have h₄ := reachable_step (Label.proc true)
    (t := { s with
      todo := rest, pc := Pc.armed, installed := true,
      timer := if n = 0 then none else some n }) h₃ rfl
  have h₅ := reachable_step (Label.proc true)
    (t := { s with
      todo := rest, pc := Pc.paused, installed := true,
      timer := if n = 0 then none else some n }) h₄ rfl
  exact reachable_expiry h₅ htimer

theorem reachable_stuck {a b : Nat} {rest : List Nat} (ha : 1 ≤ a)
    (hb : 1 ≤ b) :
    exists s, (machine (a :: b :: rest)).Reachable s ∧ Stuck s := by
  let first : State :=
    { todo := a :: b :: rest, pc := Pc.idle, timer := none, blocked := false,
      pending := false, installed := false, returned := [] }
  have hinit : (machine (a :: b :: rest)).init first :=
    ⟨rfl, rfl, rfl, rfl, rfl, rfl⟩
  have h₁ := reachable_pause ha (Machine.ReachableUnder.init hinit) rfl rfl
  have h₂ := reachable_step Label.deliver
    (t := { first with
      todo := b :: rest, pc := Pc.handler, blocked := true, installed := true })
    h₁ rfl
  have h₃ := reachable_step (Label.proc true)
    (t := { first with
      todo := b :: rest, pc := Pc.jumped, blocked := true, installed := true })
    h₂ rfl
  have h₄ := reachable_step (Label.proc true)
    (t := { first with
      todo := b :: rest, blocked := true, installed := true,
      returned := [0] }) h₃ rfl
  have h₅ := reachable_pause hb h₄ rfl rfl
  refine ⟨_, h₅, rfl, rfl, ?_⟩
  intro hready
  cases hready.2

/--
In every run of a sequence of calls no call waits for an alarm that cannot wake
it any more, and from every state all calls can still return, exactly when the
sequence has at most one call.
-/
theorem sleep2_wakes_iff (secs : List Nat)
    (hpos : forall n, n ∈ secs -> 1 ≤ n) :
    ((forall s, (machine secs).Reachable s -> ¬ Stuck s) ∧
        forall s, (machine secs).Reachable s ->
          (machine secs).CanReach Finished s) ↔
      secs.length ≤ 1 := by
  constructor
  · intro h
    cases secs with
    | nil => exact Nat.zero_le 1
    | cons a rest =>
        cases rest with
        | nil => exact Nat.le_refl 1
        | cons b rest =>
            have ha := hpos a List.mem_cons_self
            have hb := hpos b (List.mem_cons_of_mem a List.mem_cons_self)
            rcases @reachable_stuck a b rest ha hb with ⟨s, hs, hstuck⟩
            exact absurd hstuck (h.1 s hs)
  · intro hlen
    constructor
    · intro s hs
      exact (quiet_of_reachable hpos hlen hs).not_stuck
    · intro s hs
      exact (quiet_of_reachable hpos hlen hs).finish

theorem sleep2_wakes_iff_one :
    ((forall s, (machine [5]).Reachable s -> ¬ Stuck s) ∧
        forall s, (machine [5]).Reachable s ->
          (machine [5]).CanReach Finished s) ↔
      [5].length ≤ 1 :=
  sleep2_wakes_iff [5] (by decide)

/-- The second of two calls `sleep2(1)` waits for ever. -/
theorem second_sleep2_stuck :
    exists s, (machine [1, 1]).Reachable s ∧ Stuck s :=
  reachable_stuck (by decide) (by decide)

end Sleep2
end Apue
