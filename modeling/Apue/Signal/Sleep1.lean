import Apue.Foundation.Transition

/-!
# sleep1

The one timer of the process is set, replaced or turned off by `alarm`, and
`pause` waits for a signal to be caught.  The caller may have left an alarm, a
disposition of `SIGALRM`, and `SIGALRM` blocked and pending; handlers return.
Timers count microseconds.
-/

namespace Apue
namespace Sleep1

open Foundation

inductive Disposition where
  | default
  | ignored
  | caught
  | sig_alarm
  deriving Repr, DecidableEq

/-- The next thing that the process does; `pause` has been entered in `paused`
and has returned in `woken`. -/
inductive Pc where
  | called
  | installed
  | armed
  | paused
  | woken
  | returned (unslept : Nat)
  | terminated
  deriving Repr, DecidableEq

/-- Where the process is, the timer, the disposition of `SIGALRM`, whether the mask
has it, and whether it and some other signal that is caught are pending. -/
structure State where
  pc : Pc
  timer : Option Nat
  handler : Disposition
  blocked : Bool
  alarmPending : Bool
  otherPending : Bool
  deriving Repr, DecidableEq

/-- A step of the process (`ok` is the outcome of `signal`), a microsecond of the
timer, the arrival of another signal, and the delivery of signals. -/
inductive Label where
  | proc (ok : Bool)
  | tick
  | arrive
  | deliverAlarm
  | deliverOther
  deriving Repr, DecidableEq

def SECOND : Nat := 1000000

/-- The seconds that `alarm` reports of a timer, to the nearest second but not 0
for one that is set. -/
def unslept : Option Nat -> Nat
  | none => 0
  | some usecs => if usecs < SECOND then 1 else (usecs + SECOND / 2) / SECOND

/-- The timer after `alarm(seconds)`; with 0 there is none. -/
def alarm (seconds : Nat) : Option Nat :=
  if seconds = 0 then none else some (seconds * SECOND)

def proc (seconds : Nat) (s : State) (ok : Bool) : Option State :=
  match s.pc with
  | Pc.called =>
      if ok then
        some { s with handler := Disposition.sig_alarm, pc := Pc.installed }
      else
        some { s with pc := Pc.returned seconds }
  | Pc.installed => some { s with timer := alarm seconds, pc := Pc.armed }
  | Pc.armed => some { s with pc := Pc.paused }
  | Pc.paused => none
  | Pc.woken =>
      some { s with timer := alarm 0, pc := Pc.returned (unslept s.timer) }
  | Pc.returned _ => none
  | Pc.terminated => none

/-- `SIGALRM` is sent to the process; a signal that is ignored is kept only while it
is blocked. -/
def raise (s : State) : State :=
  { s with
    alarmPending := s.alarmPending || s.blocked || s.handler ≠ Disposition.ignored }

def tick (s : State) : Option State :=
  match s.timer with
  | none => none
  | some usecs =>
      if usecs ≤ 1 then
        some (raise { s with timer := none })
      else
        some { s with timer := some (usecs - 1) }

/-- A handler has run, which ends a `pause`. -/
def handled (s : State) : State :=
  { s with pc := if s.pc = Pc.paused then Pc.woken else s.pc }

def deliverAlarm (s : State) : Option State :=
  if s.alarmPending ∧ s.blocked = false then
    match s.handler with
    | Disposition.default =>
        some { s with alarmPending := false, pc := Pc.terminated }
    | Disposition.ignored => some { s with alarmPending := false }
    | Disposition.caught => some (handled { s with alarmPending := false })
    | Disposition.sig_alarm => some (handled { s with alarmPending := false })
  else
    none

def deliverOther (s : State) : Option State :=
  if s.otherPending then
    some (handled { s with otherPending := false })
  else
    none

def step (seconds : Nat) (s : State) : Label -> Option State
  | Label.proc ok => proc seconds s ok
  | Label.tick => tick s
  | Label.arrive => some { s with otherPending := true }
  | Label.deliverAlarm => deliverAlarm s
  | Label.deliverOther => deliverOther s

/-- What the caller has left: the timer, and for `SIGALRM` the disposition, whether
it is blocked and, if it is, whether it is pending. -/
structure Before where
  timer : Option Nat
  handler : Disposition
  blocked : Bool
  pending : Bool
  deriving Repr, DecidableEq

def start (b : Before) : State where
  pc := Pc.called
  timer := b.timer
  handler := b.handler
  blocked := b.blocked
  alarmPending := b.blocked && b.pending
  otherPending := false

def machine (seconds : Nat) (b : Before) : Machine State Label where
  init s := s = start b
  step := step seconds

def NoRace (s : State) (l : Label) : Prop :=
  l = Label.tick -> s.pc = Pc.armed ->
    forall usecs, s.timer = some usecs -> 1 < usecs

/-- The process waits in `pause` with no signal to wake it up and no alarm
scheduled. -/
def Blocked (s : State) : Prop :=
  s.pc = Pc.paused ∧ s.timer = none ∧
    (s.alarmPending = false ∨ s.blocked = true) ∧ s.otherPending = false

/-!
# What holds at each point of the call
-/

def Within (seconds : Nat) (timer : Option Nat) : Prop :=
  forall usecs, timer = some usecs -> usecs ≤ seconds * SECOND

structure Waiting (seconds : Nat) (timer : Option Nat) (handler : Disposition)
    (alarmPending : Bool) : Prop where
  within : Within seconds timer
  handler : handler = Disposition.sig_alarm
  alarm : timer ≠ none ∨ alarmPending = true

def Inv (seconds : Nat) (s : State) : Prop :=
  match s.pc with
  | Pc.called => True
  | Pc.installed => s.handler = Disposition.sig_alarm
  | Pc.armed =>
      Waiting seconds s.timer s.handler s.alarmPending ∧ s.timer ≠ none
  | Pc.paused => Waiting seconds s.timer s.handler s.alarmPending
  | Pc.woken => Within seconds s.timer
  | Pc.returned n => n ≤ seconds
  | Pc.terminated => True

theorem unslept_le {seconds : Nat} {timer : Option Nat} (hpos : seconds ≠ 0)
    (h : Within seconds timer) : unslept timer ≤ seconds := by
  cases timer with
  | none => exact Nat.zero_le _
  | some usecs =>
      have hle := h usecs rfl
      show (if usecs < SECOND then 1 else (usecs + SECOND / 2) / SECOND) ≤ seconds
      split
      · exact Nat.pos_of_ne_zero hpos
      · unfold SECOND at hle ⊢
        lia

theorem within_alarm (seconds : Nat) : Within seconds (alarm seconds) := by
  intro usecs h
  unfold alarm at h
  split at h
  · cases h
  · cases h
    exact Nat.le_refl _

theorem Inv.not_blocked {seconds : Nat} {s : State} (h : Inv seconds s)
    (hmask : s.blocked = false) : ¬ Blocked s := by
  intro hblocked
  rcases hblocked with ⟨hpc, htimer, hnone, _⟩
  unfold Inv at h
  rw [hpc] at h
  change Waiting seconds s.timer s.handler s.alarmPending at h
  rcases h.alarm with hset | hgone
  · exact hset htimer
  · rcases hnone with hpending | hkept
    · rw [hpending] at hgone
      cases hgone
    · rw [hmask] at hkept
      cases hkept

theorem Inv.proc {seconds : Nat} {s t : State} {ok : Bool} (hpos : seconds ≠ 0)
    (h : Inv seconds s) (ht : proc seconds s ok = some t) : Inv seconds t := by
  unfold Inv at h
  unfold Sleep1.proc at ht
  cases hpc : s.pc with
  | called =>
      rw [hpc] at ht
      cases ok with
      | true =>
          cases ht
          rfl
      | false =>
          cases ht
          exact Nat.le_refl seconds
  | installed =>
      rw [hpc] at h ht
      cases ht
      have hset : alarm seconds ≠ none := by
        unfold alarm
        rw [if_neg hpos]
        exact Option.some_ne_none _
      exact ⟨⟨within_alarm seconds, h, Or.inl hset⟩, hset⟩
  | armed =>
      rw [hpc] at h ht
      cases ht
      exact ⟨h.1.within, h.1.handler, h.1.alarm⟩
  | paused =>
      rw [hpc] at ht
      cases ht
  | woken =>
      rw [hpc] at h ht
      cases ht
      exact unslept_le hpos h
  | returned n =>
      rw [hpc] at ht
      cases ht
  | terminated =>
      rw [hpc] at ht
      cases ht

theorem Within.tick {seconds usecs : Nat} {timer : Option Nat}
    (h : Within seconds timer) (htimer : timer = some usecs) :
    Within seconds (some (usecs - 1)) := by
  intro n hn
  cases hn
  exact Nat.le_trans (Nat.sub_le usecs 1) (h usecs htimer)

theorem within_none (seconds : Nat) : Within seconds none :=
  fun _ h => nomatch h

theorem Inv.keep {seconds : Nat} {s t : State} (h : Inv seconds s)
    (hpc : t.pc = s.pc) (hhandler : t.handler = s.handler)
    (hwithin : Within seconds s.timer -> Within seconds t.timer)
    (harmed : s.pc = Pc.armed -> s.timer ≠ none -> t.timer ≠ none)
    (hpaused : s.pc = Pc.paused -> Waiting seconds s.timer s.handler s.alarmPending ->
      t.timer ≠ none ∨ t.alarmPending = true) :
    Inv seconds t := by
  unfold Inv at h ⊢
  rw [hpc, hhandler]
  cases hs : s.pc with
  | called => trivial
  | installed =>
      rw [hs] at h
      exact h
  | armed =>
      rw [hs] at h
      have hset := harmed hs h.2
      exact ⟨⟨hwithin h.1.within, h.1.handler, Or.inl hset⟩, hset⟩
  | paused =>
      rw [hs] at h
      change Waiting seconds s.timer s.handler s.alarmPending at h
      exact ⟨hwithin h.within, h.handler, hpaused hs h⟩
  | woken =>
      rw [hs] at h
      exact hwithin h
  | returned n =>
      rw [hs] at h
      exact h
  | terminated => trivial

theorem Inv.count {seconds usecs : Nat} {s : State} (h : Inv seconds s)
    (htimer : s.timer = some usecs) :
    Inv seconds { s with timer := some (usecs - 1) } := by
  apply h.keep
  · rfl
  · rfl
  · intro hwithin
    exact hwithin.tick htimer
  · intro _ _
    exact Option.some_ne_none _
  · intro _ _
    exact Or.inl (Option.some_ne_none _)

theorem Inv.expire {seconds : Nat} {s : State} (h : Inv seconds s)
    (harmed : s.pc ≠ Pc.armed) : Inv seconds (raise { s with timer := none }) := by
  apply h.keep
  · rfl
  · rfl
  · intro _
    exact within_none seconds
  · intro hpc
    exact absurd hpc harmed
  · intro _ hwaiting
    right
    show (s.alarmPending || s.blocked ||
      decide (s.handler ≠ Disposition.ignored)) = true
    rw [hwaiting.handler]
    exact Bool.or_true _

theorem Inv.tick {seconds : Nat} {s t : State} (h : Inv seconds s)
    (hrace : NoRace s Label.tick) (ht : tick s = some t) : Inv seconds t := by
  unfold Sleep1.tick at ht
  cases htimer : s.timer with
  | none =>
      rw [htimer] at ht
      cases ht
  | some usecs =>
      simp only [htimer] at ht
      split at ht
      · next hlast =>
          cases ht
          apply h.expire
          intro hpc
          exact Nat.not_lt.mpr hlast (hrace rfl hpc usecs htimer)
      · cases ht
        exact h.count htimer

theorem Inv.handled {seconds : Nat} {s : State} {pending other : Bool}
    (h : Inv seconds s) :
    Inv seconds (handled { s with alarmPending := pending, otherPending := other }) := by
  by_cases hpc : s.pc = Pc.paused
  · unfold Inv at h
    rw [hpc] at h
    change Waiting seconds s.timer s.handler s.alarmPending at h
    unfold Inv Sleep1.handled
    rw [if_pos hpc]
    exact h.within
  · have hsame : (Sleep1.handled
        { s with alarmPending := pending, otherPending := other }).pc = s.pc := by
      unfold Sleep1.handled
      exact if_neg hpc
    apply h.keep hsame rfl
    · exact id
    · intro _ hset
      exact hset
    · intro hpaused
      exact absurd hpaused hpc

theorem Inv.ignored {seconds : Nat} {s : State} (h : Inv seconds s)
    (hhandler : s.handler = Disposition.ignored) :
    Inv seconds { s with alarmPending := false } := by
  apply h.keep
  · rfl
  · rfl
  · exact id
  · intro _ hset
    exact hset
  · intro _ hwaiting
    have hsig := hwaiting.handler
    rw [hhandler] at hsig
    cases hsig

theorem Inv.deliverAlarm {seconds : Nat} {s t : State} (h : Inv seconds s)
    (ht : deliverAlarm s = some t) : Inv seconds t := by
  unfold Sleep1.deliverAlarm at ht
  split at ht
  · split at ht
    · cases ht
      trivial
    · next hhandler =>
        cases ht
        exact h.ignored hhandler
    · cases ht
      exact h.handled
    · cases ht
      exact h.handled
  · cases ht

theorem Inv.deliverOther {seconds : Nat} {s t : State} (h : Inv seconds s)
    (ht : deliverOther s = some t) : Inv seconds t := by
  unfold Sleep1.deliverOther at ht
  split at ht
  · cases ht
    exact h.handled
  · cases ht

/-!
# Whole calls
-/

section

variable {seconds : Nat} {b : Before}

theorem inv_reachable (hpos : seconds ≠ 0) {s : State}
    (hs : (machine seconds b).ReachableUnder NoRace s) :
    Inv seconds s := by
  apply Machine.invariant_under _ _ hs
  · intro s hinit
    cases hinit
    trivial
  · intro s l t hI hrace ht
    cases l with
    | proc ok => exact hI.proc hpos ht
    | tick => exact hI.tick hrace ht
    | arrive =>
        cases ht
        exact hI
    | deliverAlarm => exact hI.deliverAlarm ht
    | deliverOther => exact hI.deliverOther ht

theorem step_blocked {s t : State} {l : Label} (h : step seconds s l = some t) :
    t.blocked = s.blocked := by
  cases l with
  | proc ok =>
      change proc seconds s ok = some t at h
      unfold proc at h
      split at h
      · split at h
        · cases h
          rfl
        · cases h
          rfl
      · cases h
        rfl
      · cases h
        rfl
      · cases h
      · cases h
        rfl
      · cases h
      · cases h
  | tick =>
      change tick s = some t at h
      unfold tick at h
      split at h
      · cases h
      · split at h
        · cases h
          rfl
        · cases h
          rfl
  | arrive =>
      cases h
      rfl
  | deliverAlarm =>
      change deliverAlarm s = some t at h
      unfold deliverAlarm at h
      split at h
      · split at h
        · cases h
          rfl
        · cases h
          rfl
        · cases h
          rfl
        · cases h
          rfl
      · cases h
  | deliverOther =>
      change deliverOther s = some t at h
      unfold deliverOther at h
      split at h
      · cases h
        rfl
      · cases h

theorem blocked_reachable {s : State}
    (hs : (machine seconds b).ReachableUnder NoRace s) : s.blocked = b.blocked := by
  apply Machine.invariant_under (I := fun s => s.blocked = b.blocked) _ _ hs
  · intro s hinit
    cases hinit
    rfl
  · intro s l t hI _ ht
    exact (step_blocked ht).trans hI

/-- The process in `pause`, with a timer. -/
def waiting (b : Before) (timer : Option Nat) : State where
  pc := Pc.paused
  timer := timer
  handler := Disposition.sig_alarm
  blocked := b.blocked
  alarmPending := b.blocked && b.pending
  otherPending := false

theorem waiting_reachable :
    (machine seconds b).ReachableUnder NoRace (waiting b (alarm seconds)) := by
  have hrun : (machine seconds b).run (start b)
      [Label.proc true, Label.proc true, Label.proc true] =
        some (waiting b (alarm seconds)) := rfl
  refine Machine.reachableUnder_of_run (Machine.ReachableUnder.init rfl) ?_ hrun
  exact ⟨(fun h => nomatch h), (fun h => nomatch h), (fun h => nomatch h), trivial⟩

theorem expired_reachable {usecs : Nat}
    (hs : (machine seconds b).ReachableUnder NoRace (waiting b (some usecs))) :
    (machine seconds b).ReachableUnder NoRace (raise (waiting b none)) := by
  have hrace : forall n, NoRace (waiting b (some n)) Label.tick :=
    fun _ _ hpc => nomatch hpc
  induction usecs with
  | zero => exact hs.step (hrace 0) rfl
  | succ n ih =>
      cases n with
      | zero => exact hs.step (hrace 1) rfl
      | succ n => exact ih (hs.step (hrace (n + 2)) rfl)

theorem blocked_fails (hmask : b.blocked = true) :
    exists s, (machine seconds b).ReachableUnder NoRace s ∧ Blocked s := by
  have hs : (machine seconds b).ReachableUnder NoRace (waiting b (alarm seconds)) :=
    waiting_reachable
  cases htimer : alarm seconds with
  | none =>
      rw [htimer] at hs
      exact ⟨_, hs, rfl, rfl, Or.inr hmask, rfl⟩
  | some usecs =>
      rw [htimer] at hs
      exact ⟨_, expired_reachable hs, rfl, rfl, Or.inr hmask, rfl⟩

end

/-- `sleep1` never waits for nothing and returns at most its argument when the
argument is not 0 and `SIGALRM` is not blocked, and only then. -/
theorem sleep1_iff (seconds : Nat) (b : Before) :
    (forall s, (machine seconds b).ReachableUnder NoRace s ->
      ¬ Blocked s ∧ forall n, s.pc = Pc.returned n -> n ≤ seconds) ↔
      seconds ≠ 0 ∧ b.blocked = false := by
  constructor
  · intro h
    have hmask : b.blocked = false := by
      cases hb : b.blocked with
      | false => rfl
      | true =>
          have hfails : exists s, (machine seconds b).ReachableUnder NoRace s ∧ Blocked s :=
            blocked_fails hb
          rcases hfails with ⟨s, hs, hblocked⟩
          exact absurd hblocked (h s hs).1
    refine ⟨?_, hmask⟩
    intro hzero
    rw [hzero] at h
    refine (h _ waiting_reachable).1 ⟨rfl, rfl, Or.inl ?_, rfl⟩
    show (b.blocked && b.pending) = false
    rw [hmask]
    rfl
  · rintro ⟨hpos, hmask⟩ s hs
    have hI := inv_reachable hpos hs
    refine ⟨hI.not_blocked ((blocked_reachable hs).trans hmask), ?_⟩
    intro n hpc
    unfold Inv at hI
    rw [hpc] at hI
    exact hI

def plain : Before where
  timer := none
  handler := Disposition.default
  blocked := false
  pending := false

/-- With 0 seconds only another signal can end the call, and with `SIGALRM` blocked
neither does the alarm. -/
theorem sleep1_blocks :
    ((machine 0 plain).ReachableUnder NoRace (waiting plain none) ∧
      Blocked (waiting plain none) ∧
      forall l, l ≠ Label.arrive -> step 0 (waiting plain none) l = none) ∧
    exists s, (machine 1 { plain with blocked := true }).ReachableUnder NoRace s ∧
      Blocked s := by
  refine ⟨⟨waiting_reachable, ⟨rfl, rfl, Or.inl rfl, rfl⟩, ?_⟩, blocked_fails rfl⟩
  intro l hl
  cases l with
  | proc ok => rfl
  | tick => rfl
  | arrive => exact absurd rfl hl
  | deliverAlarm => rfl
  | deliverOther => rfl

end Sleep1
end Apue
