import Apue.Foundation.Block
import Apue.Termios.Canon

/-!
# MIN and TIME

`main` sets the terminal five times, reads and writes after each of them, and puts
back what it found.  The two helpers end the process when one of their calls
fails.  How the calls end is given for each call of `set_min_time`; `tcsetattr`
sets all attributes or none.
-/

namespace Apue
namespace Mintime

open Foundation

def NCCS : Nat := 32
def VTIME : Nat := 5
def VMIN : Nat := 6

def ICANON : Canon.Flags := 2

/-- `struct termios` with its array of `NCCS` control characters -/
structure Termios extends Canon.Termios where
  cc_length : c_cc.length = NCCS

/-- `c_cc[i] = value` -/
def Termios.setCc (term : Termios) (i value : Nat) : Termios :=
  { term with
    c_cc := term.c_cc.set i (UInt8.ofNat value)
    cc_length := List.length_set.trans term.cc_length }

/-- `c_lflag &= ~ICANON` -/
def Termios.noncanonical (term : Termios) : Termios :=
  { term with c_lflag := term.c_lflag &&& ~~~ICANON }

/-- The size of the buffer in `readwrite`. -/
def SIZE : Nat := 8

/-- What `read` returns: -1, or how many bytes it has read. -/
inductive ReadAnswer where
  | failed
  | got (n : Fin (SIZE + 1))

def ReadAnswer.value : ReadAnswer -> Int
  | ReadAnswer.failed => -1
  | ReadAnswer.got n => n.val

/-- How the calls in one `set_min_time` end: whether `tcsetattr` succeeds, and what
`read` and `write` return. -/
structure Answer where
  set : Bool
  read : ReadAnswer
  write : WriteAnswer

/-- What `perror` prints: of `tcgetattr`, of `tcsetattr` in `set_min_time` and at
the end of `main`, of `write`, and of `read`. -/
inductive Message where
  | tcgetattrError
  | tcsetattrError
  | restoreError
  | writeError
  | readError
  deriving Repr, DecidableEq

/-- The attributes of the terminal, and the structure `term`. -/
structure State where
  tty : Termios
  term : Termios

structure Exit where
  status : Nat
  message : Option Message
  tty : Termios

def readwrite (s : State) (answer : Answer) : Except Exit State :=
  let n := answer.read.value
  if 0 < n then
    if answer.write.value ≠ n then
      Except.error { status := 1, message := some Message.writeError, tty := s.tty }
    else
      Except.ok s
  else if n = 0 then
    Except.ok s
  else
    Except.error { status := 1, message := some Message.readError, tty := s.tty }

def set_min_time (min time : Nat) (s : State) (answer : Answer) :
    Except Exit State :=
  let term := (s.term.setCc VMIN min).setCc VTIME time
  if answer.set then
    readwrite { tty := term, term } answer
  else
    Except.error { status := 1, message := some Message.tcsetattrError, tty := s.tty }

/-- The five calls of `set_min_time`. -/
def setAll (answers : Nat -> Answer) (s : State) : Except Exit State := do
  let s <- set_min_time 0 0 s (answers 0)
  let s <- set_min_time 3 0 s (answers 1)
  let s <- set_min_time 0 20 s (answers 2)
  let s <- set_min_time 3 20 s (answers 3)
  set_min_time 0 0 s (answers 4)

/-- `main` with a terminal whose attributes are `tty`; `found` and `restored` are
the outcomes of `tcgetattr` and of the last `tcsetattr`. -/
def main (found : Bool) (answers : Nat -> Answer) (restored : Bool)
    (tty : Termios) : Exit :=
  if found then
    let oldterm := tty
    match setAll answers { tty, term := oldterm.noncanonical } with
    | Except.error e => e
    | Except.ok s =>
        if restored then
          { status := 0, message := none, tty := oldterm }
        else
          { status := 1, message := some Message.restoreError, tty := s.tty }
  else
    { status := 1, message := some Message.tcgetattrError, tty }

/-!
# Where the program fails
-/

/-- A call of `set_min_time`. -/
structure Call where
  min : Nat
  time : Nat
  answer : Answer

def calls (answers : Nat -> Answer) : List Call :=
  [{ min := 0, time := 0, answer := answers 0 },
    { min := 3, time := 0, answer := answers 1 },
    { min := 0, time := 20, answer := answers 2 },
    { min := 3, time := 20, answer := answers 3 },
    { min := 0, time := 0, answer := answers 4 }]

/-- The `read` succeeds, and what it has read is written. -/
def Answer.Copies (answer : Answer) : Prop :=
  0 ≤ answer.read.value ∧
    (0 < answer.read.value -> answer.write.value = answer.read.value)

/-- The first call that fails comes when the calls of `set_min_time` in the last
list have set the terminal. -/
inductive Fails (restored : Bool) : List Call -> List Call -> Prop where
  | set {c : Call} {rest : List Call} (hset : c.answer.set = false) :
      Fails restored (c :: rest) []
  | readwrite {c : Call} {rest : List Call} (hset : c.answer.set = true)
      (hcopies : ¬ c.answer.Copies) : Fails restored (c :: rest) [c]
  | later {c : Call} {rest made : List Call} (hset : c.answer.set = true)
      (hcopies : c.answer.Copies) (h : Fails restored rest made) :
      Fails restored (c :: rest) (c :: made)
  | restore (hrestored : restored = false) : Fails restored [] []

/-- The attributes are those that the call sets: noncanonical mode with its values
of MIN and TIME. -/
structure Termios.Has (term : Termios) (c : Call) : Prop where
  mode : term.c_lflag &&& ICANON = 0
  min : term.c_cc[VMIN]? = some (UInt8.ofNat c.min)
  time : term.c_cc[VTIME]? = some (UInt8.ofNat c.time)

/-!
# What is set
-/

/-- The attributes that a call sets when those at the start were `term`. -/
def Termios.setting (term : Termios) (c : Call) : Termios :=
  (term.noncanonical.setCc VMIN c.min).setCc VTIME c.time

theorem Termios.setting_again (term : Termios) (c d : Call) :
    ((term.setting c).setCc VMIN d.min).setCc VTIME d.time = term.setting d := by
  have hcc : (((((term.c_cc.set VMIN (UInt8.ofNat c.min)).set VTIME
      (UInt8.ofNat c.time)).set VMIN (UInt8.ofNat d.min)).set VTIME
        (UInt8.ofNat d.time))) =
      (term.c_cc.set VMIN (UInt8.ofNat d.min)).set VTIME (UInt8.ofNat d.time) := by
    rw [List.set_comm (UInt8.ofNat c.time) (UInt8.ofNat d.min) (by decide),
      List.set_set, List.set_set]
  unfold setting setCc noncanonical
  simp only [hcc]

theorem and_not_eq_iff (flags mask : Canon.Flags) :
    flags &&& ~~~mask = flags ↔ flags &&& mask = 0 := by
  constructor
  · intro h
    rw [← h, BitVec.and_assoc, BitVec.and_comm (~~~mask), BitVec.and_not_self]
    exact BitVec.and_zero
  · intro h
    ext i hi
    have hbit : (flags[i] && mask[i]) = false := by
      rw [← BitVec.getElem_and, h]
      exact BitVec.getElem_zero hi
    rw [BitVec.getElem_and, BitVec.getElem_not]
    cases hf : flags[i] with
    | false => rfl
    | true =>
        rw [hf, Bool.true_and] at hbit
        rw [hbit]
        rfl

theorem set_set_eq_iff {xs : List Byte} {x y : Byte} (hlen : xs.length = NCCS) :
    (xs.set VMIN x).set VTIME y = xs ↔ xs[VMIN]? = some x ∧ xs[VTIME]? = some y := by
  have hmin : VMIN < xs.length := by
    rw [hlen]
    decide
  have htime : VTIME < xs.length := by
    rw [hlen]
    decide
  constructor
  · intro h
    constructor
    · rw [← h, List.getElem?_set_ne (by decide), List.getElem?_set_self hmin]
    · rw [← h, List.getElem?_set_self (by rw [List.length_set]; exact htime)]
  · intro h
    rcases List.getElem?_eq_some_iff.mp h.1 with ⟨_, hx⟩
    rcases List.getElem?_eq_some_iff.mp h.2 with ⟨_, hy⟩
    rw [← hx, List.set_getElem_self, ← hy, List.set_getElem_self]

theorem Termios.setting_eq_iff (term : Termios) (c : Call) :
    term.setting c = term ↔ term.Has c := by
  have hcc := @set_set_eq_iff term.c_cc (UInt8.ofNat c.min) (UInt8.ofNat c.time)
    term.cc_length
  constructor
  · intro h
    have hmode : (term.setting c).c_lflag = term.c_lflag := by rw [h]
    have hset : (term.setting c).c_cc = term.c_cc := by rw [h]
    rcases hcc.mp hset with ⟨hmin, htime⟩
    exact ⟨(and_not_eq_iff term.c_lflag ICANON).mp hmode, hmin, htime⟩
  · intro h
    have hmode := (and_not_eq_iff term.c_lflag ICANON).mpr h.mode
    have hset := hcc.mpr ⟨h.min, h.time⟩
    unfold setting setCc noncanonical
    simp only [hmode, hset]

/-!
# One call
-/

theorem readwrite_copies {answer : Answer} (h : answer.Copies) (s : State) :
    readwrite s answer = Except.ok s := by
  unfold readwrite
  dsimp only
  by_cases hpos : 0 < answer.read.value
  · rw [if_pos hpos, if_neg (fun hne => hne (h.2 hpos))]
  · have hzero : answer.read.value = 0 := Int.le_antisymm (Int.not_lt.mp hpos) h.1
    rw [if_neg hpos, if_pos hzero]

theorem readwrite_exits {answer : Answer} (h : ¬ answer.Copies) (s : State) :
    exists e, readwrite s answer = Except.error e ∧ e.tty = s.tty := by
  unfold readwrite
  dsimp only
  by_cases hpos : 0 < answer.read.value
  · have hne : answer.write.value ≠ answer.read.value :=
      fun heq => h ⟨Int.le_of_lt hpos, fun _ => heq⟩
    rw [if_pos hpos, if_pos hne]
    exact ⟨_, rfl, rfl⟩
  · have hne : answer.read.value ≠ 0 :=
      fun heq => h ⟨Int.le_of_eq heq.symm, fun hlt => absurd hlt hpos⟩
    rw [if_neg hpos, if_neg hne]
    exact ⟨_, rfl, rfl⟩

/-- `term` is ready for a call when the one before has left its attributes there,
or none has been made. -/
def Ready (old : Termios) (s : State) : Prop :=
  forall c : Call, (s.term.setCc VMIN c.min).setCc VTIME c.time = old.setting c

theorem ready_setting (old : Termios) (c : Call) (tty : Termios) :
    Ready old { tty, term := old.setting c } :=
  fun d => old.setting_again c d

def Call.run (s : State) (c : Call) : Except Exit State :=
  set_min_time c.min c.time s c.answer

theorem Call.run_set {old : Termios} {s : State} {c : Call} (hs : Ready old s)
    (hset : c.answer.set = true) :
    c.run s = readwrite { tty := old.setting c, term := old.setting c } c.answer := by
  unfold Call.run set_min_time
  dsimp only
  rw [if_pos hset, hs c]

theorem Call.run_not_set {s : State} {c : Call} (hset : c.answer.set = false) :
    exists e, c.run s = Except.error e ∧ e.tty = s.tty := by
  unfold Call.run set_min_time
  dsimp only
  rw [hset, if_neg Bool.false_ne_true]
  exact ⟨_, rfl, rfl⟩

/-!
# All calls
-/

theorem setAll_eq (answers : Nat -> Answer) (s : State) :
    setAll answers s = (calls answers).foldlM Call.run s := by
  simp [setAll, calls, Call.run]

def leaves (old tty : Termios) (made : List Call) : Termios :=
  match made.getLast? with
  | none => tty
  | some c => old.setting c

theorem leaves_cons (old tty : Termios) (c : Call) (made : List Call) :
    leaves old tty (c :: made) = leaves old (old.setting c) made := by
  unfold leaves
  rw [List.getLast?_cons]
  cases made.getLast? with
  | none => rfl
  | some d => rfl

theorem run_of_fails {restored : Bool} {cs made : List Call}
    (h : Fails restored cs made) {old : Termios} {s : State} (hs : Ready old s) :
    (exists e, cs.foldlM Call.run s = Except.error e ∧
        e.tty = leaves old s.tty made) ∨
      restored = false ∧ exists t, cs.foldlM Call.run s = Except.ok t ∧
        t.tty = leaves old s.tty made := by
  induction h generalizing s with
  | @set c rest hset =>
      left
      rcases @Call.run_not_set s c hset with ⟨e, hrun, htty⟩
      rw [List.foldlM_cons, hrun]
      exact ⟨e, rfl, htty⟩
  | @readwrite c rest hset hcopies =>
      left
      rcases readwrite_exits hcopies { tty := old.setting c, term := old.setting c } with
        ⟨e, hrun, htty⟩
      rw [List.foldlM_cons, Call.run_set hs hset, hrun]
      exact ⟨e, rfl, htty⟩
  | @later c rest made hset hcopies h ih =>
      rw [List.foldlM_cons, Call.run_set hs hset, readwrite_copies hcopies, leaves_cons]
      exact ih (ready_setting old c (old.setting c))
  | restore hrestored =>
      right
      exact ⟨hrestored, s, rfl, rfl⟩

theorem run_of_not_fails {restored : Bool} {cs : List Call}
    (h : forall made, ¬ Fails restored cs made) {old : Termios} {s : State}
    (hs : Ready old s) :
    restored = true ∧ exists t, cs.foldlM Call.run s = Except.ok t := by
  induction cs generalizing s with
  | nil =>
      cases hrestored : restored with
      | false => exact absurd (Fails.restore hrestored) (h [])
      | true => exact ⟨rfl, s, rfl⟩
  | cons c rest ih =>
      cases hset : c.answer.set with
      | false => exact absurd (Fails.set hset) (h [])
      | true =>
          by_cases hcopies : c.answer.Copies
          · rw [List.foldlM_cons, Call.run_set hs hset, readwrite_copies hcopies]
            apply ih _ (ready_setting old c (old.setting c))
            intro made hfails
            exact h (c :: made) (Fails.later hset hcopies hfails)
          · exact absurd (Fails.readwrite hset hcopies) (h [c])

theorem leaves_eq_iff (old : Termios) (made : List Call) :
    leaves old old made = old ↔ forall c, made.getLast? = some c -> old.Has c := by
  unfold leaves
  cases hlast : made.getLast? with
  | none =>
      apply iff_of_true rfl
      intro c hc
      cases hc
  | some c =>
      dsimp only
      rw [old.setting_eq_iff c]
      constructor
      · intro h d hd
        cases hd
        exact h
      · intro h
        exact h c rfl

/-!
# The program
-/

theorem ready_start (tty : Termios) : Ready tty { tty, term := tty.noncanonical } :=
  fun _ => rfl

theorem main_of_fails {answers : Nat -> Answer} {restored : Bool} {made : List Call}
    (h : Fails restored (calls answers) made) (tty : Termios) :
    (main true answers restored tty).tty = leaves tty tty made := by
  unfold main
  rw [if_pos rfl]
  dsimp only
  rw [setAll_eq]
  rcases run_of_fails h (ready_start tty) with ⟨e, hrun, htty⟩ |
    ⟨hrestored, t, hrun, htty⟩
  · rw [hrun]
    exact htty
  · rw [hrun, hrestored]
    exact htty

theorem main_of_not_fails {answers : Nat -> Answer} {restored : Bool}
    (h : forall made, ¬ Fails restored (calls answers) made) (tty : Termios) :
    (main true answers restored tty).tty = tty := by
  rcases run_of_not_fails h (ready_start tty) with ⟨hrestored, t, hrun⟩
  unfold main
  rw [if_pos rfl]
  dsimp only
  rw [setAll_eq, hrun, hrestored]
  rfl

/-- The program leaves the terminal as it was when `tcgetattr` fails, when no call
fails, and when the last call that has set the terminal before one fails has set
what was there, and only then. -/
theorem main_restores_iff (found : Bool) (answers : Nat -> Answer) (restored : Bool)
    (tty : Termios) :
    (main found answers restored tty).tty = tty ↔
      (found = true -> forall made, Fails restored (calls answers) made ->
        forall c, made.getLast? = some c -> tty.Has c) := by
  cases found with
  | false =>
      apply iff_of_true rfl
      intro h
      cases h
  | true =>
      constructor
      · intro h _ made hfails
        rw [main_of_fails hfails] at h
        exact (leaves_eq_iff tty made).mp h
      · intro h
        by_cases hfails : exists made, Fails restored (calls answers) made
        · rcases hfails with ⟨made, hfails⟩
          rw [main_of_fails hfails]
          exact (leaves_eq_iff tty made).mpr (h rfl made hfails)
        · exact main_of_not_fails (fun made hmade => hfails ⟨made, hmade⟩) tty

def canonical : Termios where
  c_iflag := 0
  c_oflag := 0
  c_cflag := 0
  c_lflag := ICANON
  c_line := 0
  c_cc := List.replicate NCCS 0
  cc_length := List.length_replicate

def cannotRead : Answer where
  set := true
  read := ReadAnswer.failed
  write := WriteAnswer.failed 5

/-- The first `read` fails, and the terminal stays in noncanonical mode. -/
theorem noncanonical_left :
    (main true (fun _ => cannotRead) true canonical).tty ≠ canonical := by
  intro h
  have hmode := congrArg (fun term => term.c_lflag) h
  revert hmode
  decide

end Mintime
end Apue
