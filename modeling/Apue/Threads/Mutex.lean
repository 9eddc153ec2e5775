import Apue.Foundation.Interleave
import Apue.Foundation.Mutex
import Apue.Foundation.Transition

/-!
# A mutex that one thread does not always take

`thr_rtn1` stores into `number` without the mutex first, and then once more with it;
`thr_rtn2` has the mutex for all its stores.  What the threads print tells which of
their sections the mutex keeps apart.
-/

namespace Apue
namespace Mutexes

open Foundation

inductive Thread where
  | thr1
  | thr2
  deriving Repr, DecidableEq

/-- The line from before or after `usleep`: `i` and what is in `number`. -/
structure Line where
  after : Bool
  i : Nat
  number : Nat
  deriving Repr, DecidableEq

inductive Stmt where
  | store
  | before
  | after
  deriving Repr, DecidableEq

structure Loop where
  i : Nat
  stmt : Stmt
  deriving Repr, DecidableEq

inductive Thr1Pc where
  | before
  | free (l : Loop)
  | lock
  | locked (l : Loop)
  | unlock
  | exited
  deriving Repr, DecidableEq

inductive Thr2Pc where
  | before
  | lock
  | locked (l : Loop)
  | unlock
  | exited
  deriving Repr, DecidableEq

inductive MainPc where
  | malloc
  | init
  | create1
  | create2
  | join1
  | join2
  | destroy
  | returned (status : Nat)
  deriving Repr, DecidableEq

structure State where
  number : Nat
  lock : Option Thread
  thr1 : Thr1Pc
  thr2 : Thr2Pc
  main : MainPc
  lines : List (Thread × Line)
  deriving Repr, DecidableEq

/-- `ok` is the outcome of a call of `main`. -/
inductive Label where
  | thr1
  | thr2
  | main (ok : Bool)
  deriving Repr, DecidableEq

/-!
# The loops
-/

namespace Loop

/-- The loop starts with `i = first`. -/
def start (first : Nat) : Loop where
  i := first
  stmt := Stmt.store

def next (l : Loop) : Loop :=
  match l.stmt with
  | Stmt.store => { l with stmt := Stmt.before }
  | Stmt.before => { l with stmt := Stmt.after }
  | Stmt.after => { i := l.i + 1, stmt := Stmt.store }

/-- What the statement leaves in `number`. -/
def stored (l : Loop) (number : Nat) : Nat :=
  match l.stmt with
  | Stmt.store => l.i
  | _ => number

def printed (l : Loop) (number : Nat) : List Line :=
  match l.stmt with
  | Stmt.store => []
  | Stmt.before => [{ after := false, i := l.i, number }]
  | Stmt.after => [{ after := true, i := l.i, number }]

def Over (l : Loop) (bound : Nat) : Prop :=
  l.stmt = Stmt.store ∧ ¬ l.i < bound

instance (l : Loop) (bound : Nat) : Decidable (Over l bound) :=
  inferInstanceAs (Decidable (_ ∧ _))

end Loop

/-- The next statement of the loop in which the thread `u` is. -/
def turn (s : State) (u : Thread) (l : Loop) : State :=
  { s with
    number := l.stored s.number
    lines := s.lines ++ (l.printed s.number).map (Prod.mk u) }

def thr_rtn1 (s : State) : Option State :=
  match s.thr1 with
  | Thr1Pc.free l =>
      if l.Over 3 then
        some { s with thr1 := Thr1Pc.lock }
      else
        some { turn s Thread.thr1 l with thr1 := Thr1Pc.free l.next }
  | Thr1Pc.lock =>
      if s.lock = none then
        some { s with lock := some Thread.thr1, thr1 := Thr1Pc.locked (Loop.start 10) }
      else
        none
  | Thr1Pc.locked l =>
      if l.Over 13 then
        some { s with thr1 := Thr1Pc.unlock }
      else
        some { turn s Thread.thr1 l with thr1 := Thr1Pc.locked l.next }
  | Thr1Pc.unlock => some { s with lock := none, thr1 := Thr1Pc.exited }
  | _ => none

def thr_rtn2 (s : State) : Option State :=
  match s.thr2 with
  | Thr2Pc.lock =>
      if s.lock = none then
        some { s with lock := some Thread.thr2, thr2 := Thr2Pc.locked (Loop.start 20) }
      else
        none
  | Thr2Pc.locked l =>
      if l.Over 25 then
        some { s with thr2 := Thr2Pc.unlock }
      else
        some { turn s Thread.thr2 l with thr2 := Thr2Pc.locked l.next }
  | Thr2Pc.unlock => some { s with lock := none, thr2 := Thr2Pc.exited }
  | _ => none

def main (s : State) (ok : Bool) : Option State :=
  match s.main, ok with
  | MainPc.malloc, true => some { s with main := MainPc.init }
  | MainPc.malloc, false => some { s with main := MainPc.returned 1 }
  | MainPc.init, true => some { s with main := MainPc.create1 }
  | MainPc.init, false => some { s with main := MainPc.returned 2 }
  | MainPc.create1, true =>
      some { s with thr1 := Thr1Pc.free (Loop.start 0), main := MainPc.create2 }
  | MainPc.create1, false => some { s with main := MainPc.returned 3 }
  | MainPc.create2, true => some { s with thr2 := Thr2Pc.lock, main := MainPc.join1 }
  | MainPc.create2, false => some { s with main := MainPc.returned 3 }
  | MainPc.join1, true =>
      if s.thr1 = Thr1Pc.exited then some { s with main := MainPc.join2 } else none
  | MainPc.join2, true =>
      if s.thr2 = Thr2Pc.exited then some { s with main := MainPc.destroy } else none
  | MainPc.destroy, true => some { s with main := MainPc.returned 0 }
  | _, _ => none

def MainPc.over : MainPc -> Bool
  | MainPc.returned _ => true
  | _ => false

/-- The threads end with `main`. -/
def step (s : State) (l : Label) : Option State :=
  if s.main.over = true then
    none
  else
    match l with
    | Label.thr1 => thr_rtn1 s
    | Label.thr2 => thr_rtn2 s
    | Label.main ok => main s ok

def start : State where
  number := 0
  lock := none
  thr1 := Thr1Pc.before
  thr2 := Thr2Pc.before
  main := MainPc.malloc
  lines := []

def machine : Machine State Label where
  init s := s = start
  step := step

/-!
# What a loop prints
-/

/-- The lines of `n` iterations from `first` on that all find the value of their loop. -/
def lines (first n : Nat) : List Line :=
  (List.range' first n).flatMap
    (fun i => [{ after := false, i, number := i }, { after := true, i, number := i }])

theorem lines_succ (first n : Nat) :
    lines first (n + 1) = lines first n ++
      [{ after := false, i := first + n, number := first + n },
        { after := true, i := first + n, number := first + n }] := by
  unfold lines
  rw [List.range'_1_concat, List.flatMap_append]
  rfl

def Line.place (x : Line) : Bool × Nat :=
  (x.after, x.i)

namespace Loop

/-- What the loop has printed if it has always found its own values. -/
def shown (first : Nat) (l : Loop) : List Line :=
  lines first (l.i - first) ++
    match l.stmt with
    | Stmt.after => [{ after := false, i := l.i, number := l.i }]
    | _ => []

structure Within (first bound : Nat) (l : Loop) : Prop where
  first_le : first ≤ l.i
  le_bound : l.i ≤ bound
  lt_bound : l.stmt ≠ Stmt.store -> l.i < bound

/-- After its store the loop finds its own value, or one for which there is a reason. -/
def Finds (reason : Nat -> Prop) (l : Loop) (number : Nat) : Prop :=
  l.stmt ≠ Stmt.store -> number = l.i ∨ reason number

variable {l : Loop} {first bound number : Nat} {reason : Nat -> Prop}

theorem start_within (h : first ≤ bound) : (start first).Within first bound where
  first_le := Nat.le_refl _
  le_bound := h
  lt_bound hstmt := absurd rfl hstmt

theorem start_shown (first : Nat) : (start first).shown first = [] := by
  unfold shown start
  rw [Nat.sub_self]
  rfl

theorem start_finds (first : Nat) : (start first).Finds reason number :=
  fun hstmt => absurd rfl hstmt

theorem Within.next (h : l.Within first bound) (hover : ¬ l.Over bound) :
    l.next.Within first bound := by
  rcases h with ⟨hfirst, hle, hlt⟩
  unfold Loop.next
  cases hstmt : l.stmt with
  | store =>
      have hi : l.i < bound := Decidable.not_not.mp (fun hge => hover ⟨hstmt, hge⟩)
      exact ⟨hfirst, hle, fun _ => hi⟩
  | before =>
      have hi := hlt (by rw [hstmt]; nofun)
      exact ⟨hfirst, hle, fun _ => hi⟩
  | after =>
      have hi := hlt (by rw [hstmt]; nofun)
      exact ⟨Nat.le_succ_of_le hfirst, hi, fun hne => absurd rfl hne⟩

theorem Within.shown_of_over (h : l.Within first bound) (hover : l.Over bound) :
    l.shown first = lines first (bound - first) := by
  have hi : l.i = bound := Nat.le_antisymm h.le_bound (Nat.not_lt.mp hover.2)
  unfold shown
  rw [hover.1, hi]
  exact List.append_nil _

theorem Finds.next (h : l.Finds reason number) : l.next.Finds reason (l.stored number) := by
  unfold Loop.next stored
  cases hstmt : l.stmt with
  | store => exact fun _ => Or.inl rfl
  | before => exact fun _ => h (by rw [hstmt]; nofun)
  | after => exact fun hne => absurd rfl hne

theorem Finds.printed (h : l.Finds reason number) {x : Line} (hx : x ∈ l.printed number) :
    x.i = l.i ∧ (x.number = x.i ∨ reason x.number) := by
  unfold Loop.printed at hx
  cases hstmt : l.stmt with
  | store =>
      rw [hstmt] at hx
      cases hx
  | before =>
      rw [hstmt] at hx
      cases List.mem_singleton.mp hx
      exact ⟨rfl, h (by rw [hstmt]; nofun)⟩
  | after =>
      rw [hstmt] at hx
      cases List.mem_singleton.mp hx
      exact ⟨rfl, h (by rw [hstmt]; nofun)⟩

theorem shown_next_self (h : first ≤ l.i) :
    l.next.shown first = l.shown first ++ l.printed l.i := by
  unfold Loop.next shown printed
  cases hstmt : l.stmt with
  | store => exact (List.append_nil _).symm
  | before =>
      dsimp only
      rw [List.append_nil]
  | after =>
      have hi : first + (l.i - first) = l.i := Nat.add_sub_cancel' h
      dsimp only
      rw [Nat.succ_sub h, lines_succ, hi, List.append_nil, List.append_assoc]
      rfl

theorem shown_next (h : first ≤ l.i) (hfinds : l.Finds (fun _ => False) number) :
    l.next.shown first = l.shown first ++ l.printed number := by
  rw [shown_next_self h]
  congr 1
  unfold printed
  cases hstmt : l.stmt with
  | store => rfl
  | before => rw [(hfinds (by rw [hstmt]; nofun)).resolve_right id]
  | after => rw [(hfinds (by rw [hstmt]; nofun)).resolve_right id]

theorem place_shown_next (h : first ≤ l.i) (number : Nat) :
    (l.next.shown first).map Line.place =
      (l.shown first).map Line.place ++ (l.printed number).map Line.place := by
  rw [shown_next_self h, List.map_append]
  congr 1
  unfold printed
  cases hstmt : l.stmt with
  | _ => rfl

end Loop

/-!
# Which sections the mutex keeps apart
-/

def Thr1Pc.freeLines : Thr1Pc -> List Line
  | Thr1Pc.before => []
  | Thr1Pc.free l => l.shown 0
  | _ => lines 0 3

def Thr1Pc.lockedLines : Thr1Pc -> List Line
  | Thr1Pc.locked l => l.shown 10
  | Thr1Pc.unlock => lines 10 3
  | Thr1Pc.exited => lines 10 3
  | _ => []

def Thr2Pc.lockedLines : Thr2Pc -> List Line
  | Thr2Pc.locked l => l.shown 20
  | Thr2Pc.unlock => lines 20 5
  | Thr2Pc.exited => lines 20 5
  | _ => []

def Thr1Pc.holds : Thr1Pc -> Bool
  | Thr1Pc.locked _ => true
  | Thr1Pc.unlock => true
  | _ => false

def Thr2Pc.holds : Thr2Pc -> Bool
  | Thr2Pc.locked _ => true
  | Thr2Pc.unlock => true
  | _ => false

def Holds (s : State) : Thread -> Prop
  | Thread.thr1 => s.thr1.holds = true
  | Thread.thr2 => s.thr2.holds = true

def Thr1Pc.Begun (pc : Thr1Pc) : Prop :=
  pc.holds = true ∨ pc = Thr1Pc.exited

def Thr2Pc.Begun (pc : Thr2Pc) : Prop :=
  pc.holds = true ∨ pc = Thr2Pc.exited

def Thr1Pc.Within : Thr1Pc -> Prop
  | Thr1Pc.free l => l.Within 0 3
  | Thr1Pc.locked l => l.Within 10 13
  | _ => True

def Thr2Pc.Within : Thr2Pc -> Prop
  | Thr2Pc.locked l => l.Within 20 25
  | _ => True

/-- With the mutex a thread finds its own values; `reason` is for what it finds
without. -/
def Thr1Pc.Finds (reason : Nat -> Prop) (number : Nat) : Thr1Pc -> Prop
  | Thr1Pc.free l => l.Finds reason number
  | Thr1Pc.locked l => l.Finds (fun _ => False) number
  | _ => True

def Thr2Pc.Finds (reason : Nat -> Prop) (number : Nat) : Thr2Pc -> Prop
  | Thr2Pc.locked l => l.Finds reason number
  | _ => True

def by_ (u : Thread) (xs : List Line) : List (Thread × Line) :=
  xs.map (Prod.mk u)

/-- A value that the other thread has stored: with the mutex in the case of `thr_rtn1`,
without it in the case of `thr_rtn2`. -/
def Foreign : Thread -> Nat -> Prop
  | Thread.thr1, k => 20 ≤ k ∧ k < 25
  | Thread.thr2, k => k < 3

/-- The lines of both threads in any order, where each shows the value of its own loop
or one of the other thread's. -/
structure Shuffled (parts : Thread -> List Line) (xs : List (Thread × Line)) : Prop where
  places : forall u, (partOf u xs).map Line.place = (parts u).map Line.place
  values : forall x, x ∈ xs -> x.2.number = x.2.i ∨ Foreign x.1 x.2.number

def parts (s : State) : Thread -> List Line
  | Thread.thr1 => s.thr1.freeLines
  | Thread.thr2 => s.thr2.lockedLines

/-- Nobody has disturbed anybody: `thr_rtn2` has not had the mutex yet, or got it when
`thr_rtn1` was over. -/
structure Clean (s : State) : Prop where
  lines_eq : s.lines =
    by_ Thread.thr1 (s.thr1.freeLines ++ s.thr1.lockedLines) ++
      by_ Thread.thr2 s.thr2.lockedLines
  finds1 : s.thr1.Finds (fun _ => False) s.number
  finds2 : s.thr2.Finds (fun _ => False) s.number
  after : s.thr2.Begun -> s.thr1 = Thr1Pc.exited

/-- `thr_rtn2` has got the mutex first. -/
structure Mixed (s : State) : Prop where
  lines_eq : exists xs, s.lines = xs ++ by_ Thread.thr1 s.thr1.lockedLines ∧
    Shuffled (parts s) xs
  finds1 : s.thr1.Finds (Foreign Thread.thr1) s.number
  finds2 : s.thr2.Finds (Foreign Thread.thr2) s.number
  begun : s.thr2.Begun
  after : s.thr1.Begun -> s.thr2 = Thr2Pc.exited

/-- How far the threads are at each point of `main`. -/
def Joined (s : State) : Prop :=
  match s.main with
  | MainPc.malloc => s.thr1 = Thr1Pc.before ∧ s.thr2 = Thr2Pc.before
  | MainPc.init => s.thr1 = Thr1Pc.before ∧ s.thr2 = Thr2Pc.before
  | MainPc.create1 => s.thr1 = Thr1Pc.before ∧ s.thr2 = Thr2Pc.before
  | MainPc.create2 => s.thr1 ≠ Thr1Pc.before ∧ s.thr2 = Thr2Pc.before
  | MainPc.join1 => s.thr1 ≠ Thr1Pc.before ∧ s.thr2 ≠ Thr2Pc.before
  | MainPc.join2 => s.thr1 = Thr1Pc.exited ∧ s.thr2 ≠ Thr2Pc.before
  | MainPc.destroy => s.thr1 = Thr1Pc.exited ∧ s.thr2 = Thr2Pc.exited
  | MainPc.returned status =>
      status = 0 -> s.thr1 = Thr1Pc.exited ∧ s.thr2 = Thr2Pc.exited

structure Inv (s : State) : Prop where
  owned : OwnedBy s.lock (Holds s)
  within1 : s.thr1.Within
  within2 : s.thr2.Within
  order : Clean s ∨ Mixed s
  joined : Joined s

theorem start_inv : Inv start where
  owned u := by
    cases u with
    | _ => exact ⟨nofun, nofun⟩
  within1 := trivial
  within2 := trivial
  order := Or.inl ⟨rfl, trivial, trivial, nofun⟩
  joined := ⟨rfl, rfl⟩

theorem partOf_by_self (u : Thread) (xs : List Line) : partOf u (by_ u xs) = xs := by
  induction xs with
  | nil => rfl
  | cons x rest ih =>
      show partOf u ((u, x) :: by_ u rest) = x :: rest
      rw [partOf_cons, if_pos rfl, ih]

theorem partOf_by_of_ne {u v : Thread} (h : u ≠ v) (xs : List Line) :
    partOf v (by_ u xs) = [] := by
  induction xs with
  | nil => rfl
  | cons x rest ih =>
      show partOf v ((u, x) :: by_ u rest) = []
      rw [partOf_cons, if_neg h, ih]

theorem by_append (u : Thread) (xs ys : List Line) : by_ u (xs ++ ys) = by_ u xs ++ by_ u ys :=
  List.map_append

theorem Shuffled.append {before after : Thread -> List Line} {xs : List (Thread × Line)}
    {u : Thread} {more : List Line} (h : Shuffled before xs)
    (hu : (after u).map Line.place = (before u).map Line.place ++ more.map Line.place)
    (hother : forall v, v ≠ u -> after v = before v)
    (hmore : forall x, x ∈ more -> x.number = x.i ∨ Foreign u x.number) :
    Shuffled after (xs ++ by_ u more) where
  places v := by
    by_cases hv : v = u
    · rw [hv, partOf_append, List.map_append, h.places u, partOf_by_self, hu]
    · rw [partOf_append, partOf_by_of_ne (fun heq => hv heq.symm), List.append_nil, h.places v,
        hother v hv]
  values x hx := by
    rcases List.mem_append.mp hx with hx | hx
    · exact h.values x hx
    · rcases List.mem_map.mp hx with ⟨y, hy, heq⟩
      rw [← heq]
      exact hmore y hy

theorem number_of_mem_lines {first n : Nat} {x : Line} (h : x ∈ lines first n) :
    x.number = x.i := by
  rcases List.mem_flatMap.mp h with ⟨i, _, hx⟩
  rcases List.mem_cons.mp hx with heq | hx
  · rw [heq]
  · rw [List.mem_singleton.mp hx]

theorem number_of_mem_shown {first : Nat} {l : Loop} {x : Line} (h : x ∈ l.shown first) :
    x.number = x.i := by
  rcases List.mem_append.mp h with hx | hx
  · exact number_of_mem_lines hx
  · cases hstmt : l.stmt with
    | after =>
        rw [hstmt] at hx
        rw [List.mem_singleton.mp hx]
    | _ =>
        rw [hstmt] at hx
        cases hx

theorem number_of_mem_freeLines {pc : Thr1Pc} {x : Line} (h : x ∈ pc.freeLines) :
    x.number = x.i := by
  cases pc with
  | before => cases h
  | free l => exact number_of_mem_shown h
  | _ => exact number_of_mem_lines h

section

variable {s t : State}

theorem Joined.thr1 (h : Joined s) (hover : ¬ s.main.over = true)
    (hpc : s.thr1 ≠ Thr1Pc.before) (hne : s.thr1 ≠ Thr1Pc.exited)
    (hpc' : t.thr1 ≠ Thr1Pc.before) (h2 : t.thr2 = s.thr2) (hmain : t.main = s.main) :
    Joined t := by
  unfold Joined at h ⊢
  rw [hmain, h2]
  cases hm : s.main with
  | create2 =>
      rw [hm] at h
      exact ⟨hpc', h.2⟩
  | join1 =>
      rw [hm] at h
      exact ⟨hpc', h.2⟩
  | join2 =>
      rw [hm] at h
      exact absurd h.1 hne
  | destroy =>
      rw [hm] at h
      exact absurd h.1 hne
  | returned status =>
      rw [hm] at hover
      exact absurd rfl hover
  | _ =>
      rw [hm] at h
      exact absurd h.1 hpc

theorem Joined.thr2 (h : Joined s) (hover : ¬ s.main.over = true)
    (hpc : s.thr2 ≠ Thr2Pc.before) (hne : s.thr2 ≠ Thr2Pc.exited)
    (hpc' : t.thr2 ≠ Thr2Pc.before) (h1 : t.thr1 = s.thr1) (hmain : t.main = s.main) :
    Joined t := by
  unfold Joined at h ⊢
  rw [hmain, h1]
  cases hm : s.main with
  | join1 =>
      rw [hm] at h
      exact ⟨h.1, hpc'⟩
  | join2 =>
      rw [hm] at h
      exact ⟨h.1, hpc'⟩
  | destroy =>
      rw [hm] at h
      exact absurd h.2 hne
  | returned status =>
      rw [hm] at hover
      exact absurd rfl hover
  | _ =>
      rw [hm] at h
      exact absurd h.2 hpc

theorem Thr1Pc.lockedLines_of_not_begun {pc : Thr1Pc} (h : ¬ pc.Begun) :
    pc.lockedLines = [] := by
  cases pc with
  | locked l => exact absurd (Or.inl rfl) h
  | unlock => exact absurd (Or.inl rfl) h
  | exited => exact absurd (Or.inr rfl) h
  | _ => rfl

theorem Thr2Pc.lockedLines_of_not_begun {pc : Thr2Pc} (h : ¬ pc.Begun) :
    pc.lockedLines = [] := by
  cases pc with
  | locked l => exact absurd (Or.inl rfl) h
  | unlock => exact absurd (Or.inl rfl) h
  | exited => exact absurd (Or.inr rfl) h
  | _ => rfl

theorem Thr2Pc.finds_of_not_begun {pc : Thr2Pc} {reason : Nat -> Prop} {number : Nat}
    (h : ¬ pc.Begun) : pc.Finds reason number := by
  cases pc with
  | locked l => exact absurd (Or.inl rfl) h
  | _ => trivial

theorem Thr1Pc.Finds.mono {pc : Thr1Pc} {reason : Nat -> Prop} {number : Nat}
    (h : pc.Finds (fun _ => False) number) : pc.Finds reason number := by
  cases pc with
  | free l => exact fun hstmt => Or.inl ((h hstmt).resolve_right id)
  | locked l => exact h
  | _ => trivial

theorem Inv.not_holds2 (h : Inv s) (hholds : s.thr1.holds = true ∨ s.lock = none) :
    ¬ s.thr2.holds = true := by
  intro h2
  have hlock := (h.owned Thread.thr2).mp h2
  rcases hholds with h1 | hnone
  · rw [(h.owned Thread.thr1).mp h1] at hlock
    cases hlock
  · rw [hnone] at hlock
    cases hlock

theorem Inv.not_holds1 (h : Inv s) (hholds : s.thr2.holds = true ∨ s.lock = none) :
    ¬ s.thr1.holds = true := by
  intro h1
  have hlock := (h.owned Thread.thr1).mp h1
  rcases hholds with h2 | hnone
  · rw [(h.owned Thread.thr2).mp h2] at hlock
    cases hlock
  · rw [hnone] at hlock
    cases hlock

theorem order_move1 {pc : Thr1Pc} {lock : Option Thread} (h : Clean s ∨ Mixed s)
    (hfree : pc.freeLines = s.thr1.freeLines) (hlocked : pc.lockedLines = s.thr1.lockedLines)
    (hfinds : forall reason, pc.Finds reason s.number) (hne : s.thr1 ≠ Thr1Pc.exited)
    (hbegun : pc.Begun -> ¬ s.thr2.holds = true) :
    Clean { s with lock, thr1 := pc } ∨ Mixed { s with lock, thr1 := pc } := by
  rcases h with h | h
  · left
    refine ⟨?_, hfinds _, h.finds2, fun h2 => absurd (h.after h2) hne⟩
    show s.lines = by_ _ (pc.freeLines ++ pc.lockedLines) ++ _
    rw [hfree, hlocked]
    exact h.lines_eq
  · right
    refine ⟨?_, hfinds _, h.finds2, h.begun, fun h1 => h.begun.resolve_left (hbegun h1)⟩
    rcases h.lines_eq with ⟨xs, heq, hxs⟩
    refine ⟨xs, ?_, ⟨?_, hxs.values⟩⟩
    · show s.lines = xs ++ by_ _ pc.lockedLines
      rw [hlocked]
      exact heq
    · intro u
      cases u with
      | thr1 =>
          rw [hxs.places]
          exact congrArg (List.map Line.place) hfree.symm
      | thr2 => exact hxs.places Thread.thr2

theorem order_move2 {pc : Thr2Pc} {lock : Option Thread} (h : Clean s ∨ Mixed s)
    (hlocked : pc.lockedLines = s.thr2.lockedLines)
    (hfinds : forall reason, pc.Finds reason s.number) (hholds : s.thr2.holds = true)
    (hbegun : pc.Begun) :
    Clean { s with lock, thr2 := pc } ∨ Mixed { s with lock, thr2 := pc } := by
  rcases h with h | h
  · left
    refine ⟨?_, h.finds1, hfinds _, fun _ => h.after (Or.inl hholds)⟩
    show s.lines = _ ++ by_ _ pc.lockedLines
    rw [hlocked]
    exact h.lines_eq
  · right
    have hnot : ¬ s.thr1.Begun := by
      intro h1
      rw [h.after h1] at hholds
      cases hholds
    refine ⟨?_, h.finds1, hfinds _, hbegun, fun h1 => absurd h1 hnot⟩
    rcases h.lines_eq with ⟨xs, heq, hxs⟩
    refine ⟨xs, heq, ⟨?_, hxs.values⟩⟩
    intro u
    cases u with
    | thr1 => exact hxs.places Thread.thr1
    | thr2 =>
        rw [hxs.places]
        exact congrArg (List.map Line.place) hlocked.symm

theorem Loop.Finds.store {m l : Loop} {number : Nat} {reason : Nat -> Prop}
    (h : m.Finds reason number) (hstore : l.stmt = Stmt.store -> reason l.i) :
    m.Finds reason (l.stored number) := by
  intro hstmt
  unfold Loop.stored
  cases hl : l.stmt with
  | store => exact Or.inr (hstore hl)
  | _ => exact h hstmt

theorem Thr1Pc.Finds.free {pc : Thr1Pc} {l : Loop} {reason : Nat -> Prop} {number : Nat}
    (h : pc.Finds reason number) (hpc : pc = Thr1Pc.free l) : l.Finds reason number := by
  rw [hpc] at h
  exact h

theorem Thr1Pc.Finds.locked {pc : Thr1Pc} {l : Loop} {reason : Nat -> Prop} {number : Nat}
    (h : pc.Finds reason number) (hpc : pc = Thr1Pc.locked l) :
    l.Finds (fun _ => False) number := by
  rw [hpc] at h
  exact h

theorem Thr2Pc.Finds.locked {pc : Thr2Pc} {l : Loop} {reason : Nat -> Prop} {number : Nat}
    (h : pc.Finds reason number) (hpc : pc = Thr2Pc.locked l) : l.Finds reason number := by
  rw [hpc] at h
  exact h

theorem Thr1Pc.start_finds {reason : Nat -> Prop} {number : Nat} :
    (Thr1Pc.locked (Loop.start 10)).Finds reason number :=
  fun hstmt => absurd rfl hstmt

theorem Thr2Pc.start_finds {reason : Nat -> Prop} {number : Nat} :
    (Thr2Pc.locked (Loop.start 20)).Finds reason number :=
  Loop.start_finds 20

theorem order_free {l : Loop} (h : Inv s) (hpc : s.thr1 = Thr1Pc.free l) (hover : ¬ l.Over 3) :
    Clean { turn s Thread.thr1 l with thr1 := Thr1Pc.free l.next } ∨
      Mixed { turn s Thread.thr1 l with thr1 := Thr1Pc.free l.next } := by
  have hwithin : l.Within 0 3 := by
    have hw := h.within1
    rw [hpc] at hw
    exact hw
  rcases h.order with h | h
  · left
    have hnot : ¬ s.thr2.Begun := by
      intro h2
      have hexited := h.after h2
      rw [hpc] at hexited
      cases hexited
    have hfinds := h.finds1.free hpc
    refine ⟨?_, hfinds.next, Thr2Pc.finds_of_not_begun hnot, fun h2 => absurd h2 hnot⟩
    show s.lines ++ by_ _ _ = by_ _ (l.next.shown 0 ++ []) ++ by_ _ s.thr2.lockedLines
    rw [h.lines_eq, hpc, Thr2Pc.lockedLines_of_not_begun hnot, Loop.shown_next hwithin.1 hfinds]
    show by_ _ (l.shown 0 ++ []) ++ [] ++ _ = _ ++ []
    rw [List.append_nil, List.append_nil, List.append_nil, List.append_nil, by_append]
  · right
    have hnot : ¬ s.thr1.Begun := by
      rw [hpc]
      rintro (hfalse | hfalse) <;> cases hfalse
    have hfinds := h.finds1.free hpc
    refine ⟨?_, hfinds.next, ?_, h.begun, ?_⟩
    · rcases h.lines_eq with ⟨xs, heq, hxs⟩
      rw [Thr1Pc.lockedLines_of_not_begun hnot] at heq
      refine ⟨xs ++ by_ Thread.thr1 (l.printed s.number), ?_, ?_⟩
      · show s.lines ++ _ = (xs ++ _) ++ []
        rw [heq, List.append_nil]
        exact congrArg (fun ys => ys ++ _) (List.append_nil xs)
      · refine hxs.append ?_ ?_ (fun x hx => (hfinds.printed hx).2)
        · show (l.next.shown 0).map _ = s.thr1.freeLines.map _ ++ _
          rw [hpc]
          exact Loop.place_shown_next hwithin.1 s.number
        · intro v hv
          cases v with
          | thr1 => exact absurd rfl hv
          | thr2 => rfl
    · show s.thr2.Finds _ (l.stored s.number)
      have hfinds2 := h.finds2
      cases h2 : s.thr2 with
      | locked m =>
          rw [h2] at hfinds2
          exact Loop.Finds.store hfinds2
            (fun hstmt => Nat.lt_of_not_le (fun hge => hover ⟨hstmt, Nat.not_lt.mpr hge⟩))
      | _ => trivial
    · rintro (hfalse | hfalse) <;> cases hfalse

theorem order_locked1 {l : Loop} (h : Inv s) (hpc : s.thr1 = Thr1Pc.locked l) :
    Clean { turn s Thread.thr1 l with thr1 := Thr1Pc.locked l.next } ∨
      Mixed { turn s Thread.thr1 l with thr1 := Thr1Pc.locked l.next } := by
  have hwithin : l.Within 10 13 := by
    have hw := h.within1
    rw [hpc] at hw
    exact hw
  rcases h.order with h | h
  · left
    have hnot : ¬ s.thr2.Begun := by
      intro h2
      have hexited := h.after h2
      rw [hpc] at hexited
      cases hexited
    have hfinds := h.finds1.locked hpc
    refine ⟨?_, hfinds.next, Thr2Pc.finds_of_not_begun hnot, fun h2 => absurd h2 hnot⟩
    show s.lines ++ by_ _ _ = by_ _ (lines 0 3 ++ l.next.shown 10) ++ by_ _ s.thr2.lockedLines
    rw [h.lines_eq, hpc, Thr2Pc.lockedLines_of_not_begun hnot, Loop.shown_next hwithin.1 hfinds]
    show by_ _ (lines 0 3 ++ l.shown 10) ++ [] ++ _ = _ ++ []
    rw [List.append_nil, List.append_nil, ← by_append, List.append_assoc]
  · right
    have hbegun : s.thr1.Begun := by
      rw [hpc]
      exact Or.inl rfl
    have hexited := h.after hbegun
    have hfinds := h.finds1.locked hpc
    refine ⟨?_, hfinds.next, ?_, h.begun, fun _ => hexited⟩
    · rcases h.lines_eq with ⟨xs, heq, hxs⟩
      refine ⟨xs, ?_, ⟨?_, hxs.values⟩⟩
      · show s.lines ++ by_ _ _ = xs ++ by_ _ (l.next.shown 10)
        rw [heq, hpc, Loop.shown_next hwithin.1 hfinds, by_append, List.append_assoc]
        rfl
      · intro u
        cases u with
        | thr1 =>
            rw [hxs.places]
            show s.thr1.freeLines.map _ = _
            rw [hpc]
            rfl
        | thr2 => exact hxs.places Thread.thr2
    · show s.thr2.Finds _ _
      rw [hexited]
      trivial

theorem order_locked2 {l : Loop} (h : Inv s) (hpc : s.thr2 = Thr2Pc.locked l)
    (hover : ¬ l.Over 25) :
    Clean { turn s Thread.thr2 l with thr2 := Thr2Pc.locked l.next } ∨
      Mixed { turn s Thread.thr2 l with thr2 := Thr2Pc.locked l.next } := by
  have hwithin : l.Within 20 25 := by
    have hw := h.within2
    rw [hpc] at hw
    exact hw
  have hbegun : s.thr2.Begun := by
    rw [hpc]
    exact Or.inl rfl
  rcases h.order with h | h
  · left
    have hexited := h.after hbegun
    have hfinds := h.finds2.locked hpc
    refine ⟨?_, ?_, hfinds.next, fun _ => hexited⟩
    · show s.lines ++ by_ _ _ = _ ++ by_ _ (l.next.shown 20)
      rw [h.lines_eq, hpc, Loop.shown_next hwithin.1 hfinds, by_append Thread.thr2,
        List.append_assoc]
      rfl
    · show s.thr1.Finds _ _
      rw [hexited]
      trivial
  · right
    have hnot : ¬ s.thr1.Begun := by
      intro h1
      have hexited := h.after h1
      rw [hpc] at hexited
      cases hexited
    have hfinds := h.finds2.locked hpc
    refine ⟨?_, ?_, hfinds.next, Or.inl rfl, fun h1 => absurd h1 hnot⟩
    · rcases h.lines_eq with ⟨xs, heq, hxs⟩
      rw [Thr1Pc.lockedLines_of_not_begun hnot] at heq
      refine ⟨xs ++ by_ Thread.thr2 (l.printed s.number), ?_, ?_⟩
      · show s.lines ++ _ = (xs ++ _) ++ by_ _ s.thr1.lockedLines
        rw [heq, Thr1Pc.lockedLines_of_not_begun hnot]
        show (xs ++ []) ++ _ = (xs ++ _) ++ []
        rw [List.append_nil, List.append_nil]
        rfl
      · refine hxs.append ?_ ?_ (fun x hx => (hfinds.printed hx).2)
        · show (l.next.shown 20).map _ = s.thr2.lockedLines.map _ ++ _
          rw [hpc]
          exact Loop.place_shown_next hwithin.1 s.number
        · intro v hv
          cases v with
          | thr1 => rfl
          | thr2 => exact absurd rfl hv
    · show s.thr1.Finds _ (l.stored s.number)
      have hfinds1 := h.finds1
      cases h1 : s.thr1 with
      | free m =>
          rw [h1] at hfinds1
          exact Loop.Finds.store hfinds1 (fun hstmt =>
            ⟨hwithin.1, Decidable.not_not.mp (fun hge => hover ⟨hstmt, hge⟩)⟩)
      | locked m =>
          rw [h1] at hnot
          exact absurd (Or.inl rfl) hnot
      | _ => trivial

theorem order_lock2 (h : Inv s) (hpc : s.thr2 = Thr2Pc.lock) (hlock : s.lock = none) :
    Clean { s with lock := some Thread.thr2, thr2 := Thr2Pc.locked (Loop.start 20) } ∨
      Mixed { s with lock := some Thread.thr2, thr2 := Thr2Pc.locked (Loop.start 20) } := by
  have hholds := h.not_holds1 (Or.inr hlock)
  rcases h.order with h | h
  · have hlines := h.lines_eq
    rw [hpc] at hlines
    by_cases hexited : s.thr1 = Thr1Pc.exited
    · left
      refine ⟨?_, h.finds1, Thr2Pc.start_finds, fun _ => hexited⟩
      show s.lines = _ ++ by_ _ ((Loop.start 20).shown 20)
      rw [Loop.start_shown]
      exact hlines
    · right
      have hnot : ¬ s.thr1.Begun := by
        rintro (h1 | h1)
        · exact hholds h1
        · exact hexited h1
      refine ⟨⟨s.lines, ?_, ⟨?_, ?_⟩⟩, h.finds1.mono, Thr2Pc.start_finds, Or.inl rfl,
        fun h1 => absurd h1 hnot⟩
      · show s.lines = s.lines ++ by_ _ s.thr1.lockedLines
        rw [Thr1Pc.lockedLines_of_not_begun hnot]
        exact (List.append_nil _).symm
      · intro u
        rw [hlines, Thr1Pc.lockedLines_of_not_begun hnot, List.append_nil]
        show (partOf u (by_ _ _ ++ [])).map _ = _
        rw [List.append_nil]
        cases u with
        | thr1 =>
            rw [partOf_by_self]
            rfl
        | thr2 =>
            rw [partOf_by_of_ne (by decide)]
            show _ = ((Loop.start 20).shown 20).map _
            rw [Loop.start_shown]
      · intro x hx
        rw [hlines, Thr1Pc.lockedLines_of_not_begun hnot, List.append_nil] at hx
        rcases List.mem_append.mp hx with hx | hx
        · rcases List.mem_map.mp hx with ⟨y, hy, heq⟩
          rw [← heq]
          exact Or.inl (number_of_mem_freeLines hy)
        · cases hx
  · exfalso
    have hbegun := h.begun
    rw [hpc] at hbegun
    rcases hbegun with hfalse | hfalse <;> cases hfalse

theorem holds_other1 (h : t.thr2 = s.thr2) (u : Thread) (hu : u ≠ Thread.thr1) :
    Holds t u ↔ Holds s u := by
  cases u with
  | thr1 => exact absurd rfl hu
  | thr2 => rw [Holds, Holds, h]

theorem holds_other2 (h : t.thr1 = s.thr1) (u : Thread) (hu : u ≠ Thread.thr2) :
    Holds t u ↔ Holds s u := by
  cases u with
  | thr1 => rw [Holds, Holds, h]
  | thr2 => exact absurd rfl hu

theorem Inv.thr1 (h : Inv s) (hover : ¬ s.main.over = true) (hstep : thr_rtn1 s = some t) :
    Inv t := by
  have hwithin := h.within1
  unfold thr_rtn1 at hstep
  split at hstep
  · next l hpc =>
      rw [hpc] at hwithin
      have hjoined : forall {u : State}, u.thr1 ≠ Thr1Pc.before -> u.thr2 = s.thr2 ->
          u.main = s.main -> Joined u :=
        h.joined.thr1 hover (by rw [hpc]; nofun) (by rw [hpc]; nofun)
      split at hstep
      · next hl =>
          cases hstep
          refine ⟨h.owned.keep (holds_other1 rfl) ?_, trivial, h.within2, ?_,
            hjoined nofun rfl rfl⟩
          · show false = true ↔ s.thr1.holds = true
            rw [hpc]
            exact Iff.rfl
          · apply order_move1 h.order
            · rw [hpc]
              exact (Loop.Within.shown_of_over hwithin hl).symm
            · rw [hpc]
              rfl
            · exact fun _ => trivial
            · rw [hpc]
              nofun
            · rintro (hfalse | hfalse) <;> cases hfalse
      · next hl =>
          cases hstep
          refine ⟨h.owned.keep (holds_other1 rfl) ?_, Loop.Within.next hwithin hl, h.within2,
            order_free h hpc hl, hjoined nofun rfl rfl⟩
          · show false = true ↔ s.thr1.holds = true
            rw [hpc]
            exact Iff.rfl
  · next hpc =>
      split at hstep
      · next hlock =>
          cases hstep
          have howned := h.owned
          rw [hlock] at howned
          refine ⟨howned.acquire (holds_other1 rfl) rfl, Loop.start_within (by decide), h.within2,
            ?_,
            h.joined.thr1 hover (by rw [hpc]; nofun) (by rw [hpc]; nofun) nofun rfl rfl⟩
          · apply order_move1 h.order
            · rw [hpc]
              rfl
            · rw [hpc]
              exact Loop.start_shown 10
            · exact fun _ => Thr1Pc.start_finds
            · rw [hpc]
              nofun
            · exact fun _ => h.not_holds2 (Or.inr hlock)
      · cases hstep
  · next l hpc =>
      rw [hpc] at hwithin
      have hholds : s.thr1.holds = true := by
        rw [hpc]
        rfl
      have hjoined : forall {u : State}, u.thr1 ≠ Thr1Pc.before -> u.thr2 = s.thr2 ->
          u.main = s.main -> Joined u :=
        h.joined.thr1 hover (by rw [hpc]; nofun) (by rw [hpc]; nofun)
      split at hstep
      · next hl =>
          cases hstep
          refine ⟨h.owned.keep (holds_other1 rfl) ?_, trivial, h.within2, ?_,
            hjoined nofun rfl rfl⟩
          · exact ⟨fun _ => hholds, fun _ => rfl⟩
          · apply order_move1 h.order
            · rw [hpc]
              rfl
            · rw [hpc]
              exact (Loop.Within.shown_of_over hwithin hl).symm
            · exact fun _ => trivial
            · rw [hpc]
              nofun
            · exact fun _ => h.not_holds2 (Or.inl hholds)
      · next hl =>
          cases hstep
          refine ⟨h.owned.keep (holds_other1 rfl) ?_, Loop.Within.next hwithin hl, h.within2,
            order_locked1 h hpc, hjoined nofun rfl rfl⟩
          · exact ⟨fun _ => hholds, fun _ => rfl⟩
  · next hpc =>
      cases hstep
      have hholds : s.thr1.holds = true := by
        rw [hpc]
        rfl
      refine ⟨h.owned.release (t := Thread.thr1) hholds (holds_other1 rfl) nofun, trivial,
        h.within2, ?_,
        h.joined.thr1 hover (by rw [hpc]; nofun) (by rw [hpc]; nofun) nofun rfl rfl⟩
      · apply order_move1 h.order
        · rw [hpc]
          rfl
        · rw [hpc]
          rfl
        · exact fun _ => trivial
        · rw [hpc]
          nofun
        · exact fun _ => h.not_holds2 (Or.inl hholds)
  · cases hstep

theorem Inv.thr2 (h : Inv s) (hover : ¬ s.main.over = true) (hstep : thr_rtn2 s = some t) :
    Inv t := by
  have hwithin := h.within2
  unfold thr_rtn2 at hstep
  split at hstep
  · next hpc =>
      split at hstep
      · next hlock =>
          cases hstep
          have howned := h.owned
          rw [hlock] at howned
          refine ⟨howned.acquire (holds_other2 rfl) rfl, h.within1, Loop.start_within (by decide),
            order_lock2 h hpc hlock,
            h.joined.thr2 hover (by rw [hpc]; nofun) (by rw [hpc]; nofun) nofun rfl rfl⟩
      · cases hstep
  · next l hpc =>
      rw [hpc] at hwithin
      have hholds : s.thr2.holds = true := by
        rw [hpc]
        rfl
      have hjoined : forall {u : State}, u.thr2 ≠ Thr2Pc.before -> u.thr1 = s.thr1 ->
          u.main = s.main -> Joined u :=
        h.joined.thr2 hover (by rw [hpc]; nofun) (by rw [hpc]; nofun)
      split at hstep
      · next hl =>
          cases hstep
          refine ⟨h.owned.keep (holds_other2 rfl) ?_, h.within1, trivial, ?_,
            hjoined nofun rfl rfl⟩
          · exact ⟨fun _ => hholds, fun _ => rfl⟩
          · apply order_move2 h.order
            · rw [hpc]
              exact (Loop.Within.shown_of_over hwithin hl).symm
            · exact fun _ => trivial
            · exact hholds
            · exact Or.inl rfl
      · next hl =>
          cases hstep
          refine ⟨h.owned.keep (holds_other2 rfl) ?_, h.within1,
            Loop.Within.next hwithin hl, order_locked2 h hpc hl, hjoined nofun rfl rfl⟩
          · exact ⟨fun _ => hholds, fun _ => rfl⟩
  · next hpc =>
      cases hstep
      have hholds : s.thr2.holds = true := by
        rw [hpc]
        rfl
      refine ⟨h.owned.release (t := Thread.thr2) hholds (holds_other2 rfl) nofun, h.within1,
        trivial, ?_,
        h.joined.thr2 hover (by rw [hpc]; nofun) (by rw [hpc]; nofun) nofun rfl rfl⟩
      · apply order_move2 h.order
        · rw [hpc]
          rfl
        · exact fun _ => trivial
        · exact hholds
        · exact Or.inr rfl
  · cases hstep

theorem order_main {pc : MainPc} (h : Clean s ∨ Mixed s) :
    Clean { s with main := pc } ∨ Mixed { s with main := pc } := by
  rcases h with h | h
  · exact Or.inl ⟨h.lines_eq, h.finds1, h.finds2, h.after⟩
  · exact Or.inr ⟨h.lines_eq, h.finds1, h.finds2, h.begun, h.after⟩

theorem Inv.main {ok : Bool} (h : Inv s) (hstep : main s ok = some t) : Inv t := by
  have hjoined := h.joined
  unfold Joined at hjoined
  have hmoved : forall {pc : MainPc}, Joined { s with main := pc } ->
      Inv { s with main := pc } :=
    fun hj => ⟨h.owned, h.within1, h.within2, order_main h.order, hj⟩
  unfold Mutexes.main at hstep
  split at hstep
  · next hpc =>
      cases hstep
      rw [hpc] at hjoined
      exact hmoved hjoined
  · cases hstep
    exact hmoved nofun
  · next hpc =>
      cases hstep
      rw [hpc] at hjoined
      exact hmoved hjoined
  · cases hstep
    exact hmoved nofun
  · next hpc =>
      cases hstep
      rw [hpc] at hjoined
      rcases hjoined with ⟨h1, h2⟩
      refine ⟨h.owned.keep (holds_other1 rfl) ?_, Loop.start_within (by decide), h.within2, ?_,
        ⟨nofun, h2⟩⟩
      · show false = true ↔ s.thr1.holds = true
        rw [h1]
        exact Iff.rfl
      · apply order_main (s := { s with thr1 := Thr1Pc.free (Loop.start 0) })
        apply order_move1 h.order
        · rw [h1]
          exact Loop.start_shown 0
        · rw [h1]
          rfl
        · exact fun _ => Loop.start_finds 0
        · rw [h1]
          nofun
        · rintro (hfalse | hfalse) <;> cases hfalse
  · cases hstep
    exact hmoved nofun
  · next hpc =>
      cases hstep
      rw [hpc] at hjoined
      rcases hjoined with ⟨h1, h2⟩
      have hnot : ¬ Thr2Pc.lock.Begun := by
        rintro (hfalse | hfalse) <;> cases hfalse
      refine ⟨h.owned.keep (holds_other2 rfl) ?_, h.within1, trivial, ?_, ⟨h1, nofun⟩⟩
      · show false = true ↔ s.thr2.holds = true
        rw [h2]
        exact Iff.rfl
      · rcases h.order with hc | hm
        · left
          refine ⟨?_, hc.finds1, trivial, fun hbegun => absurd hbegun hnot⟩
          rw [hc.lines_eq, h2]
          rfl
        · exfalso
          have hbegun := hm.begun
          rw [h2] at hbegun
          rcases hbegun with hfalse | hfalse <;> cases hfalse
  · cases hstep
    exact hmoved nofun
  · next hpc =>
      split at hstep
      · next hexited =>
          cases hstep
          rw [hpc] at hjoined
          exact hmoved ⟨hexited, hjoined.2⟩
      · cases hstep
  · next hpc =>
      split at hstep
      · next hexited =>
          cases hstep
          rw [hpc] at hjoined
          exact hmoved ⟨hjoined.1, hexited⟩
      · cases hstep
  · next hpc =>
      cases hstep
      rw [hpc] at hjoined
      exact hmoved (fun _ => hjoined)
  · cases hstep

theorem Inv.after {l : Label} (h : Inv s) (hstep : step s l = some t) : Inv t := by
  unfold step at hstep
  split at hstep
  · cases hstep
  · next hover =>
      cases l with
      | thr1 => exact h.thr1 hover hstep
      | thr2 => exact h.thr2 hover hstep
      | main ok => exact h.main hstep

theorem reachable_inv (h : machine.Reachable s) : Inv s := by
  refine Machine.invariant ?_ (fun _ _ _ hs hstep => hs.after hstep) h
  intro u hu
  rw [show u = start from hu]
  exact start_inv

/-!
# The threads come to an end
-/

def Loop.left (bound : Nat) (l : Loop) : Nat :=
  match l.stmt with
  | Stmt.store => 3 * (bound - l.i)
  | Stmt.before => 3 * (bound - l.i) - 1
  | Stmt.after => 3 * (bound - l.i) - 2

def Thr1Pc.left : Thr1Pc -> Nat
  | Thr1Pc.before => 23
  | Thr1Pc.free l => l.left 3 + 13
  | Thr1Pc.lock => 12
  | Thr1Pc.locked l => l.left 13 + 2
  | Thr1Pc.unlock => 1
  | Thr1Pc.exited => 0

def Thr2Pc.left : Thr2Pc -> Nat
  | Thr2Pc.before => 19
  | Thr2Pc.lock => 18
  | Thr2Pc.locked l => l.left 25 + 2
  | Thr2Pc.unlock => 1
  | Thr2Pc.exited => 0

def MainPc.left : MainPc -> Nat
  | MainPc.malloc => 7
  | MainPc.init => 6
  | MainPc.create1 => 5
  | MainPc.create2 => 4
  | MainPc.join1 => 3
  | MainPc.join2 => 2
  | MainPc.destroy => 1
  | MainPc.returned _ => 0

def left (s : State) : Nat :=
  s.thr1.left + s.thr2.left + s.main.left

theorem Loop.Within.left_next {first bound : Nat} {l : Loop} (h : l.Within first bound)
    (hover : ¬ l.Over bound) : l.next.left bound < l.left bound := by
  have hlt := h.lt_bound
  unfold Loop.next Loop.left
  cases hstmt : l.stmt with
  | store =>
      have hi : l.i < bound := Nat.lt_of_not_le (fun hge => hover ⟨hstmt, Nat.not_lt.mpr hge⟩)
      dsimp only
      lia
  | before =>
      have hi := hlt (by rw [hstmt]; nofun)
      dsimp only
      lia
  | after =>
      have hi := hlt (by rw [hstmt]; nofun)
      dsimp only
      lia

theorem left_lt_of_thr1 (pc : Thr1Pc) (hpc : t.thr1 = pc) (hlt : pc.left < s.thr1.left)
    (h2 : t.thr2 = s.thr2) (hmain : t.main = s.main) : left t < left s := by
  unfold left
  rw [hpc, h2, hmain]
  lia

theorem left_lt_of_thr2 (pc : Thr2Pc) (hpc : t.thr2 = pc) (hlt : pc.left < s.thr2.left)
    (h1 : t.thr1 = s.thr1) (hmain : t.main = s.main) : left t < left s := by
  unfold left
  rw [hpc, h1, hmain]
  lia

theorem left_lt_of_main (pc : MainPc) (hpc : t.main = pc) (hlt : pc.left < s.main.left)
    (h1 : t.thr1.left ≤ s.thr1.left) (h2 : t.thr2.left ≤ s.thr2.left) : left t < left s := by
  unfold left
  rw [hpc]
  lia

theorem Inv.left_lt1 (h : Inv s) (hstep : thr_rtn1 s = some t) : left t < left s := by
  have hwithin := h.within1
  unfold thr_rtn1 at hstep
  split at hstep
  · next l hpc =>
      rw [hpc] at hwithin
      split at hstep
      · cases hstep
        refine left_lt_of_thr1 _ rfl ?_ rfl rfl
        rw [hpc]
        exact Nat.lt_of_lt_of_le (Nat.lt_succ_self 12) (Nat.le_add_left 13 _)
      · next hl =>
          cases hstep
          refine left_lt_of_thr1 _ rfl ?_ rfl rfl
          rw [hpc]
          exact Nat.add_lt_add_right (Loop.Within.left_next hwithin hl) 13
  · next hpc =>
      split at hstep
      · cases hstep
        exact left_lt_of_thr1 (Thr1Pc.locked (Loop.start 10)) rfl (by rw [hpc]; decide) rfl rfl
      · cases hstep
  · next l hpc =>
      rw [hpc] at hwithin
      split at hstep
      · cases hstep
        refine left_lt_of_thr1 _ rfl ?_ rfl rfl
        rw [hpc]
        exact Nat.lt_of_lt_of_le (Nat.lt_succ_self 1) (Nat.le_add_left 2 _)
      · next hl =>
          cases hstep
          refine left_lt_of_thr1 _ rfl ?_ rfl rfl
          rw [hpc]
          exact Nat.add_lt_add_right (Loop.Within.left_next hwithin hl) 2
  · next hpc =>
      cases hstep
      exact left_lt_of_thr1 Thr1Pc.exited rfl (by rw [hpc]; decide) rfl rfl
  · cases hstep

theorem Inv.left_lt2 (h : Inv s) (hstep : thr_rtn2 s = some t) : left t < left s := by
  have hwithin := h.within2
  unfold thr_rtn2 at hstep
  split at hstep
  · next hpc =>
      split at hstep
      · cases hstep
        exact left_lt_of_thr2 (Thr2Pc.locked (Loop.start 20)) rfl (by rw [hpc]; decide) rfl rfl
      · cases hstep
  · next l hpc =>
      rw [hpc] at hwithin
      split at hstep
      · cases hstep
        refine left_lt_of_thr2 _ rfl ?_ rfl rfl
        rw [hpc]
        exact Nat.lt_of_lt_of_le (Nat.lt_succ_self 1) (Nat.le_add_left 2 _)
      · next hl =>
          cases hstep
          refine left_lt_of_thr2 _ rfl ?_ rfl rfl
          rw [hpc]
          exact Nat.add_lt_add_right (Loop.Within.left_next hwithin hl) 2
  · next hpc =>
      cases hstep
      exact left_lt_of_thr2 Thr2Pc.exited rfl (by rw [hpc]; decide) rfl rfl
  · cases hstep

theorem Inv.left_lt_main {ok : Bool} (h : Inv s) (hstep : Mutexes.main s ok = some t) :
    left t < left s := by
  have hjoined := h.joined
  unfold Joined at hjoined
  have hmoved : forall {pc : MainPc}, pc.left < s.main.left ->
      left { s with main := pc } < left s :=
    fun {pc} hlt => left_lt_of_main pc rfl hlt (Nat.le_refl _) (Nat.le_refl _)
  unfold Mutexes.main at hstep
  split at hstep
  · next hpc =>
      cases hstep
      exact hmoved (by rw [hpc]; decide)
  · next hpc =>
      cases hstep
      exact hmoved (by rw [hpc]; decide)
  · next hpc =>
      cases hstep
      exact hmoved (by rw [hpc]; decide)
  · next hpc =>
      cases hstep
      exact hmoved (by rw [hpc]; decide)
  · next hpc =>
      cases hstep
      rw [hpc] at hjoined
      refine left_lt_of_main MainPc.create2 rfl (by rw [hpc]; decide) ?_ (Nat.le_refl _)
      rw [hjoined.1]
      exact Nat.le_succ 22
  · next hpc =>
      cases hstep
      exact hmoved (by rw [hpc]; decide)
  · next hpc =>
      cases hstep
      rw [hpc] at hjoined
      refine left_lt_of_main MainPc.join1 rfl (by rw [hpc]; decide) (Nat.le_refl _) ?_
      rw [hjoined.2]
      exact Nat.le_succ 18
  · next hpc =>
      cases hstep
      exact hmoved (by rw [hpc]; decide)
  · next hpc =>
      split at hstep
      · cases hstep
        exact hmoved (by rw [hpc]; decide)
      · cases hstep
  · next hpc =>
      split at hstep
      · cases hstep
        exact hmoved (by rw [hpc]; decide)
      · cases hstep
  · next hpc =>
      cases hstep
      exact hmoved (by rw [hpc]; decide)
  · cases hstep

theorem Inv.left_lt {l : Label} (h : Inv s) (hstep : step s l = some t) : left t < left s := by
  unfold step at hstep
  split at hstep
  · cases hstep
  · cases l with
    | thr1 => exact h.left_lt1 hstep
    | thr2 => exact h.left_lt2 hstep
    | main ok => exact h.left_lt_main hstep

theorem thr_rtn1_goes (hbefore : s.thr1 ≠ Thr1Pc.before) (hexited : s.thr1 ≠ Thr1Pc.exited)
    (hlock : s.thr1 = Thr1Pc.lock -> s.lock = none) : exists t, thr_rtn1 s = some t := by
  unfold thr_rtn1
  cases hpc : s.thr1 with
  | before => exact absurd hpc hbefore
  | exited => exact absurd hpc hexited
  | free l =>
      dsimp only
      split
      · exact ⟨_, rfl⟩
      · exact ⟨_, rfl⟩
  | lock =>
      dsimp only
      rw [if_pos (hlock hpc)]
      exact ⟨_, rfl⟩
  | locked l =>
      dsimp only
      split
      · exact ⟨_, rfl⟩
      · exact ⟨_, rfl⟩
  | unlock => exact ⟨_, rfl⟩

theorem thr_rtn2_goes (hbefore : s.thr2 ≠ Thr2Pc.before) (hexited : s.thr2 ≠ Thr2Pc.exited)
    (hlock : s.thr2 = Thr2Pc.lock -> s.lock = none) : exists t, thr_rtn2 s = some t := by
  unfold thr_rtn2
  cases hpc : s.thr2 with
  | before => exact absurd hpc hbefore
  | exited => exact absurd hpc hexited
  | lock =>
      dsimp only
      rw [if_pos (hlock hpc)]
      exact ⟨_, rfl⟩
  | locked l =>
      dsimp only
      split
      · exact ⟨_, rfl⟩
      · exact ⟨_, rfl⟩
  | unlock => exact ⟨_, rfl⟩

theorem Inv.holder_goes {u : Thread} (h : Inv s) (hlock : s.lock = some u) :
    (exists t, thr_rtn1 s = some t) ∨ exists t, thr_rtn2 s = some t := by
  have hholds := (h.owned u).mpr hlock
  cases u with
  | thr1 =>
      left
      have hholds1 : s.thr1.holds = true := hholds
      apply thr_rtn1_goes
      · intro hpc
        rw [hpc] at hholds1
        cases hholds1
      · intro hpc
        rw [hpc] at hholds1
        cases hholds1
      · intro hpc
        rw [hpc] at hholds1
        cases hholds1
  | thr2 =>
      right
      have hholds2 : s.thr2.holds = true := hholds
      apply thr_rtn2_goes
      · intro hpc
        rw [hpc] at hholds2
        cases hholds2
      · intro hpc
        rw [hpc] at hholds2
        cases hholds2
      · intro hpc
        rw [hpc] at hholds2
        cases hholds2

theorem Inv.threads_go (h : Inv s)
    (hne : (s.thr1 ≠ Thr1Pc.before ∧ s.thr1 ≠ Thr1Pc.exited) ∨
      (s.thr2 ≠ Thr2Pc.before ∧ s.thr2 ≠ Thr2Pc.exited)) :
    (exists t, thr_rtn1 s = some t) ∨ exists t, thr_rtn2 s = some t := by
  cases hlock : s.lock with
  | some u => exact h.holder_goes hlock
  | none =>
      rcases hne with ⟨hbefore, hexited⟩ | ⟨hbefore, hexited⟩
      · exact Or.inl (thr_rtn1_goes hbefore hexited (fun _ => hlock))
      · exact Or.inr (thr_rtn2_goes hbefore hexited (fun _ => hlock))

theorem Inv.goes (h : Inv s) (hover : ¬ s.main.over = true) :
    exists l t, step s l = some t := by
  have hjoined := h.joined
  unfold Joined at hjoined
  have hthreads : ((exists t, thr_rtn1 s = some t) ∨ exists t, thr_rtn2 s = some t) ->
      exists l t, step s l = some t := by
    rintro (⟨t, ht⟩ | ⟨t, ht⟩)
    · refine ⟨Label.thr1, t, ?_⟩
      unfold step
      rw [if_neg hover]
      exact ht
    · refine ⟨Label.thr2, t, ?_⟩
      unfold step
      rw [if_neg hover]
      exact ht
  have hmain : (exists t, Mutexes.main s true = some t) -> exists l t, step s l = some t := by
    rintro ⟨t, ht⟩
    refine ⟨Label.main true, t, ?_⟩
    unfold step
    rw [if_neg hover]
    exact ht
  unfold Mutexes.main at hmain
  cases hpc : s.main with
  | join1 =>
      rw [hpc] at hjoined hmain
      by_cases hexited : s.thr1 = Thr1Pc.exited
      · exact hmain ⟨_, if_pos hexited⟩
      · exact hthreads (h.threads_go (Or.inl ⟨hjoined.1, hexited⟩))
  | join2 =>
      rw [hpc] at hjoined hmain
      by_cases hexited : s.thr2 = Thr2Pc.exited
      · exact hmain ⟨_, if_pos hexited⟩
      · exact hthreads (h.threads_go (Or.inr ⟨hjoined.2, hexited⟩))
  | returned status =>
      rw [hpc] at hover
      exact absurd rfl hover
  | _ =>
      rw [hpc] at hmain
      exact hmain ⟨_, rfl⟩

end

def disturbed : List Label :=
  [Label.main true, Label.main true, Label.main true, Label.main true, Label.thr2, Label.thr2,
    Label.thr1, Label.thr2]

theorem disturbed_reachable {t : State} (hrun : machine.run start disturbed = some t) :
    machine.Reachable t :=
  Machine.reachable_of_run (Machine.ReachableUnder.init rfl) hrun

/-- The threads never wait for each other for good: a run has at most 49 steps, and at its
end `main` has returned, having destroyed the mutex only when nobody held it. -/
theorem threads_end {ls : List Label} {s : State} (hrun : machine.run start ls = some s) :
    ls.length ≤ 49 ∧
      (machine.Halted s -> exists status, s.main = MainPc.returned status) ∧
      (s.main = MainPc.destroy -> s.lock = none) := by
  have hinv := reachable_inv (Machine.reachable_of_run (Machine.ReachableUnder.init rfl) hrun)
  refine ⟨?_, ?_, ?_⟩
  · have hle := Machine.run_length_le (M := machine) (I := Inv)
      (fun _ _ _ hs hstep => ⟨hs.after hstep, hs.left_lt hstep⟩) start_inv hrun
    exact Nat.le_trans (Nat.le_add_right _ _) hle
  · intro hhalted
    cases hpc : s.main with
    | returned status => exact ⟨status, rfl⟩
    | _ =>
        rcases hinv.goes (by rw [hpc]; nofun) with ⟨l, t, hstep⟩
        rw [show step s l = none from hhalted l] at hstep
        cases hstep
  · intro hpc
    have hjoined := hinv.joined
    unfold Joined at hjoined
    rw [hpc] at hjoined
    cases hlock : s.lock with
    | none => rfl
    | some u =>
        have hholds := (hinv.owned u).mpr hlock
        cases u with
        | thr1 =>
            have hholds1 : s.thr1.holds = true := hholds
            rw [hjoined.1] at hholds1
            cases hholds1
        | thr2 =>
            have hholds2 : s.thr2.holds = true := hholds
            rw [hjoined.2] at hholds2
            cases hholds2

theorem threads_end_disturbed : disturbed.length ≤ 49 ∧
    exists s, machine.run start disturbed = some s ∧ ¬ machine.Halted s := by
  have hrun : (machine.run start disturbed).isSome = true := rfl
  rcases Option.isSome_iff_exists.mp hrun with ⟨s, hs⟩
  refine ⟨(threads_end hs).1, s, hs, ?_⟩
  intro hhalted
  rcases (threads_end hs).2.1 hhalted with ⟨status, hmain⟩
  cases hs
  cases hmain

end Mutexes
end Apue
