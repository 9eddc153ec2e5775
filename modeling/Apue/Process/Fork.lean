import Apue.Foundation.Decimal
import Apue.Process.Race

/-!
# A buffer that is copied

A process prints a line and forks.  Whether the line is still in the buffer then, and
so is written by both processes, depends on where the output goes.
-/

namespace Apue
namespace Fork

open Foundation
open Race (Owner chars mem_owners)

abbrev Pid := Nat

/-- "a write to stdout\n" -/
def buf : List Byte :=
  chars ['a', ' ', 'w', 'r', 'i', 't', 'e', ' ', 't', 'o', ' ', 's', 't', 'd', 'o', 'u', 't'] ++
    [newline]

/-- "before fork\n", without its newline -/
def before : List Byte :=
  chars ['b', 'e', 'f', 'o', 'r', 'e', ' ', 'f', 'o', 'r', 'k']

/-- "fork error\n" -/
def forkError : List Byte :=
  chars ['f', 'o', 'r', 'k', ' ', 'e', 'r', 'r', 'o', 'r'] ++ [newline]

/-- "write %s to stdout error\n" -/
def writeError : List Byte :=
  chars ['w', 'r', 'i', 't', 'e', ' '] ++ buf ++
    chars [' ', 't', 'o', ' ', 's', 't', 'd', 'o', 'u', 't', ' ', 'e', 'r', 'r', 'o', 'r'] ++
      [newline]

def globval : Nat := 6

def autoval : Nat := 88

/-- "pid = %d, global = %d, autoval = %d\n", without its newline -/
def values (pid globval autoval : Nat) : List Byte :=
  chars ['p', 'i', 'd', ' ', '=', ' '] ++ decimal pid ++
    chars [',', ' ', 'g', 'l', 'o', 'b', 'a', 'l', ' ', '=', ' '] ++ decimal globval ++
      chars [',', ' ', 'a', 'u', 't', 'o', 'v', 'a', 'l', ' ', '=', ' '] ++ decimal autoval

inductive Pc where
  | write
  | before (n : Option Nat)
  | forked (n : Option Nat) (pid : Option Pid)
  deriving Repr, DecidableEq

structure State where
  pc : Pc
  io : Writers Owner Byte

/-- `none` stands for -1. -/
inductive Label where
  | write (n : Option Nat)
  | putc (o : Owner)
  | fork (pid : Option Pid)
  deriving Repr, DecidableEq

def printed (n : Option Nat) : List Byte :=
  (if n = some buf.length then [] else writeError) ++ (before ++ [newline])

def Returns (n : Option Nat) : Prop :=
  n.getD 0 ≤ buf.length

instance (n : Option Nat) : Decidable (Returns n) :=
  inferInstanceAs (Decidable (_ ≤ _))

def write (s : State) (n : Option Nat) : Option State :=
  match s.pc with
  | Pc.write =>
      if Returns n then
        some
          { pc := Pc.before n
            io :=
              { out := s.io.out ++ buf.take (n.getD 0)
                writers := Function.update s.io.writers Owner.parent
                  (some { todo := printed n, buf := [] }) } }
      else
        none
  | _ => none

/-- The child has a copy of the buffer, and of the variables, which it increments. -/
def writers (p : Pid) (buf : List Byte) : Option Pid -> Owner -> Option (Writer Byte)
  | none, Owner.parent => some { todo := forkError, buf }
  | none, Owner.child => none
  | some _, Owner.parent => some { todo := values p globval autoval ++ [newline], buf }
  | some c, Owner.child =>
      some { todo := values c (globval + 1) (autoval + 1) ++ [newline], buf }

def fork (p : Pid) (s : State) (pid : Option Pid) : Option State :=
  match s.pc, s.io.writers Owner.parent with
  | Pc.before n, some { todo := [], buf } =>
      some { pc := Pc.forked n pid, io := { s.io with writers := writers p buf pid } }
  | _, _ => none

/-- A process ends, and flushes its buffer, only after the fork. -/
def putc (flushes : List Byte -> Bool) (s : State) (o : Owner) : Option State :=
  match s.pc, s.io.writers o with
  | Pc.before _, some { todo := [], .. } => none
  | Pc.write, _ => none
  | _, _ => (s.io.step flushes o).map (fun io => { s with io })

def step (flushes : List Byte -> Bool) (p : Pid) (s : State) : Label -> Option State
  | Label.write n => write s n
  | Label.putc o => putc flushes s o
  | Label.fork pid => fork p s pid

def start : State where
  pc := Pc.write
  io := { out := [], writers := fun _ => none }

def machine (flushes : List Byte -> Bool) (p : Pid) : Machine State Label where
  init s := s = start
  step := step flushes p

/-- `out` is a possible output when `write` and `fork` return `n` and `pid`. -/
def Output (flushes : List Byte -> Bool) (p : Pid) (n : Option Nat) (pid : Option Pid)
    (out : List Byte) : Prop :=
  exists ls t, (machine flushes p).run start ls = some t ∧ t.pc = Pc.forked n pid ∧
    t.io.Ended ∧ t.io.out = out

/-!
# What both processes have of the buffer
-/

def afterFork (flushes : List Byte -> Bool) (p : Pid) (n : Option Nat) (pid : Option Pid) :
    Writers Owner Byte where
  out := buf.take (n.getD 0) ++ (putAll flushes [] (printed n)).1
  writers := writers p (putAll flushes [] (printed n)).2 pid

structure Alone (flushes : List Byte -> Bool) (n : Option Nat) (io : Writers Owner Byte) :
    Prop where
  returns : Returns n
  alone : exists todo left, io.writers =
      Function.update (fun _ => none) Owner.parent (some { todo, buf := left }) ∧
    io.out ++ (putAll flushes left todo).1 =
      buf.take (n.getD 0) ++ (putAll flushes [] (printed n)).1 ∧
    (putAll flushes left todo).2 = (putAll flushes [] (printed n)).2

def Inv (flushes : List Byte -> Bool) (p : Pid) (s : State) : Prop :=
  match s.pc with
  | Pc.write => s = start
  | Pc.before n => Alone flushes n s.io
  | Pc.forked n pid =>
      Returns n ∧ exists whole, Wrote flushes (afterFork flushes p n pid) s.io whole

section

variable {flushes : List Byte -> Bool} {p : Pid} {s t : State} {n : Option Nat}
  {pid : Option Pid}

theorem Inv.write (h : Inv flushes p s) (hstep : write s n = some t) : Inv flushes p t := by
  unfold Inv at h
  unfold Fork.write at hstep
  split at hstep
  · next hpc =>
      rw [hpc] at h
      split at hstep
      · next hn =>
          cases hstep
          refine ⟨hn, printed n, [], ?_, ?_, rfl⟩
          · rw [show s = start from h]
            rfl
          · rw [show s = start from h]
            rfl
      · cases hstep
  · cases hstep

theorem Alone.put {io io' : Writers Owner Byte} {o : Owner} (h : Alone flushes n io)
    (hne : forall left, io.writers o ≠ some { todo := [], buf := left })
    (hstep : io.step flushes o = some io') : Alone flushes n io' := by
  rcases h.alone with ⟨todo, left, hwriters, hout, hleft⟩
  rw [hwriters] at hne
  cases o with
  | child =>
      unfold Writers.step at hstep
      rw [hwriters] at hstep
      cases hstep
  | parent =>
      rw [Function.update_self] at hne
      cases todo with
      | nil => exact absurd rfl (hne left)
      | cons x rest =>
          rcases put_cons flushes x rest left with ⟨written, later, hput, hfirst, hsecond⟩
          rw [Writers.step_of_some flushes (by rw [hwriters, Function.update_self]), hput] at hstep
          cases hstep
          refine ⟨h.returns, rest, later, ?_, ?_, hsecond.trans hleft⟩
          · show Function.update io.writers _ _ = _
            rw [hwriters, Function.update_idem]
          · rw [List.append_assoc, hfirst]
            exact hout

theorem Inv.putc {o : Owner} (h : Inv flushes p s) (hstep : putc flushes s o = some t) :
    Inv flushes p t := by
  unfold Inv at h
  unfold Fork.putc at hstep
  split at hstep
  · cases hstep
  · cases hstep
  · next hpc hnot =>
      rcases Option.map_eq_some_iff.mp hstep with ⟨io, hio, heq⟩
      cases heq
      unfold Inv
      cases hs : s.pc with
      | write => exact absurd hs hpc
      | before n =>
          rw [hs] at h
          refine Alone.put h ?_ hio
          intro left hw
          exact hnot n left hs hw
      | forked n pid =>
          rw [hs] at h
          rcases h with ⟨hn, xs, hxs⟩
          rcases wrote_of_step hio with ⟨ys, hys⟩
          exact ⟨hn, xs ++ ys, hxs.trans hys⟩

theorem Inv.fork (h : Inv flushes p s) (hstep : fork p s pid = some t) : Inv flushes p t := by
  unfold Inv at h
  unfold Fork.fork at hstep
  split at hstep
  · next n left hpc hw =>
      cases hstep
      rw [hpc] at h
      rcases h.alone with ⟨todo, left', hwriters, hout, hleft⟩
      rw [hwriters, Function.update_self] at hw
      cases hw
      refine ⟨h.returns, [], ?_⟩
      have hio : afterFork flushes p n pid =
          { s.io with writers := writers p left pid } := by
        unfold afterFork
        rw [← hout, ← hleft]
        show Writers.mk (s.io.out ++ []) _ = _
        rw [List.append_nil]
        rfl
      rw [hio]
      exact Wrote.start _
  · cases hstep

theorem Inv.after {l : Label} (h : Inv flushes p s) (hstep : step flushes p s l = some t) :
    Inv flushes p t := by
  cases l with
  | write n => exact h.write hstep
  | putc o => exact h.putc hstep
  | fork pid => exact h.fork hstep

def alone (out todo left : List Byte) : Writers Owner Byte where
  out := out
  writers := Function.update (fun _ => none) Owner.parent (some { todo, buf := left })

theorem run_printed (flushes : List Byte -> Bool) (p : Pid) (n : Option Nat)
    (out todo left : List Byte) :
    (machine flushes p).run { pc := Pc.before n, io := alone out todo left }
        (List.replicate todo.length (Label.putc Owner.parent)) =
      some
        { pc := Pc.before n
          io := alone (out ++ (putAll flushes left todo).1) []
            (putAll flushes left todo).2 } := by
  induction todo generalizing out left with
  | nil =>
      show some _ = some (State.mk (Pc.before n) (alone (out ++ []) [] left))
      rw [List.append_nil]
  | cons x rest ih =>
      rcases put_cons flushes x rest left with ⟨written, later, hput, hfirst, hsecond⟩
      have hio : (alone out (x :: rest) left).step flushes Owner.parent =
          some (alone (out ++ written) rest later) := by
        have hw : (alone out (x :: rest) left).writers Owner.parent =
            some { todo := x :: rest, buf := left } := rfl
        rw [Writers.step_of_some flushes hw, hput]
        show some (Writers.mk _ (Function.update (Function.update _ _ _) _ _)) = _
        rw [Function.update_idem]
        rfl
      have hstep : (machine flushes p).step
          { pc := Pc.before n, io := alone out (x :: rest) left } (Label.putc Owner.parent) =
          some { pc := Pc.before n, io := alone (out ++ written) rest later } := by
        show ((alone out (x :: rest) left).step flushes Owner.parent).map _ = _
        rw [hio]
        rfl
      rw [List.length_cons, List.replicate_succ, Machine.run_of_step hstep, ih,
        List.append_assoc, hfirst, hsecond]

theorem run_forked (io : Writers Owner Byte) (os : List Owner) :
    (machine flushes p).run { pc := Pc.forked n pid, io } (os.map Label.putc) =
      ((Writers.machine flushes io).run io os).map (State.mk (Pc.forked n pid)) :=
  Machine.run_map (M := Writers.machine flushes io) (f := State.mk (Pc.forked n pid))
    (fun _ _ => rfl) io os

theorem run_until_fork (flushes : List Byte -> Bool) (p : Pid) (pid : Option Pid)
    (hn : Returns n) :
    exists ls, (machine flushes p).run start ls =
      some { pc := Pc.forked n pid, io := afterFork flushes p n pid } := by
  have hwrite : (machine flushes p).step start (Label.write n) =
      some { pc := Pc.before n, io := alone (buf.take (n.getD 0)) (printed n) [] } := by
    show (if Returns n then _ else none) = _
    rw [if_pos hn]
    rfl
  refine ⟨Label.write n :: (List.replicate (printed n).length (Label.putc Owner.parent) ++
    [Label.fork pid]), ?_⟩
  rw [Machine.run_of_step hwrite, Machine.run_append (run_printed flushes p n _ _ _)]
  rfl

/-- With every policy of the buffer, the outputs are the interleavings of what the two
processes write after the fork. -/
theorem output_iff (hn : Returns n) (out : List Byte) :
    Output flushes p n pid out ↔
      exists whole,
        Interleaves (fun o => portionsOf flushes ((afterFork flushes p n pid).writers o)) whole ∧
          out = (afterFork flushes p n pid).out ++ (whole.map Prod.snd).flatten := by
  constructor
  · rintro ⟨ls, t, hrun, hpc, hended, hout⟩
    have hinv : Inv flushes p t := by
      refine Machine.invariant (M := machine flushes p) ?_ (fun _ _ _ hs hst => hs.after hst)
        (Machine.reachable_of_run (Machine.ReachableUnder.init rfl) hrun)
      intro u hu
      rw [show u = start from hu]
      rfl
    unfold Inv at hinv
    rw [hpc] at hinv
    rcases hinv with ⟨_, whole, hwhole⟩
    exact ⟨whole, hwhole.interleaves hended, by rw [← hout, hwhole.out]⟩
  · intro h
    rcases (outputs_iff mem_owners (afterFork flushes p n pid) out).mpr h with
      ⟨os, io, hrun, hended, hout⟩
    rcases run_until_fork flushes p pid hn with ⟨ls, hls⟩
    refine ⟨ls ++ os.map Label.putc, { pc := Pc.forked n pid, io }, ?_, rfl, hended, hout⟩
    rw [Machine.run_append hls, run_forked, hrun]
    rfl

theorem interleaves_two {x y : List Byte} {parts : Owner -> List (List Byte)}
    (hparent : parts Owner.parent = [x]) (hchild : parts Owner.child = [y])
    (whole : List (Owner × List Byte)) :
    Interleaves parts whole ↔
      whole = [(Owner.parent, x), (Owner.child, y)] ∨
        whole = [(Owner.child, y), (Owner.parent, x)] := by
  constructor
  · intro h
    have hp := (h Owner.parent).trans hparent
    have hc := (h Owner.child).trans hchild
    cases whole with
    | nil => cases hp
    | cons first rest =>
        rcases first with ⟨o, a⟩
        cases o with
        | parent =>
            have hp' : a :: partOf Owner.parent rest = [x] := hp
            have hc' : partOf Owner.child rest = [y] := hc
            cases rest with
            | nil => cases hc'
            | cons second rest =>
                rcases second with ⟨o, b⟩
                cases o with
                | parent => cases hp'
                | child =>
                    have hp' : a :: partOf Owner.parent rest = [x] := hp'
                    have hc' : b :: partOf Owner.child rest = [y] := hc'
                    cases rest with
                    | nil =>
                        cases hp'
                        cases hc'
                        exact Or.inl rfl
                    | cons third rest =>
                        rcases third with ⟨o, c⟩
                        cases o with
                        | parent => cases hp'
                        | child => cases hc'
        | child =>
            have hp' : partOf Owner.parent rest = [x] := hp
            have hc' : a :: partOf Owner.child rest = [y] := hc
            cases rest with
            | nil => cases hp'
            | cons second rest =>
                rcases second with ⟨o, b⟩
                cases o with
                | child => cases hc'
                | parent =>
                    have hp' : b :: partOf Owner.parent rest = [x] := hp'
                    have hc' : a :: partOf Owner.child rest = [y] := hc'
                    cases rest with
                    | nil =>
                        cases hp'
                        cases hc'
                        exact Or.inr rfl
                    | cons third rest =>
                        rcases third with ⟨o, c⟩
                        cases o with
                        | parent => cases hp'
                        | child => cases hc'
  · rintro (heq | heq)
    · rw [heq]
      intro o
      cases o with
      | parent => exact hparent.symm
      | child => exact hchild.symm
    · rw [heq]
      intro o
      cases o with
      | parent => exact hparent.symm
      | child => exact hchild.symm

end

/-!
# Terminals and files
-/

theorem newline_not_mem_decimal (n : Nat) : newline ∉ decimal n := by
  intro h
  rcases List.mem_map.mp h with ⟨c, hc, heq⟩
  have hdigit := Nat.isDigit_of_mem_toDigits (by decide) (by decide) hc
  have hval := toNat_toUInt8_of_isDigit hdigit
  rw [heq] at hval
  rw [← Char.ofNat_toNat c, ← hval] at hdigit
  revert hdigit
  decide

theorem newline_not_mem_values (pid g a : Nat) : newline ∉ values pid g a := by
  intro h
  simp only [values, List.mem_append] at h
  rcases h with ((((h | h) | h) | h) | h) | h
  · revert h
    decide
  · exact newline_not_mem_decimal pid h
  · revert h
    decide
  · exact newline_not_mem_decimal g h
  · revert h
    decide
  · exact newline_not_mem_decimal a h

def lineOf (p c : Pid) : Owner -> List Byte
  | Owner.parent => values p globval autoval ++ [newline]
  | Owner.child => values c (globval + 1) (autoval + 1) ++ [newline]

theorem output_two {flushes : List Byte -> Bool} {p c : Pid} {n : Option Nat}
    {text first left x y : List Byte} (hn : Returns n) (hprinted : printed n = text)
    (hput : putAll flushes [] text = (first, left))
    (hparent : portions flushes left (lineOf p c Owner.parent) = [x])
    (hchild : portions flushes left (lineOf p c Owner.child) = [y]) (out : List Byte) :
    Output flushes p n (some c) out ↔
      out = buf.take (n.getD 0) ++ first ++ x ++ y ∨
        out = buf.take (n.getD 0) ++ first ++ y ++ x := by
  have hafter : afterFork flushes p n (some c) =
      { out := buf.take (n.getD 0) ++ first, writers := writers p left (some c) } := by
    unfold afterFork
    rw [hprinted, hput]
  have htwo : forall a b : List Byte,
      buf.take (n.getD 0) ++ first ++ (a ++ (b ++ [])) =
        buf.take (n.getD 0) ++ first ++ a ++ b := by
    intro a b
    rw [List.append_nil, ← List.append_assoc _ a b]
  rw [output_iff hn, hafter]
  constructor
  · rintro ⟨whole, hwhole, hout⟩
    rcases (interleaves_two hparent hchild whole).mp hwhole with heq | heq
    · rw [heq] at hout
      exact Or.inl (hout.trans (htwo x y))
    · rw [heq] at hout
      exact Or.inr (hout.trans (htwo y x))
  · rintro (heq | heq)
    · exact ⟨_, (interleaves_two hparent hchild _).mpr (Or.inl rfl),
        heq.trans (htwo x y).symm⟩
    · exact ⟨_, (interleaves_two hparent hchild _).mpr (Or.inr rfl),
        heq.trans (htwo y x).symm⟩

/-- The line from before the fork is in the output of a terminal once, and in a file
twice; in both cases the two processes come one after the other, in any order. -/
theorem before_doubled {p c : Pid} {size : Nat} (out : List Byte)
    (hsize : forall o, (before ++ [newline] ++ lineOf p c o).length < size) :
    (Output (lineBuffered newline size) p (some buf.length) (some c) out ↔
        out = buf ++ (before ++ [newline]) ++ lineOf p c Owner.parent ++ lineOf p c Owner.child ∨
          out =
            buf ++ (before ++ [newline]) ++ lineOf p c Owner.child ++ lineOf p c Owner.parent) ∧
      (Output (fullyBuffered size) p (some buf.length) (some c) out ↔
        out = buf ++ (before ++ [newline] ++ lineOf p c Owner.parent) ++
            (before ++ [newline] ++ lineOf p c Owner.child) ∨
          out = buf ++ (before ++ [newline] ++ lineOf p c Owner.child) ++
            (before ++ [newline] ++ lineOf p c Owner.parent)) := by
  have hreturns : Returns (some buf.length) := Nat.le_refl _
  have hprinted : printed (some buf.length) = before ++ [newline] := rfl
  have htake : buf.take ((some buf.length).getD 0) = buf := List.take_length
  have hbefore : (before ++ [newline]).length < size := by
    have hlength := hsize Owner.parent
    rw [List.length_append] at hlength
    exact Nat.lt_of_le_of_lt (Nat.le_add_right _ _) hlength
  constructor
  · have hline : forall o, portions (lineBuffered newline size) [] (lineOf p c o) =
        [lineOf p c o] := by
      intro o
      have hlength := hsize o
      rw [List.length_append] at hlength
      cases o with
      | parent =>
          apply portions_line (newline_not_mem_values p globval autoval)
          have hle : (values p globval autoval).length ≤ (lineOf p c Owner.parent).length :=
            (List.sublist_append_left _ _).length_le
          exact Nat.lt_of_le_of_lt (Nat.le_trans hle (Nat.le_add_left _ _)) hlength
      | child =>
          apply portions_line (newline_not_mem_values c (globval + 1) (autoval + 1))
          have hle : (values c (globval + 1) (autoval + 1)).length ≤
              (lineOf p c Owner.child).length :=
            (List.sublist_append_left _ _).length_le
          exact Nat.lt_of_le_of_lt (Nat.le_trans hle (Nat.le_add_left _ _)) hlength
    have hput : putAll (lineBuffered newline size) [] (before ++ [newline]) =
        (before ++ [newline], []) := by
      apply putAll_line (by decide)
      rw [List.length_append] at hbefore
      exact Nat.lt_of_le_of_lt (Nat.le_add_right _ _) hbefore
    rw [output_two hreturns hprinted hput (hline Owner.parent) (hline Owner.child), htake]
  · have hfull : forall o, portions (fullyBuffered size) (before ++ [newline]) (lineOf p c o) =
        [before ++ [newline] ++ lineOf p c o] :=
      fun o => portions_full (hsize o) nofun
    rw [output_two hreturns hprinted (putAll_full hbefore) (hfull Owner.parent)
      (hfull Owner.child), htake, List.append_nil]

/-- Process 900 has the child 901, and its output goes to a file. -/
theorem before_doubled_file :
    Output (fullyBuffered 4096) 900 (some buf.length) (some 901)
      (buf ++ (before ++ [newline] ++ lineOf 900 901 Owner.child) ++
        (before ++ [newline] ++ lineOf 900 901 Owner.parent)) :=
  ((before_doubled _ (fun o => by cases o with | _ => decide)).2).mpr (Or.inr rfl)

end Fork
end Apue
