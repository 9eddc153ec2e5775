import Mathlib.Data.List.Basic
import Apue.Foundation.Fgets
import Apue.Foundation.Stdio

/-!
# Two processes that write character by character

The program forks, and parent and child write a line each with `stdout` unbuffered, so
that each character is written at once.  In which order is up to the kernel.
-/

namespace Apue
namespace Race

open Foundation

inductive Owner where
  | parent
  | child
  deriving Repr, DecidableEq

theorem mem_owners (o : Owner) : o ∈ [Owner.parent, Owner.child] := by
  cases o with
  | _ => decide

def chars (cs : List Char) : List Byte :=
  cs.map Char.toUInt8

/-- "output from parent\n" and "output from child\n" -/
def output : Owner -> List Byte
  | Owner.parent =>
      chars ['o', 'u', 't', 'p', 'u', 't', ' ', 'f', 'r', 'o', 'm', ' ', 'p', 'a', 'r', 'e',
        'n', 't'] ++ [newline]
  | Owner.child =>
      chars ['o', 'u', 't', 'p', 'u', 't', ' ', 'f', 'r', 'o', 'm', ' ', 'c', 'h', 'i', 'l',
        'd'] ++ [newline]

/-- "fork() error\n" -/
def forkError : List Byte :=
  chars ['f', 'o', 'r', 'k', '(', ')', ' ', 'e', 'r', 'r', 'o', 'r'] ++ [newline]

inductive Pc where
  | fork
  | forked
  | failed
  deriving Repr, DecidableEq

structure State where
  pc : Pc
  io : Writers Owner Byte

inductive Label where
  | fork (ok : Bool)
  | putc (o : Owner)
  deriving Repr, DecidableEq

/-- What `setbuf(stdout, NULL)` makes of a stream. -/
def unbuffered (_ : List Byte) : Bool :=
  true

def characatime (str : List Byte) : Writer Byte where
  todo := str
  buf := []

def forked (out : List Byte) : Writers Owner Byte where
  out := out
  writers o := some (characatime (output o))

def main (s : State) (ok : Bool) : Option State :=
  match s.pc with
  | Pc.fork =>
      if ok then
        some { pc := Pc.forked, io := forked s.io.out }
      else
        some { pc := Pc.failed, io := { s.io with out := s.io.out ++ forkError } }
  | _ => none

def step (s : State) : Label -> Option State
  | Label.fork ok => main s ok
  | Label.putc o =>
      match s.pc with
      | Pc.forked => (s.io.step unbuffered o).map (fun io => { s with io })
      | _ => none

def start : State where
  pc := Pc.fork
  io := { out := [], writers := fun _ => none }

def machine : Machine State Label where
  init s := s = start
  step := step

/-!
# The outputs
-/

def Inv (s : State) : Prop :=
  match s.pc with
  | Pc.fork => s.io.out = []
  | Pc.forked => exists whole, Wrote unbuffered (forked []) s.io whole
  | Pc.failed => True

theorem Inv.after {s t : State} {l : Label} (h : Inv s) (hstep : step s l = some t) :
    Inv t := by
  unfold Inv at h
  cases l with
  | fork ok =>
      have hmain : main s ok = some t := hstep
      unfold main at hmain
      cases hpc : s.pc with
      | fork =>
          rw [hpc] at h hmain
          cases ok with
          | false =>
              cases hmain
              trivial
          | true =>
              cases hmain
              refine ⟨[], ?_⟩
              show Wrote unbuffered (forked []) (forked s.io.out) []
              rw [show s.io.out = [] from h]
              exact Wrote.start _
      | _ =>
          rw [hpc] at hmain
          cases hmain
  | putc o =>
      unfold step at hstep
      cases hpc : s.pc with
      | forked =>
          rw [hpc] at h hstep
          rcases Option.map_eq_some_iff.mp hstep with ⟨io, hio, heq⟩
          cases heq
          rcases h with ⟨xs, hxs⟩
          rcases wrote_of_step hio with ⟨ys, hys⟩
          exact ⟨xs ++ ys, hxs.trans hys⟩
      | _ =>
          rw [hpc] at hstep
          cases hstep

theorem exists_letters {whole : List (Owner × List Byte)}
    (h : forall x, x ∈ whole -> exists b, x.2 = [b]) :
    exists letters : List (Owner × Byte), whole = letters.map (fun x => (x.1, [x.2])) := by
  induction whole with
  | nil => exact ⟨[], rfl⟩
  | cons x rest ih =>
      rcases h x List.mem_cons_self with ⟨b, hb⟩
      rcases ih (fun y hy => h y (List.mem_cons_of_mem x hy)) with ⟨letters, hletters⟩
      refine ⟨(x.1, b) :: letters, ?_⟩
      rw [List.map_cons, ← hletters, ← hb]

theorem partOf_letters (o : Owner) (letters : List (Owner × Byte)) :
    partOf o (letters.map (fun x => (x.1, [x.2]))) =
      (partOf o letters).map (fun b => [b]) := by
  induction letters with
  | nil => rfl
  | cons x rest ih =>
      rw [List.map_cons, partOf_cons, partOf_cons, ih]
      split
      · rfl
      · rfl

theorem flatten_letters (letters : List (Owner × Byte)) :
    ((letters.map (fun x => (x.1, [x.2]))).map Prod.snd).flatten = letters.map Prod.snd := by
  induction letters with
  | nil => rfl
  | cons x rest ih =>
      rw [List.map_cons, List.map_cons, List.flatten_cons, ih]
      rfl

theorem portions_forked (o : Owner) (out : List Byte) :
    portionsOf unbuffered ((forked out).writers o) = (output o).map (fun b => [b]) :=
  portions_of_always unbuffered (fun _ => rfl)

theorem run_forked (io : Writers Owner Byte) (os : List Owner) :
    machine.run { pc := Pc.forked, io } (os.map Label.putc) =
      ((Writers.machine unbuffered io).run io os).map (fun io => { pc := Pc.forked, io }) :=
  Machine.run_map (M := Writers.machine unbuffered io) (f := State.mk Pc.forked)
    (fun _ _ => rfl) io os

/-- Whatever is printed is an interleaving of the two lines, and each of the
interleavings can be printed. -/
theorem outputs_interleaved (out : List Byte) :
    (exists ls t, machine.run start ls = some t ∧ t.pc = Pc.forked ∧ t.io.Ended ∧
        t.io.out = out) ↔
      exists letters, Interleaves output letters ∧ out = letters.map Prod.snd := by
  constructor
  · rintro ⟨ls, t, hrun, hpc, hended, hout⟩
    have hinv : Inv t := by
      refine Machine.invariant (M := machine) ?_ (fun _ _ _ hs hstep => hs.after hstep)
        (Machine.reachable_of_run (Machine.ReachableUnder.init rfl) hrun)
      intro u hu
      rw [show u = start from hu]
      rfl
    unfold Inv at hinv
    rw [hpc] at hinv
    rcases hinv with ⟨whole, hwhole⟩
    have hinterleaves := hwhole.interleaves hended
    have hsingle : forall x, x ∈ whole -> exists b, x.2 = [b] := by
      rintro ⟨o, portion⟩ hx
      have hmem : portion ∈ portionsOf unbuffered ((forked []).writers o) := hinterleaves.mem hx
      rw [portions_forked] at hmem
      rcases List.mem_map.mp hmem with ⟨b, _, heq⟩
      exact ⟨b, heq.symm⟩
    rcases exists_letters hsingle with ⟨letters, hletters⟩
    refine ⟨letters, ?_, ?_⟩
    · intro o
      have hpart : partOf o whole = portionsOf unbuffered ((forked []).writers o) :=
        hinterleaves o
      rw [hletters, partOf_letters, portions_forked] at hpart
      exact List.map_injective_iff.mpr (fun _ _ heq => List.singleton_inj.mp heq) hpart
    · rw [← hout, hwhole.out, hletters, flatten_letters]
      rfl
  · rintro ⟨letters, hletters, hout⟩
    have hinterleaves : Interleaves (fun o => portionsOf unbuffered ((forked []).writers o))
        (letters.map (fun x => (x.1, [x.2]))) := by
      intro o
      show _ = portionsOf unbuffered ((forked []).writers o)
      rw [partOf_letters, portions_forked, hletters o]
    rcases (outputs_iff mem_owners (forked []) out).mpr
      ⟨_, hinterleaves, by rw [flatten_letters, hout]; rfl⟩ with ⟨os, io, hrun, hended, heq⟩
    refine ⟨Label.fork true :: os.map Label.putc, { pc := Pc.forked, io }, ?_, rfl, hended, heq⟩
    show machine.run { pc := Pc.forked, io := forked [] } _ = _
    rw [run_forked, hrun]
    rfl

end Race
end Apue
