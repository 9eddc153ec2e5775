import Mathlib.Logic.Function.Basic
import Apue.Foundation.CString
import Apue.Foundation.Interleave
import Apue.Foundation.Transition

/-!
# Writers of one file

Any number of processes open the file `yu` and write a record three times.  The
two writers of `9-atomic` open it with `O_APPEND`; the second writer of
`8-sharing` does not.  Each `open` makes a file table entry with an offset of its
own, and one `write` is one step of the kernel.
-/

namespace Apue
namespace Atomic

open Foundation

abbrev Pid := Nat

structure OpenFile where
  append : Bool
  offset : Nat
  deriving Repr, DecidableEq

/-- The file after `data` is put at `pos`; a hole before it reads as zeros. -/
def putAt (content : List Byte) (pos : Nat) (data : List Byte) : List Byte :=
  content.take pos ++ List.replicate (pos - content.length) 0 ++ data ++
    content.drop (pos + data.length)

/-- With `O_APPEND` the offset is moved to the end of the file first. -/
def write (f : OpenFile) (content data : List Byte) : OpenFile × List Byte :=
  let pos := if f.append then content.length else f.offset
  ({ f with offset := pos + data.length }, putAt content pos data)

/-- What tells the programs apart: whether `O_APPEND` is among the flags, and
what is written. -/
structure Program where
  append : Bool
  record : List Byte
  deriving Repr, DecidableEq

/-- `tian` -/
def a : Program :=
  { append := true, record := [116, 105, 97, 110] }

/-- `xia` and a newline -/
def b : Program :=
  { append := true, record := [120, 105, 97, 10] }

/-- `TI`, without `O_APPEND` -/
def sharingB : Program :=
  { append := false, record := [84, 73] }

inductive Pc where
  | opening
  | loop (fd : OpenFile) (i : Nat)
  | sleeping (fd : OpenFile) (i : Nat)
  | returned (status : Nat)
  deriving Repr, DecidableEq

/-- A process, with the records that its `write` calls have written so far. -/
structure Process where
  program : Program
  pc : Pc
  written : List (List Byte)
  deriving Repr, DecidableEq

structure State where
  yu : Option (List Byte)
  procs : Pid -> Option Process

def State.content (s : State) : List Byte :=
  s.yu.getD []

def State.written (s : State) (pid : Pid) : List (List Byte) :=
  match s.procs pid with
  | none => []
  | some p => p.written

/-- A process starts, or makes its next step; `ok` is the outcome of the system
call that it makes. -/
inductive Label where
  | exec (pid : Pid) (program : Program)
  | proc (pid : Pid) (ok : Bool)
  deriving Repr, DecidableEq

def main (p : Process) (yu : Option (List Byte)) (ok : Bool) :
    Option (Process × Option (List Byte)) :=
  match p.pc with
  | Pc.opening =>
      if ok then
        let fd : OpenFile := { append := p.program.append, offset := 0 }
        some ({ p with pc := Pc.loop fd 0 }, some (yu.getD []))
      else
        some ({ p with pc := Pc.returned 1 }, yu)
  | Pc.loop fd i =>
      if i < 3 then
        if ok then
          let (fd', content) := write fd (yu.getD []) p.program.record
          some ({ p with
                    pc := Pc.sleeping fd' i
                    written := p.written ++ [p.program.record] },
                some content)
        else
          some ({ p with pc := Pc.returned 1 }, yu)
      else
        some ({ p with pc := Pc.returned 0 }, yu)
  | Pc.sleeping fd i =>
      some ({ p with pc := Pc.loop fd (i + 1) }, yu)
  | Pc.returned _ => none

def start (program : Program) : Process :=
  { program, pc := Pc.opening, written := [] }

def step (programs : List Program) (s : State) : Label -> Option State
  | Label.exec pid program =>
      if s.procs pid = none ∧ program ∈ programs then
        some { s with procs := Function.update s.procs pid (some (start program)) }
      else none
  | Label.proc pid ok =>
      match s.procs pid with
      | none => none
      | some p =>
          match main p s.yu ok with
          | none => none
          | some (p', yu') =>
              some { yu := yu', procs := Function.update s.procs pid (some p') }

def before (yu : Option (List Byte)) : State :=
  { yu, procs := fun _ => none }

def machine (programs : List Program) (yu : Option (List Byte)) :
    Machine State Label where
  init := fun s => s = before yu
  step := step programs

/-!
# The processes of a run

A step makes one process, or moves one; what `main` keeps holds of every process
that is ever there.
-/

theorem step_cases {programs : List Program} {s t : State} {l : Label}
    (h : step programs s l = some t) :
    exists pid p', t.procs = Function.update s.procs pid (some p') ∧
      ((s.procs pid = none ∧ t.yu = s.yu ∧
          exists program, program ∈ programs ∧ p' = start program) ∨
        exists p ok, s.procs pid = some p ∧ main p s.yu ok = some (p', t.yu)) := by
  cases l with
  | exec pid program =>
      change (if _ then _ else _) = some t at h
      split at h
      · next hguard =>
          cases h
          exact ⟨pid, start program, rfl,
            Or.inl ⟨hguard.left, rfl, program, hguard.right, rfl⟩⟩
      · cases h
  | proc pid ok =>
      change (match s.procs pid with | none => none | some p => _) = some t at h
      cases hp : s.procs pid with
      | none =>
          rw [hp] at h
          cases h
      | some p =>
          rw [hp] at h
          dsimp only at h
          cases hmain : main p s.yu ok with
          | none =>
              rw [hmain] at h
              cases h
          | some next =>
              rw [hmain] at h
              cases h
              exact ⟨pid, next.1, rfl, Or.inr ⟨p, ok, hp, hmain⟩⟩

theorem procs_invariant {programs : List Program} {yu : Option (List Byte)}
    {I : Process -> Prop} (hstart : forall q, q ∈ programs -> I (start q))
    (hmain : forall p p' yu yu' ok,
      I p -> main p yu ok = some (p', yu') -> I p')
    {s : State} (hs : (machine programs yu).Reachable s) :
    forall pid p, s.procs pid = some p -> I p := by
  refine Machine.invariant
    (I := fun s => forall pid p, s.procs pid = some p -> I p) ?_ ?_ hs
  · intro s hinit pid p hp
    rw [hinit] at hp
    cases hp
  · intro s l t hI hst q p hp
    rcases step_cases hst with ⟨pid, p', hprocs, hcase⟩
    rw [hprocs] at hp
    rcases eq_or_ne q pid with hq | hq
    · rw [hq, Function.update_self] at hp
      cases hp
      rcases hcase with ⟨_, _, program, hmem, hp'⟩ | ⟨p₀, ok, hp₀, hnext⟩
      · rw [hp']
        exact hstart program hmem
      · exact hmain p₀ p s.yu t.yu ok (hI pid p₀ hp₀) hnext
    · rw [Function.update_of_ne hq] at hp
      exact hI q p hp

theorem main_program {p p' : Process} {yu yu' : Option (List Byte)} {ok : Bool}
    (h : main p yu ok = some (p', yu')) : p'.program = p.program := by
  unfold main at h
  cases hpc : p.pc with
  | opening =>
      rw [hpc] at h
      cases ok with
      | false => cases h; rfl
      | true => cases h; rfl
  | loop fd i =>
      rw [hpc] at h
      dsimp only at h
      split at h
      · cases ok with
        | false => cases h; rfl
        | true => cases h; rfl
      · cases h
        rfl
  | sleeping fd i =>
      rw [hpc] at h
      cases h
      rfl
  | returned status =>
      rw [hpc] at h
      cases h

/-!
# One write with `O_APPEND`
-/

theorem putAt_end (content data : List Byte) :
    putAt content content.length data = content ++ data := by
  unfold putAt
  rw [List.take_length, Nat.sub_self, List.replicate_zero, List.append_nil,
    List.drop_of_length_le (Nat.le_add_right _ _), List.append_nil]

def Pc.fd : Pc -> Option OpenFile
  | Pc.loop fd _ => some fd
  | Pc.sleeping fd _ => some fd
  | _ => none

structure Process.Appending (p : Process) : Prop where
  program : p.program.append = true
  fd : forall f, p.pc.fd = some f -> f.append = true

def Grows (p p' : Process) (yu yu' : Option (List Byte)) : Prop :=
  exists rs, (rs = [] ∨ rs = [p.program.record]) ∧
    p'.written = p.written ++ rs ∧ yu'.getD [] = yu.getD [] ++ rs.flatten

theorem grows_nothing {p p' : Process} {yu yu' : Option (List Byte)}
    (hw : p'.written = p.written) (hyu : yu'.getD [] = yu.getD []) :
    Grows p p' yu yu' := by
  refine ⟨[], Or.inl rfl, ?_, ?_⟩
  · rw [List.append_nil]
    exact hw
  · rw [List.flatten_nil, List.append_nil]
    exact hyu

theorem main_appends {p p' : Process} {yu yu' : Option (List Byte)} {ok : Bool}
    (happ : p.Appending) (h : main p yu ok = some (p', yu')) :
    p'.Appending ∧ Grows p p' yu yu' := by
  have hfd := happ.fd
  unfold main at h
  cases hpc : p.pc with
  | opening =>
      rw [hpc] at h
      cases ok with
      | false =>
          cases h
          exact ⟨⟨happ.program, fun f hf => nomatch hf⟩, grows_nothing rfl rfl⟩
      | true =>
          cases h
          refine ⟨⟨happ.program, ?_⟩, grows_nothing rfl rfl⟩
          intro f hf
          cases hf
          exact happ.program
  | loop fd i =>
      rw [hpc] at h hfd
      have happend : fd.append = true := hfd fd rfl
      dsimp only at h
      split at h
      · cases ok with
        | false =>
            cases h
            exact ⟨⟨happ.program, fun f hf => nomatch hf⟩, grows_nothing rfl rfl⟩
        | true =>
            cases h
            refine ⟨⟨happ.program, ?_⟩, [p.program.record], Or.inr rfl, rfl, ?_⟩
            · intro f hf
              cases hf
              exact happend
            · unfold write
              rw [happend]
              simp only [if_true, Option.getD_some, putAt_end, List.flatten_cons,
                List.flatten_nil, List.append_nil]
      · cases h
        exact ⟨⟨happ.program, fun f hf => nomatch hf⟩, grows_nothing rfl rfl⟩
  | sleeping fd i =>
      rw [hpc] at h hfd
      cases h
      refine ⟨⟨happ.program, ?_⟩, grows_nothing rfl rfl⟩
      intro f hf
      cases hf
      exact hfd fd rfl
  | returned status =>
      rw [hpc] at h
      cases h

/-!
# What all the writers have put there

The processes are followed together: the file is the bytes that were there
before and an interleaving of what each of them has written.
-/

theorem written_of_procs {s : State} {pid : Pid} {p : Process}
    (h : s.procs pid = some p) : s.written pid = p.written := by
  unfold State.written
  rw [h]

theorem written_update {s t : State} {pid : Pid} {p : Process}
    (h : t.procs = Function.update s.procs pid (some p)) (q : Pid) :
    t.written q = if q = pid then p.written else s.written q := by
  split
  · next hq =>
      rw [hq]
      apply written_of_procs
      rw [h, Function.update_self]
  · next hq =>
      unfold State.written
      rw [h, Function.update_of_ne hq]

variable {programs : List Program} {yu : Option (List Byte)} {s t : State}

theorem log_grows {pid : Pid} {p p' : Process} {start : List Byte}
    {log : List (Pid × List Byte)}
    (hprocs : t.procs = Function.update s.procs pid (some p'))
    (hp : s.written pid = p.written) (hg : Grows p p' s.yu t.yu)
    (hlog : Interleaves s.written log)
    (hcontent : s.content = start ++ (log.map Prod.snd).flatten) :
    exists log', Interleaves t.written log' ∧
      t.content = start ++ (log'.map Prod.snd).flatten := by
  rcases hg with ⟨rs, hrs, hw, hyu⟩
  change t.content = s.content ++ rs.flatten at hyu
  rcases hrs with hrs | hrs
  · refine ⟨log, fun q => ?_, ?_⟩
    · rw [written_update hprocs, hlog q]
      split
      · next hq =>
          rw [hq, hp, hw, hrs, List.append_nil]
      · rfl
    · rw [hyu, hrs, List.flatten_nil, List.append_nil, hcontent]
  · refine ⟨log ++ [(pid, p.program.record)], hlog.snoc ?_ ?_, ?_⟩
    · rw [written_update hprocs, if_pos rfl, hw, hrs, hp]
    · intro q hq
      rw [written_update hprocs, if_neg hq]
    · rw [hyu, hrs, hcontent, List.map_append, List.flatten_append,
        List.append_assoc]
      rfl

theorem log_reachable (happ : forall q, q ∈ programs -> q.append = true)
    (hs : (machine programs yu).Reachable s) :
    exists log, Interleaves s.written log ∧
      s.content = yu.getD [] ++ (log.map Prod.snd).flatten := by
  induction hs with
  | init hinit =>
      rw [hinit]
      exact ⟨[], Interleaves.nil fun _ => rfl, (List.append_nil _).symm⟩
  | step hs _ hst ih =>
      rcases ih with ⟨log, hlog, hcontent⟩
      rcases step_cases hst with ⟨pid, p', hprocs, hcase⟩
      rcases hcase with ⟨hnone, hyu, program, _, hp'⟩ | ⟨p, ok, hp, hmain⟩
      · refine log_grows hprocs ?_ (grows_nothing (p := p') rfl ?_) hlog hcontent
        · unfold State.written
          rw [hnone, hp']
          rfl
        · rw [hyu]
      · have happ' := procs_invariant
          (fun q hq => ⟨happ q hq, fun f hf => nomatch hf⟩)
          (fun p p' yu yu' ok hI h => (main_appends hI h).left) hs pid p hp
        exact log_grows hprocs (written_of_procs hp)
          (main_appends happ' hmain).right hlog hcontent

/-!
# Each writer's own records
-/

def Pc.Counted : Pc -> Nat -> Prop
  | Pc.opening, n => n = 0
  | Pc.loop _ i, n => n = i ∧ i ≤ 3
  | Pc.sleeping _ i, n => n = i + 1 ∧ i < 3
  | Pc.returned status, n => n ≤ 3 ∧ (status = 0 -> n = 3)

def Process.Counted (p : Process) : Prop :=
  exists n, p.written = List.replicate n p.program.record ∧ p.pc.Counted n

theorem main_counted {p p' : Process} {yu yu' : Option (List Byte)} {ok : Bool}
    (hc : p.Counted) (h : main p yu ok = some (p', yu')) : p'.Counted := by
  rcases hc with ⟨n, hw, hn⟩
  unfold main at h
  cases hpc : p.pc with
  | opening =>
      rw [hpc] at h hn
      change n = 0 at hn
      cases ok with
      | false =>
          cases h
          exact ⟨n, hw, by lia, fun hst => nomatch hst⟩
      | true =>
          cases h
          exact ⟨n, hw, hn, Nat.zero_le 3⟩
  | loop fd i =>
      rw [hpc] at h hn
      rcases hn with ⟨hni, hi⟩
      dsimp only at h
      split at h
      · next hlt =>
          cases ok with
          | false =>
              cases h
              exact ⟨n, hw, by lia, fun hst => nomatch hst⟩
          | true =>
              cases h
              refine ⟨n + 1, ?_, congrArg (· + 1) hni, hlt⟩
              rw [List.replicate_succ', ← hw]
      · cases h
        exact ⟨n, hw, by lia, fun _ => by lia⟩
  | sleeping fd i =>
      rw [hpc] at h hn
      cases h
      exact ⟨n, hw, hn.left, hn.right⟩
  | returned status =>
      rw [hpc] at h
      cases h

theorem counted_reachable (hs : (machine programs yu).Reachable s) {pid : Pid}
    {p : Process} (hp : s.procs pid = some p) : p.Counted :=
  procs_invariant (fun _ _ => ⟨0, rfl, rfl⟩)
    (fun _ _ _ _ _ hc h => main_counted hc h) hs pid p hp

/-- A process that comes to the end of `main` has written its record three
times. -/
theorem written_of_returned (hs : (machine programs yu).Reachable s) {pid : Pid}
    {p : Process} (hp : s.procs pid = some p) (hpc : p.pc = Pc.returned 0) :
    p.written = List.replicate 3 p.program.record := by
  rcases counted_reachable hs hp with ⟨n, hw, hn⟩
  rw [hpc] at hn
  rw [hw, hn.right rfl]

/-!
# The file
-/

/-- The file is what it was before, and after that whole records in an order
that is each writer's own. -/
theorem appended (hs : (machine [a, b] yu).Reachable s) :
    exists log, Interleaves s.written log ∧
      s.content = yu.getD [] ++ (log.map Prod.snd).flatten ∧
      forall pid r, (pid, r) ∈ log -> r.length = 4 ∧
        exists p, s.procs pid = some p ∧ r = p.program.record := by
  have happ : forall q, q ∈ [a, b] -> q.append = true := by simp [a, b]
  have hlen : forall q, q ∈ [a, b] -> q.record.length = 4 := by simp [a, b]
  rcases log_reachable happ hs with ⟨log, hlog, hcontent⟩
  refine ⟨log, hlog, hcontent, fun pid r hr => ?_⟩
  have hw := hlog.mem hr
  cases hp : s.procs pid with
  | none =>
      unfold State.written at hw
      rw [hp] at hw
      cases hw
  | some p =>
      rw [written_of_procs hp] at hw
      rcases counted_reachable hs hp with ⟨n, hrep, _⟩
      rw [hrep] at hw
      have hrec := List.eq_of_mem_replicate hw
      have hmem := procs_invariant (I := fun p => p.program ∈ [a, b])
        (fun q hq => hq)
        (fun p p' yu yu' ok hI h => by rw [main_program h]; exact hI) hs pid p hp
      exact ⟨by rw [hrec]; exact hlen _ hmem, p, rfl, hrec⟩

/-- Both programs run, the second one starting when the first one has written. -/
theorem appended_two_writers :
    exists s : State, s.content = [122] ++ a.record ++ b.record ∧
      exists log, Interleaves s.written log ∧
        s.content = (some [122]).getD [] ++ (log.map Prod.snd).flatten ∧
        forall pid r, (pid, r) ∈ log -> r.length = 4 ∧
          exists p, s.procs pid = some p ∧ r = p.program.record := by
  have hrun : ((machine [a, b] (some [122])).run (before (some [122]))
      [Label.exec 0 a, Label.proc 0 true, Label.proc 0 true, Label.exec 1 b,
        Label.proc 1 true, Label.proc 1 true]).map State.content =
      some ([122] ++ a.record ++ b.record) := rfl
  rcases Machine.exists_reachable_of_run rfl hrun with ⟨s, hs, hcontent⟩
  exact ⟨s, hcontent, appended hs⟩

theorem sharing_overwrites :
    exists s, (machine [sharingB] none).Reachable s ∧
      (s.content, s.written 0, s.written 1) =
        (sharingB.record, [sharingB.record], [sharingB.record]) := by
  have hrun : ((machine [sharingB] none).run (before none)
      [Label.exec 0 sharingB, Label.proc 0 true, Label.exec 1 sharingB,
        Label.proc 1 true, Label.proc 0 true, Label.proc 1 true]).map
        (fun s => (s.content, s.written 0, s.written 1)) =
      some (sharingB.record, [sharingB.record], [sharingB.record]) := rfl
  exact Machine.exists_reachable_of_run rfl hrun

end Atomic
end Apue
