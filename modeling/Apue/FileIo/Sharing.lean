import Apue.FileIo.Atomic
import Apue.Foundation.Block

/-!
# Writers that overwrite each other

The writers of `8-sharing` open the same file without `O_APPEND`: each of them writes
its records from the beginning on, with an offset of its own.  What is in the file then
comes from the writers byte by byte, also where a `write` takes a part of a record only.
-/

namespace Apue
namespace Sharing

open Foundation Atomic

/-- "tian" and a newline, without `O_APPEND` -/
def a : Program :=
  { append := false, record := [116, 105, 97, 110, 10] }

/-- `TI`, without `O_APPEND` -/
def b : Program :=
  sharingB

structure Process where
  program : Program
  pc : Pc
  text : List Byte
  deriving Repr, DecidableEq

structure State where
  yu : Option (List Byte)
  procs : Pid -> Option Process

def State.content (s : State) : List Byte :=
  s.yu.getD []

def State.text (s : State) (pid : Pid) : List Byte :=
  ((s.procs pid).map Process.text).getD []

inductive Call where
  | open (ok : Bool)
  | write (w : WriteAnswer)
  | sleep
  | close
  deriving Repr, DecidableEq

inductive Label where
  | exec (pid : Pid) (program : Program)
  | proc (pid : Pid) (call : Call)
  deriving Repr, DecidableEq

def main (p : Process) (yu : Option (List Byte)) (call : Call) :
    Option (Process × Option (List Byte)) :=
  match p.pc, call with
  | Pc.opening, Call.open true =>
      let fd : OpenFile := { append := p.program.append, offset := 0 }
      some ({ p with pc := Pc.loop fd 0 }, some (yu.getD []))
  | Pc.opening, Call.open false => some ({ p with pc := Pc.returned 1 }, yu)
  | Pc.loop fd i, Call.write w =>
      if i < 3 then
        let data := w.taken p.program.record
        let (fd', content) := Atomic.write fd (yu.getD []) data
        let pc := if w.full p.program.record then Pc.sleeping fd' i else Pc.returned 1
        some ({ p with pc, text := p.text ++ data }, some content)
      else none
  | Pc.loop _ i, Call.close =>
      if i < 3 then none else some ({ p with pc := Pc.returned 0 }, yu)
  | Pc.sleeping fd i, Call.sleep => some ({ p with pc := Pc.loop fd (i + 1) }, yu)
  | _, _ => none

def start (program : Program) : Process :=
  { program, pc := Pc.opening, text := [] }

def step (programs : List Program) (s : State) : Label -> Option State
  | Label.exec pid program =>
      if s.procs pid = none ∧ program ∈ programs then
        some { s with procs := Function.update s.procs pid (some (start program)) }
      else none
  | Label.proc pid call => do
      let p ← s.procs pid
      let (p', yu') ← main p s.yu call
      some { yu := yu', procs := Function.update s.procs pid (some p') }

def before (yu : Option (List Byte)) : State :=
  { yu, procs := fun _ => none }

def machine (programs : List Program) (yu : Option (List Byte)) : Machine State Label where
  init := fun s => s = before yu
  step := step programs

theorem step_cases {programs : List Program} {s t : State} {l : Label}
    (h : step programs s l = some t) :
    exists pid p', t.procs = Function.update s.procs pid (some p') ∧
      ((s.procs pid = none ∧ t.yu = s.yu ∧
          exists program, program ∈ programs ∧ p' = start program) ∨
        exists p call, s.procs pid = some p ∧ main p s.yu call = some (p', t.yu)) := by
  cases l with
  | exec pid program =>
      change (if _ then _ else _) = some t at h
      split at h
      · next hguard =>
          cases h
          exact ⟨pid, start program, rfl,
            Or.inl ⟨hguard.left, rfl, program, hguard.right, rfl⟩⟩
      · cases h
  | proc pid call =>
      rcases Option.bind_eq_some_iff.mp h with ⟨p, hp, hnext⟩
      rcases Option.bind_eq_some_iff.mp hnext with ⟨next, hmain, hstate⟩
      cases hstate
      exact ⟨pid, next.1, rfl, Or.inr ⟨p, call, hp, hmain⟩⟩

/-!
# One write inside the file
-/

theorem putAt_getElem? {content : List Byte} {pos : Nat} (data : List Byte) (i : Nat)
    (h : pos ≤ content.length) :
    (putAt content pos data)[i]? =
      if pos ≤ i ∧ i < pos + data.length then data[i - pos]? else content[i]? := by
  have htake : (content.take pos).length = pos := by
    rw [List.length_take]
    lia
  unfold putAt
  rw [Nat.sub_eq_zero_of_le h, List.replicate_zero, List.append_nil]
  by_cases hlow : i < pos
  · rw [if_neg (by lia), List.append_assoc, List.getElem?_append_left (by lia),
      List.getElem?_take_of_lt hlow]
  · by_cases hhigh : i < pos + data.length
    · rw [if_pos ⟨by lia, hhigh⟩, List.append_assoc, List.getElem?_append_right (by lia), htake,
        List.getElem?_append_left (by lia)]
    · rw [if_neg (by lia), List.getElem?_append_right (by rw [List.length_append]; lia),
        List.length_append, htake, List.getElem?_drop]
      congr 1
      lia

theorem putAt_length {content : List Byte} {pos : Nat} (data : List Byte)
    (h : pos ≤ content.length) :
    (putAt content pos data).length = max content.length (pos + data.length) := by
  unfold putAt
  rw [List.length_append, List.length_append, List.length_append, List.length_take,
    List.length_replicate, List.length_drop]
  lia

theorem putAt_nil {content : List Byte} {pos : Nat} (h : pos ≤ content.length) :
    putAt content pos [] = content := by
  unfold putAt
  rw [Nat.sub_eq_zero_of_le h, List.replicate_zero, List.append_nil, List.append_nil]
  exact List.take_append_drop pos content

/-!
# A writer and its offset
-/

structure Own (p : Process) : Prop where
  program : p.program.append = false
  opening : p.pc = Pc.opening -> p.text = []
  fd : forall f, p.pc.fd = some f -> f.append = false ∧ f.offset = p.text.length

/-- A step puts some bytes, or none, where the process has come to. -/
def Writes (p p' : Process) (content content' : List Byte) : Prop :=
  exists data, p'.text = p.text ++ data ∧
    (content' = putAt content p.text.length data ∨ (data = [] ∧ content' = content))

theorem start_own {q : Program} (h : q.append = false) : Own (start q) where
  program := h
  opening _ := rfl
  fd := nofun

theorem writes_nothing {p p' : Process} {content content' : List Byte} (h : p'.text = p.text)
    (hcontent : content' = content) : Writes p p' content content' :=
  ⟨[], h.trans (List.append_nil _).symm, Or.inr ⟨rfl, hcontent⟩⟩

theorem write_plain {f : OpenFile} (h : f.append = false) (content data : List Byte) :
    Atomic.write f content data =
      ({ f with offset := f.offset + data.length }, putAt content f.offset data) := by
  unfold Atomic.write
  rw [h]
  rfl

theorem main_own {p p' : Process} {yu yu' : Option (List Byte)} {call : Call} (hown : Own p)
    (h : main p yu call = some (p', yu')) :
    Own p' ∧ Writes p p' (yu.getD []) (yu'.getD []) := by
  have hfd := hown.fd
  unfold main at h
  split at h
  · next hpc =>
      cases h
      refine ⟨⟨hown.program, nofun, ?_⟩, writes_nothing rfl rfl⟩
      intro f hf
      cases hf
      refine ⟨hown.program, ?_⟩
      show 0 = p.text.length
      rw [hown.opening hpc]
      rfl
  · cases h
    exact ⟨⟨hown.program, nofun, nofun⟩, writes_nothing rfl rfl⟩
  · next fd i w hpc =>
      rcases hfd fd (by rw [hpc]; rfl) with ⟨happend, hoffset⟩
      split at h
      · dsimp only at h
        rw [write_plain happend] at h
        cases h
        refine ⟨⟨hown.program, ?_, ?_⟩, w.taken p.program.record, rfl, Or.inl ?_⟩
        · intro hopening
          dsimp only at hopening
          split at hopening
          · cases hopening
          · cases hopening
        · intro f hf
          dsimp only at hf
          split at hf
          · cases hf
            refine ⟨happend, ?_⟩
            show fd.offset + _ = (p.text ++ _).length
            rw [hoffset, List.length_append]
          · cases hf
        · rw [hoffset]
          rfl
      · cases h
  · split at h
    · cases h
    · cases h
      exact ⟨⟨hown.program, nofun, nofun⟩, writes_nothing rfl rfl⟩
  · next fd i hpc =>
      cases h
      refine ⟨⟨hown.program, nofun, ?_⟩, writes_nothing rfl rfl⟩
      intro f hf
      cases hf
      exact hfd fd (by rw [hpc]; rfl)
  · cases h

/-!
# Whose bytes are in the file
-/

/-- A byte of the file is a writer's own byte at this place, or it is the one from
before and nobody has written so far. -/
def ByteOf (base : List Byte) (s : State) (i : Nat) : Prop :=
  (exists pid, i < (s.text pid).length ∧ s.content[i]? = (s.text pid)[i]?) ∨
    ((forall pid, (s.text pid).length ≤ i) ∧ s.content[i]? = base[i]?)

structure Inv (base : List Byte) (s : State) : Prop where
  own : forall pid p, s.procs pid = some p -> Own p
  inside : forall pid, (s.text pid).length ≤ s.content.length
  bytes : forall i, ByteOf base s i

section

variable {programs : List Program} {yu : Option (List Byte)} {s t : State}

theorem text_update {pid : Pid} {p : Process}
    (h : t.procs = Function.update s.procs pid (some p)) (q : Pid) :
    t.text q = if q = pid then p.text else s.text q := by
  unfold State.text
  rw [h]
  by_cases hq : q = pid
  · rw [if_pos hq, hq, Function.update_self]
    rfl
  · rw [if_neg hq, Function.update_of_ne hq]

theorem ByteOf.put {base data : List Byte} {pid : Pid} {i : Nat} (h : ByteOf base s i)
    (hpos : (s.text pid).length ≤ s.content.length)
    (hself : t.text pid = s.text pid ++ data) (hother : forall q, q ≠ pid -> t.text q = s.text q)
    (hcontent : t.content = putAt s.content (s.text pid).length data) : ByteOf base t i := by
  unfold ByteOf
  rw [hcontent, putAt_getElem? _ _ hpos]
  by_cases hi : (s.text pid).length ≤ i ∧ i < (s.text pid).length + data.length
  · left
    refine ⟨pid, ?_, ?_⟩
    · rw [hself, List.length_append]
      exact hi.2
    · rw [if_pos hi, hself, List.getElem?_append_right hi.1]
  · rw [if_neg hi]
    rcases h with ⟨q, hq, hbyte⟩ | ⟨hnobody, hbyte⟩
    · left
      by_cases hqp : q = pid
      · rw [hqp] at hq hbyte
        refine ⟨pid, ?_, ?_⟩
        · rw [hself, List.length_append]
          lia
        · rw [hbyte, hself, List.getElem?_append_left hq]
      · exact ⟨q, by rw [hother q hqp]; exact hq, by rw [hother q hqp]; exact hbyte⟩
    · right
      refine ⟨?_, hbyte⟩
      intro q
      by_cases hqp : q = pid
      · have hle := hnobody pid
        rw [hqp, hself, List.length_append]
        lia
      · rw [hother q hqp]
        exact hnobody q

theorem Inv.writes {base : List Byte} {pid : Pid} {p p' : Process} (h : Inv base s)
    (hp : s.text pid = p.text) (hprocs : t.procs = Function.update s.procs pid (some p'))
    (hown : Own p') (hwrites : Writes p p' s.content t.content) : Inv base t := by
  rcases hwrites with ⟨data, htext, hput⟩
  have hpos : (s.text pid).length ≤ s.content.length := h.inside pid
  have hcontent : t.content = putAt s.content (s.text pid).length data := by
    rcases hput with hput | ⟨hnil, hsame⟩
    · rw [hput, hp]
    · rw [hsame, hnil, putAt_nil hpos]
  have hself : t.text pid = s.text pid ++ data := by
    rw [text_update hprocs, if_pos rfl, htext, hp]
  have hother : forall q, q ≠ pid -> t.text q = s.text q := by
    intro q hq
    rw [text_update hprocs, if_neg hq]
  refine ⟨?_, ?_, fun i => (h.bytes i).put hpos hself hother hcontent⟩
  · intro q pq hq
    rw [hprocs] at hq
    by_cases hqp : q = pid
    · rw [hqp, Function.update_self] at hq
      cases hq
      exact hown
    · rw [Function.update_of_ne hqp] at hq
      exact h.own q pq hq
  · intro q
    rw [hcontent, putAt_length _ hpos]
    by_cases hq : q = pid
    · rw [hq, hself, List.length_append]
      lia
    · rw [hother q hq]
      exact Nat.le_trans (h.inside q) (Nat.le_max_left _ _)

theorem start_inv : Inv (yu.getD []) (before yu) where
  own := nofun
  inside := fun _ => Nat.zero_le _
  bytes := fun _ => Or.inr ⟨fun _ => Nat.zero_le _, rfl⟩

theorem Inv.after {base : List Byte} {l : Label} (h : Inv base s)
    (hplain : forall q, q ∈ programs -> q.append = false)
    (hstep : step programs s l = some t) : Inv base t := by
  rcases step_cases hstep with
    ⟨pid, p', hprocs, ⟨hnone, hyu, program, hmem, hp'⟩ | ⟨p, call, hp, hmain⟩⟩
  · have htext : s.text pid = (start program).text := by
      unfold State.text
      rw [hnone]
      rfl
    refine h.writes htext hprocs ?_ (writes_nothing ?_ ?_)
    · rw [hp']
      exact start_own (hplain program hmem)
    · rw [hp']
    · unfold State.content
      rw [hyu]
  · have htext : s.text pid = p.text := by
      unfold State.text
      rw [hp]
      rfl
    rcases main_own (h.own pid p hp) hmain with ⟨hown, hwrites⟩
    exact h.writes htext hprocs hown hwrites

theorem reachable_inv (hplain : forall q, q ∈ programs -> q.append = false)
    (hs : (machine programs yu).Reachable s) : Inv (yu.getD []) s := by
  refine Machine.invariant (I := Inv (yu.getD [])) ?_
    (fun _ _ _ h hst => h.after hplain hst) hs
  intro s hinit
  rw [hinit]
  exact start_inv

/-!
# What a writer's text is
-/

/-- The records that a process has written at a place of `main`; with status 1 the last
one is perhaps cut off. -/
def Wrote (record text : List Byte) : Pc -> Prop
  | Pc.opening => text = []
  | Pc.loop _ i => i ≤ 3 ∧ text = (List.replicate i record).flatten
  | Pc.sleeping _ i => i < 3 ∧ text = (List.replicate (i + 1) record).flatten
  | Pc.returned status =>
      text <+: (List.replicate 3 record).flatten ∧
        (status = 0 -> text = (List.replicate 3 record).flatten)

def Process.Wrote (p : Process) : Prop :=
  Sharing.Wrote p.program.record p.text p.pc

theorem records_succ (record : List Byte) (i : Nat) :
    (List.replicate (i + 1) record).flatten = (List.replicate i record).flatten ++ record := by
  rw [List.replicate_succ', List.flatten_append]
  show _ ++ (record ++ []) = _
  rw [List.append_nil]

theorem records_isPrefix (record : List Byte) {i n : Nat} (h : i ≤ n) :
    (List.replicate i record).flatten <+: (List.replicate n record).flatten := by
  induction h with
  | refl => exact List.prefix_rfl
  | step _ ih =>
      rw [records_succ]
      exact ih.trans (List.prefix_append _ _)

theorem Process.Wrote.isPrefix {p : Process} (h : p.Wrote) :
    p.text <+: (List.replicate 3 p.program.record).flatten := by
  unfold Process.Wrote at h
  cases hpc : p.pc with
  | opening =>
      rw [hpc] at h
      rw [show p.text = [] from h]
      exact List.nil_prefix
  | loop fd i =>
      rw [hpc] at h
      rw [h.2]
      exact records_isPrefix _ h.1
  | sleeping fd i =>
      rw [hpc] at h
      rw [h.2]
      exact records_isPrefix _ h.1
  | returned status =>
      rw [hpc] at h
      exact h.1

theorem main_wrote {p p' : Process} {yu yu' : Option (List Byte)} {call : Call}
    (hwrote : p.Wrote) (h : main p yu call = some (p', yu')) : p'.Wrote := by
  have hbefore := hwrote.isPrefix
  unfold Process.Wrote at hwrote
  unfold main at h
  split at h
  · next hpc =>
      rw [hpc] at hwrote
      cases h
      exact ⟨Nat.zero_le 3, hwrote⟩
  · cases h
    exact ⟨hbefore, nofun⟩
  · next fd i w hpc =>
      rw [hpc] at hwrote
      split at h
      · next hi =>
          cases h
          cases hfull : w.full p.program.record with
          | true =>
              refine ⟨hi, ?_⟩
              rw [records_succ, ← hwrote.2, WriteAnswer.taken_of_full hfull]
          | false =>
              refine ⟨?_, nofun⟩
              have hpart : p.text ++ w.taken p.program.record <+: p.text ++ p.program.record :=
                (List.prefix_append_right_inj _).mpr (WriteAnswer.taken_isPrefix _ _)
              rw [hwrote.2, ← records_succ, ← hwrote.2] at hpart
              exact hpart.trans (records_isPrefix _ hi)
      · cases h
  · next fd i hpc =>
      rw [hpc] at hwrote
      split at h
      · cases h
      · next hi =>
          cases h
          have hthree : i = 3 := Nat.le_antisymm hwrote.1 (Nat.not_lt.mp hi)
          refine ⟨hbefore, ?_⟩
          intro _
          rw [← hthree]
          exact hwrote.2
  · next fd i hpc =>
      rw [hpc] at hwrote
      cases h
      exact hwrote
  · cases h

theorem reachable_wrote (hs : (machine programs yu).Reachable s) :
    forall pid p, s.procs pid = some p -> p.Wrote := by
  refine Machine.invariant
    (I := fun s => forall pid p, s.procs pid = some p -> p.Wrote) ?_ ?_ hs
  · intro s hinit pid p hp
    rw [hinit] at hp
    cases hp
  · intro s l t hI hst q p hp
    rcases step_cases hst with ⟨pid, p', hprocs, hcase⟩
    rw [hprocs] at hp
    by_cases hq : q = pid
    · rw [hq, Function.update_self] at hp
      cases hp
      rcases hcase with ⟨_, _, program, _, hp'⟩ | ⟨p₀, call, hp₀, hmain⟩
      · rw [hp']
        rfl
      · exact main_wrote (hI pid p₀ hp₀) hmain
    · rw [Function.update_of_ne hq] at hp
      exact hI q p hp

end

/-- Every byte of the file is one that some writer has written at this place, or the
one from before where nobody has written; where one writer alone has written, it is that
writer's.  A writer's text is its record three times, or as far as it has come. -/
theorem bytes_shared {programs : List Program} {yu : Option (List Byte)} {s : State}
    (hplain : forall q, q ∈ programs -> q.append = false)
    (hs : (machine programs yu).Reachable s) :
    (forall i, ByteOf (yu.getD []) s i ∧
      forall pid, i < (s.text pid).length ->
        (forall q, q ≠ pid -> (s.text q).length ≤ i) -> s.content[i]? = (s.text pid)[i]?) ∧
    forall pid p, s.procs pid = some p ->
      p.text <+: (List.replicate 3 p.program.record).flatten ∧
        (p.pc = Pc.returned 0 -> p.text = (List.replicate 3 p.program.record).flatten) := by
  refine ⟨?_, ?_⟩
  · intro i
    have hbyte := (reachable_inv hplain hs).bytes i
    refine ⟨hbyte, ?_⟩
    intro pid hpid hothers
    rcases hbyte with ⟨q, hq, hcontent⟩ | ⟨hnobody, _⟩
    · by_cases hqp : q = pid
      · rw [← hqp]
        exact hcontent
      · exact absurd hq (Nat.not_lt.mpr (hothers q hqp))
    · exact absurd hpid (Nat.not_lt.mpr (hnobody pid))
  · intro pid p hp
    have hwrote := reachable_wrote hs pid p hp
    refine ⟨hwrote.isPrefix, ?_⟩
    intro hpc
    unfold Process.Wrote at hwrote
    rw [hpc] at hwrote
    exact hwrote.2 rfl

/-- `b` writes twice before the second record of `a`, of which the disk takes three
bytes only; then `b` writes once more. -/
def overwriting : List Label :=
  [Label.exec 0 a, Label.proc 0 (Call.open true), Label.proc 0 (Call.write (WriteAnswer.wrote 5)),
    Label.exec 1 b, Label.proc 1 (Call.open true),
    Label.proc 1 (Call.write (WriteAnswer.wrote 2)), Label.proc 1 Call.sleep,
    Label.proc 1 (Call.write (WriteAnswer.wrote 2)), Label.proc 1 Call.sleep,
    Label.proc 0 Call.sleep, Label.proc 0 (Call.write (WriteAnswer.wrote 3)),
    Label.proc 1 (Call.write (WriteAnswer.wrote 2))]

/-- "TITITIia": behind the six bytes of `b` there is what `a` has written. -/
theorem bytes_shared_overwriting :
    exists s, (machine [a, b] none).Reachable s ∧
      s.content = [84, 73, 84, 73, 84, 73, 105, 97] ∧ (s.text 0).length = 8 ∧ ByteOf [] s 5 := by
  have hrun : ((machine [a, b] none).run (before none) overwriting).map
      (fun s => (s.content, (s.text 0).length)) = some ([84, 73, 84, 73, 84, 73, 105, 97], 8) := rfl
  rcases Machine.exists_reachable_of_run rfl hrun with ⟨s, hs, heq⟩
  rcases Prod.mk.inj heq with ⟨hcontent, hlength⟩
  exact ⟨s, hs, hcontent, hlength, ((bytes_shared (by decide) hs).1 5).1⟩

end Sharing
end Apue
