import Apue.Ipc.Popen.Table

/-!
# The child at execl

The child first moves its end of the pipe onto descriptor 1 or 0 and then
closes the descriptors below `maxfd` that are recorded in the array it inherited.
Both steps act on the same numbers: a descriptor that was redirected must not be
recorded there, and the array has room for streams that the loop does not reach.
-/

namespace Apue
namespace Popen

open Kernel

def target : Mode -> Fd
  | Mode.r => STDOUT_FILENO
  | Mode.w => STDIN_FILENO

def childEnd (mode : Mode) (pipe : Nat) : OpenFile :=
  match mode with
  | Mode.r => OpenFile.pipeWrite pipe
  | Mode.w => OpenFile.pipeRead pipe

/-!
# The two steps, descriptor by descriptor
-/

theorem get_redirect (t : FdTable OpenFile) {own other : Fd}
    (hne : own ≠ other) (std d : Fd) :
    (if own ≠ std then
        ((t.close other).dup2 own std).close own
      else
        t.close other).get d =
      if d = std then t.get own
      else if d = own ∨ d = other then none
      else t.get d := by
  by_cases hto : own ≠ std
  · simp only [if_pos hto, FdTable.get_close, FdTable.get_dup2, if_neg hne]
    by_cases hd : d = std
    · rw [if_pos hd, if_pos hd, if_neg]
      rw [hd]
      exact Ne.symm hto
    · rw [if_neg hd, if_neg hd]
      by_cases hown : d = own
      · rw [if_pos hown, if_pos (Or.inl hown)]
      · rw [if_neg hown]
        by_cases hother : d = other
        · rw [if_pos hother, if_pos (Or.inr hother)]
        · rw [if_neg hother, if_neg]
          intro hor
          exact hor.elim hown hother
  · have heq : own = std := Decidable.not_not.mp hto
    simp only [if_neg hto, FdTable.get_close]
    by_cases hd : d = std
    · rw [if_pos hd, hd, ← heq, if_neg hne]
    · rw [if_neg hd]
      by_cases hother : d = other
      · rw [if_pos hother, if_pos (Or.inr hother)]
      · rw [if_neg hother, if_neg]
        intro hor
        rw [heq] at hor
        exact hor.elim hd hother

theorem get_wireChild (mode : Mode) {pfd : Fd × Fd} (t : FdTable OpenFile)
    (hlt : pfd.1 < pfd.2) (d : Fd) :
    (wireChild mode pfd t).get d =
      if d = target mode then t.get (parentEnds mode pfd).2
      else if d = (parentEnds mode pfd).2 ∨ d = (parentEnds mode pfd).1 then none
      else t.get d := by
  have hne := Ne.symm (parentEnds_fst_ne_snd mode hlt)
  cases mode with
  | r => exact get_redirect t hne STDOUT_FILENO d
  | w => exact get_redirect t hne STDIN_FILENO d

theorem get_closeLoop (w : World) (t : FdTable OpenFile) (n : Nat) (d : Fd) :
    ((List.range n).foldl
        (fun t i => if 0 < w.entry i then t.close i else t) t).get d =
      if d < n ∧ 0 < w.entry d then none else t.get d := by
  induction n with
  | zero =>
      rw [if_neg]
      · rfl
      · intro h
        exact absurd h.1 (Nat.not_lt_zero d)
  | succ n ih =>
      rw [List.range_succ, List.foldl_append, List.foldl_cons, List.foldl_nil]
      by_cases hpos : 0 < w.entry n
      · rw [if_pos hpos, FdTable.get_close, ih]
        by_cases hd : d = n
        · rw [if_pos hd, if_pos]
          rw [hd]
          exact ⟨Nat.lt_succ_self n, hpos⟩
        · rw [if_neg hd]
          have hiff : d < n ↔ d < n + 1 := by lia
          simp only [hiff]
      · rw [if_neg hpos, ih]
        by_cases hd : d = n
        · rw [if_neg, if_neg]
          · rw [hd]
            exact fun h => hpos h.2
          · rw [hd]
            exact fun h => hpos h.2
        · have hiff : d < n ↔ d < n + 1 := by lia
          simp only [hiff]

theorem get_closeRecorded (w : World) (t : FdTable OpenFile) (d : Fd) :
    (closeRecorded w t).get d =
      if d < w.maxfd ∧ 0 < w.entry d then none else t.get d :=
  get_closeLoop w t w.maxfd d

/-!
# When the wiring survives
-/

/-- At `execl` the redirected descriptor is the new pipe's end, and no
descriptor of a live stream is open unless it is that end. -/
def Wired (mode : Mode) (pipe : Nat) (live : List Stream)
    (t : FdTable OpenFile) : Prop :=
  t.get (target mode) = some (childEnd mode pipe) ∧
    forall st, st ∈ live ->
      t.get st.fp.fileno = none ∨
        (st.fp.fileno = target mode ∧
          t.get st.fp.fileno = some (childEnd mode pipe))

instance (mode : Mode) (pipe : Nat) (live : List Stream)
    (t : FdTable OpenFile) : Decidable (Wired mode pipe live t) :=
  inferInstanceAs (Decidable (_ ∧ _))

theorem Piped.childEnd_get {w w' : World} {pfd : Fd × Fd}
    (hp : Piped w w' pfd) (mode : Mode) :
    w'.fds.get (parentEnds mode pfd).2 = some (childEnd mode w.pipes) := by
  cases mode with
  | r => exact hp.writeEnd
  | w => exact hp.readEnd

theorem entry_pos_iff {s : State} (hI : Inv s) (d : Fd) :
    0 < s.world.entry d <-> exists st, st ∈ s.live ∧ st.fp.fileno = d := by
  constructor
  · intro hpos
    exact (hI.entry_iff d).mp (by lia)
  · intro ⟨st, hst, hfd⟩
    rw [← hfd, hI.entry_pid st hst]
    exact hI.pid_pos st hst

theorem get_childAtExec {s : State} {type : List Char}
    {ans : PopenAnswers} {mode : Mode} {pfd : Fd × Fd} {w : World}
    (h : untilFork type ans s.world = Except.ok (Except.ok (mode, pfd), w))
    (d : Fd) :
    (childAtExec w mode pfd).get d =
      if d < w.maxfd ∧ 0 < s.world.entry d then none
      else if d = target mode then some (childEnd mode s.world.pipes)
      else if d = (parentEnds mode pfd).2 ∨ d = (parentEnds mode pfd).1 then none
      else w.fds.get d := by
  rcases untilFork_ok h with ⟨hbefore, hready⟩
  rcases hready mode pfd rfl with ⟨_, hpiped⟩
  unfold childAtExec
  rw [get_closeRecorded, hbefore.entry, get_wireChild mode w.fds hpiped.lt,
    hpiped.childEnd_get]

theorem maxfd_of_live {s : State} (hI : Inv s) {w : World} (h : BeforeFork s.world w)
    {st : Stream} (hst : st ∈ s.live) : w.maxfd = s.world.maxfd := by
  apply h.maxfd
  intro hnone
  have hentry := (hI.entry_iff st.fp.fileno).mpr ⟨st, hst, rfl⟩
  unfold World.entry at hentry
  rw [hnone] at hentry
  exact hentry rfl

theorem get_live_childAtExec {s : State} (hI : Inv s) {type : List Char}
    {ans : PopenAnswers} {mode : Mode} {pfd : Fd × Fd} {w : World}
    (h : untilFork type ans s.world = Except.ok (Except.ok (mode, pfd), w))
    {st : Stream} (hst : st ∈ s.live) :
    (childAtExec w mode pfd).get st.fp.fileno =
      if st.fp.fileno < s.world.maxfd then none
      else if st.fp.fileno = target mode then some (childEnd mode s.world.pipes)
      else s.world.fds.get st.fp.fileno := by
  rcases untilFork_ok h with ⟨hbefore, hready⟩
  rcases hready mode pfd rfl with ⟨_, hpiped⟩
  have hopen := hI.opened st hst
  have hpos : 0 < s.world.entry st.fp.fileno :=
    (entry_pos_iff hI _).mpr ⟨st, hst, rfl⟩
  have hends : ¬ (st.fp.fileno = (parentEnds mode pfd).2 ∨
      st.fp.fileno = (parentEnds mode pfd).1) := by
    rintro (heq | heq)
    · exact hpiped.ne_parent_closed mode hopen heq
    · rw [heq] at hopen
      exact hopen (hpiped.parent_fresh mode).1
  rw [get_childAtExec h, maxfd_of_live hI hbefore hst]
  simp only [hpos, and_true, if_neg hends, hbefore.opened _ hopen]

/--
In every reachable state, the child that a call of `popen_l` forks is wired as
intended when it reaches `execl` exactly when the loop reaches every stream that is
still open, the one that the new end of the pipe has replaced excepted.
-/
theorem child_wired_iff {s : State}
    (hs : machine.ReachableUnder Promised s) {type : List Char}
    {ans : PopenAnswers} {mode : Mode} {pfd : Fd × Fd} {w : World}
    (h : untilFork type ans s.world = Except.ok (Except.ok (mode, pfd), w)) :
    Wired mode s.world.pipes s.live (childAtExec w mode pfd) <->
      forall st, st ∈ s.live ->
        (st.fp.fileno < s.world.maxfd <-> st.fp.fileno ≠ target mode) := by
  have hI : Inv s := inv_reachable hs
  constructor
  · intro ⟨htarget, hclosed⟩ st hst
    have hget := get_live_childAtExec hI h hst
    constructor
    · intro hlt hfd
      rw [if_pos hlt, hfd, htarget] at hget
      cases hget
    · intro hne
      apply Decidable.byContradiction
      intro hge
      rw [if_neg hge, if_neg hne] at hget
      rcases hclosed st hst with hnone | ⟨heq, _⟩
      · rw [hget] at hnone
        exact hI.opened st hst hnone
      · exact hne heq
  · intro hreached
    constructor
    · rw [get_childAtExec h, if_neg, if_pos rfl]
      intro ⟨hlt, hpos⟩
      rcases (entry_pos_iff hI _).mp hpos with ⟨st, hst, hfd⟩
      rw [maxfd_of_live hI (untilFork_ok h).1 hst, ← hfd] at hlt
      exact (hreached st hst).mp hlt hfd
    · intro st hst
      rw [get_live_childAtExec hI h hst]
      by_cases hfd : st.fp.fileno = target mode
      · right
        rw [if_neg (fun hlt => (hreached st hst).mp hlt hfd), if_pos hfd]
        exact ⟨hfd, rfl⟩
      · left
        rw [if_pos ((hreached st hst).mpr hfd)]

/-- A process started with descriptor 1 closed: its first stream gets
descriptor 1. -/
def stdoutClosed : State :=
  freshProcess [some (OpenFile.other 0), none, some (OpenFile.other 2)]

theorem child_wired_iff_standard :
    exists s pfd w, machine.run reuseStart reuseCalls = some s ∧
      untilFork ['r'] (popenSucceeds 102) s.world =
        Except.ok (Except.ok (Mode.r, pfd), w) ∧
      Wired Mode.r s.world.pipes s.live (childAtExec w Mode.r pfd) := by
  have hreach := fun s => Foundation.Machine.reachableUnder_of_run (t := s)
    (Foundation.Machine.ReachableUnder.init (initial_freshProcess _))
    (show machine.RunMeets Promised reuseStart reuseCalls by decide)
  refine ⟨_, _, _, rfl, rfl, ?_⟩
  apply (@child_wired_iff _ (hreach _ rfl) ['r'] (popenSucceeds 102)
    _ _ _ rfl).mpr
  decide

/-- The second child of a process whose first stream sits on descriptor 1
starts its command with standard output closed. -/
theorem second_child_loses_stdout :
    exists s pfd w, machine.ReachableUnder Promised s ∧
      untilFork ['r'] (popenSucceeds 101) s.world =
        Except.ok (Except.ok (Mode.r, pfd), w) ∧
      (childAtExec w Mode.r pfd).get STDOUT_FILENO = none ∧
      ¬ Wired Mode.r s.world.pipes s.live (childAtExec w Mode.r pfd) := by
  refine ⟨_, _, _, Foundation.Machine.reachableUnder_of_run
    (Foundation.Machine.ReachableUnder.init
      (initial_freshProcess
        [some (OpenFile.other 0), none, some (OpenFile.other 2)]))
    (show machine.RunMeets Promised stdoutClosed
      [Call.popen ['r'] (popenSucceeds 100)] by decide) rfl, rfl, ?_, ?_⟩
  · decide
  · decide

/-- With a limit of 3 the first stream gets descriptor 3, which the block has room
for and the loop in the second child does not reach. -/
example :
    (machine.run reuseStart [Call.popen ['r']
        { popenSucceeds 100 with sysconf := SysconfAnswer.limit 3 }]).map
      (fun s => match untilFork ['r'] (popenSucceeds 101) s.world with
        | Except.ok (Except.ok (mode, pfd), w) => (childAtExec w mode pfd).get 3
        | _ => none) = some (some (OpenFile.pipeRead 0)) := by
  decide

end Popen
end Apue
