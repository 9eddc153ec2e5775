import Apue.Ipc.Popen.Table

/-!
# The exits of popen_l and pclose_l

A call of `popen_l` that returns `NULL` after the pipe was made leaves behind
what it has got so far, and a call of `pclose_l` whose `fclose` fails has already
forgotten the child.
-/

namespace Apue
namespace Popen

open Foundation Kernel

/-!
# Up to fork
-/

def NoArray (ans : PopenAnswers) (w : World) : Prop :=
  w.childpid = none ∧
    (open_max w.openmax ans.sysconf = none ∨ ans.calloc = false)

def RefusedEarly (type : List Char) (ans : PopenAnswers) (w : World) : Prop :=
  mode? type = none ∨ NoArray ans w ∨ ans.pipe = false

def maxfdAtFork (ans : PopenAnswers) (w : World) : Nat :=
  match w.childpid with
  | some _ => w.maxfd
  | none => (open_max w.openmax ans.sysconf).getD 0

structure Ready (ans : PopenAnswers) (w w' : World) (pfd : Fd × Fd) : Prop where
  ends : pfd = (w.fds.pipe (OpenFile.pipeRead w.pipes)
    (OpenFile.pipeWrite w.pipes)).1
  piped : Piped w w' pfd
  processes : SameProcesses w w'
  maxfd : w'.maxfd = maxfdAtFork ans w
  table : exists table, w'.childpid = some table

inductive FirstTime (ans : PopenAnswers) (w : World) :
    Except Stop (Bool × World) -> Prop where
  | exited : NoArray ans w -> FirstTime ans w (Except.error Stop.exited)
  | failed {w' : World} : NoArray ans w -> FirstTime ans w (Except.ok (false, w'))
  | ready {w' : World} {table : List Pid} : ¬ NoArray ans w ->
      w'.childpid = some table -> w'.maxfd = maxfdAtFork ans w ->
      FirstTime ans w (Except.ok (true, w'))

theorem firstTime_cases (ans : PopenAnswers) (w : World) :
    FirstTime ans w (firstTime ans w) := by
  unfold firstTime
  cases htable : w.childpid with
  | some table =>
      refine FirstTime.ready (fun h => ?_) htable ?_
      · have hnone := h.left
        rw [htable] at hnone
        cases hnone
      · unfold maxfdAtFork
        rw [htable]
  | none =>
      dsimp only
      cases hmax : open_max w.openmax ans.sysconf with
      | none => exact FirstTime.exited ⟨htable, Or.inl hmax⟩
      | some n =>
          dsimp only
          split
          · next hcalloc =>
              refine FirstTime.ready (fun h => ?_) rfl ?_
              · rcases h.right with h | h
                · rw [hmax] at h
                  cases h
                · rw [hcalloc] at h
                  cases h
              · unfold maxfdAtFork
                rw [htable, hmax]
                rfl
          · next hcalloc =>
              exact FirstTime.failed
                ⟨htable, Or.inr (Bool.eq_false_iff.mpr hcalloc)⟩

inductive UntilFork (type : List Char) (ans : PopenAnswers) (w : World) :
    Except Stop (Except PopenFailure (Mode × (Fd × Fd)) × World) -> Prop where
  | exited : RefusedEarly type ans w ->
      UntilFork type ans w (Except.error Stop.exited)
  | refused {why : PopenFailure} {w' : World} : RefusedEarly type ans w ->
      w'.fds = w.fds -> w'.children = w.children ->
      UntilFork type ans w (Except.ok (Except.error why, w'))
  | ready {mode : Mode} {pfd : Fd × Fd} {w' : World} :
      ¬ RefusedEarly type ans w -> mode? type = some mode ->
      Ready ans w w' pfd ->
      UntilFork type ans w (Except.ok (Except.ok (mode, pfd), w'))

theorem untilFork_cases (type : List Char) (ans : PopenAnswers) (w : World) :
    UntilFork type ans w (untilFork type ans w) := by
  have hspec := @untilFork_ok type ans w
  unfold untilFork at hspec ⊢
  cases hmode : mode? type with
  | none => exact UntilFork.refused (Or.inl hmode) rfl rfl
  | some mode =>
      rw [hmode] at hspec
      dsimp only at hspec ⊢
      have hfirst := firstTime_cases ans w
      have hfirstOk := @firstTime_ok ans w
      generalize firstTime ans w = first at hfirst hfirstOk hspec
      cases hfirst with
      | exited hno => exact UntilFork.exited (Or.inr (Or.inl hno))
      | failed hno =>
          rcases hfirstOk rfl with ⟨hfds, _, hsame, _⟩
          exact UntilFork.refused (Or.inr (Or.inl hno)) hfds hsame.children
      | ready hready htable hmaxfd =>
          rcases hfirstOk rfl with ⟨hfds, hpipes, hsame, _⟩
          dsimp only at hspec ⊢
          cases hpipe : ans.pipe with
          | false =>
              exact UntilFork.refused (Or.inr (Or.inr hpipe)) hfds hsame.children
          | true =>
              rw [hpipe, if_pos rfl] at hspec
              rw [if_pos rfl]
              rcases hspec rfl with ⟨hbefore, hpiped⟩
              refine UntilFork.ready ?_ hmode ⟨?_, (hpiped _ _ rfl).right,
                hbefore.processes, hmaxfd, _, htable⟩
              · rintro (h | h | h)
                · rw [hmode] at h
                  cases h
                · exact hready h
                · rw [hpipe] at h
                  cases h
              · rw [hfds, hpipes]

/-!
# Failing calls of popen_l
-/

/-- Whenever `NULL` is returned, the descriptors are as before and there is no
child of this call. -/
def CleanFailure (type : List Char) (ans : PopenAnswers) (w : World) : Prop :=
  forall why w', popen_l type ans w = Except.ok (Except.error why, w') ->
    (forall d, w'.fds.get d = w.fds.get d) ∧ w'.children = w.children

theorem cleanFailure_ready {type : List Char} {ans : PopenAnswers}
    {w w₁ : World} {mode : Mode} {pfd : Fd × Fd}
    (huntil : untilFork type ans w = Except.ok (Except.ok (mode, pfd), w₁))
    (hready : Ready ans w w₁ pfd) :
    CleanFailure type ans w ↔ ans.fork ≠ none ∧ ans.fdopen = true := by
  unfold CleanFailure popen_l
  rw [huntil]
  dsimp only
  cases hfork : ans.fork with
  | none =>
      refine iff_of_false (fun hclean => ?_) (fun h => h.left rfl)
      have hget := (hclean _ _ rfl).left pfd.1
      rw [hready.piped.readEnd, hready.piped.fst_fresh] at hget
      cases hget
  | some pid =>
      unfold parentContinues
      cases hfdopen : ans.fdopen with
      | true =>
          refine iff_of_true (fun why w' h => ?_) ⟨Option.some_ne_none pid, rfl⟩
          dsimp only at h
          rw [if_pos rfl] at h
          split at h
          · cases h
          · cases h
      | false =>
          refine iff_of_false (fun hclean => ?_) (fun h => nomatch h.right)
          have hchildren := (hclean _ _ rfl).right
          have hlen := congrArg List.length hchildren
          change (w₁.children ++ [_]).length = w.children.length at hlen
          rw [hready.processes.children, List.length_append] at hlen
          exact absurd hlen (Nat.succ_ne_self _)

/-- Exactly when a call that returns `NULL` leaves nothing behind. -/
theorem cleanFailure_iff (type : List Char) (ans : PopenAnswers) (w : World) :
    CleanFailure type ans w ↔
      RefusedEarly type ans w ∨ (ans.fork ≠ none ∧ ans.fdopen = true) := by
  have hcases := untilFork_cases type ans w
  generalize huntil : untilFork type ans w = r at hcases
  cases hcases with
  | exited hearly =>
      refine iff_of_true (fun why w' h => ?_) (Or.inl hearly)
      unfold popen_l at h
      rw [huntil] at h
      cases h
  | refused hearly hfds hchildren =>
      refine iff_of_true (fun why w' h => ?_) (Or.inl hearly)
      unfold popen_l at h
      rw [huntil] at h
      cases h
      exact ⟨fun d => by rw [hfds], hchildren⟩
  | ready hnot _ hready =>
      rw [cleanFailure_ready huntil hready]
      constructor
      · exact Or.inr
      · rintro (h | h)
        · exact absurd h hnot
        · exact h

/-- `fork` fails: `NULL` is returned and both ends of the pipe stay open. -/
theorem fork_failure_leaks :
    let w := (freshProcess [some (OpenFile.other 0), some (OpenFile.other 1),
      some (OpenFile.other 2)]).world
    let ans := { popenSucceeds 100 with fork := none }
    exists w', popen_l ['r'] ans w =
        Except.ok (Except.error PopenFailure.fork, w') ∧
      w.fds.get 3 = none ∧ w'.fds.get 3 = some (OpenFile.pipeRead 0) ∧
      w.fds.get 4 = none ∧ w'.fds.get 4 = some (OpenFile.pipeWrite 0) ∧
      ¬ CleanFailure ['r'] ans w := by
  refine ⟨_, rfl, rfl, rfl, rfl, rfl, fun hclean => ?_⟩
  have hget := (hclean _ _ rfl).left 3
  cases hget

/-!
# pclose_l and the child
-/

def firstAnswer (answers : List WaitAnswer) : Option WaitAnswer :=
  answers.find? (fun a => a ≠ WaitAnswer.eintr)

/-- The child of the stream has been reaped and its status is what is returned,
or `waitpid` failed and not because it was interrupted. -/
def Accounted (st : Stream) (ans : PcloseAnswers) (w w' : World)
    (r : PcloseResult) : Prop :=
  (exists stat, r = PcloseResult.status stat ∧
      firstAnswer ans.waitpid = some (WaitAnswer.status stat) ∧
      w.childOf st.pid = some st.child ∧ w'.childOf st.pid = none) ∨
    (r = PcloseResult.waitFailed ∧
      exists gone, firstAnswer ans.waitpid = some (WaitAnswer.failed gone))

theorem childOf_reap (w : World) (pid : Pid) : (w.reap pid).childOf pid = none := by
  unfold World.childOf World.reap
  rw [Option.map_eq_none_iff, List.find?_eq_none]
  intro c hc
  have hne := (List.mem_filter.mp hc).right
  simpa using hne

theorem waitLoop_answer {pid : Pid} {w w' : World} {answers : List WaitAnswer}
    {r : PcloseResult} (h : waitLoop pid w answers = Except.ok (r, w')) :
    (exists stat, r = PcloseResult.status stat ∧
        firstAnswer answers = some (WaitAnswer.status stat) ∧
        w'.childOf pid = none) ∨
      (r = PcloseResult.waitFailed ∧
        exists gone, firstAnswer answers = some (WaitAnswer.failed gone)) := by
  induction answers with
  | nil => cases h
  | cons a rest ih =>
      cases a with
      | eintr => exact ih h
      | failed gone =>
          cases h
          exact Or.inr ⟨rfl, gone, rfl⟩
      | status stat =>
          cases h
          exact Or.inl ⟨stat, rfl, rfl, childOf_reap w pid⟩

theorem pclose_l_live {s : State} (hI : Inv s) {st : Stream} (hst : st ∈ s.live)
    (ans : PcloseAnswers) :
    exists w₁, (forall closed, ans.fclose = FcloseAnswer.eof closed ->
        pclose_l st.fp ans s.world = Except.ok (PcloseResult.fcloseFailed, w₁)) ∧
      (ans.fclose = FcloseAnswer.ok ->
        pclose_l st.fp ans s.world = waitLoop st.pid w₁ ans.waitpid) := by
  have hentry := hI.entry_pid st hst
  have hpos := hI.pid_pos st hst
  unfold pclose_l
  cases htable : s.world.childpid with
  | none =>
      unfold World.entry at hentry
      rw [htable] at hentry
      dsimp only at hentry
      lia
  | some table =>
      dsimp only
      unfold pcloseFrom
      rw [entry_of_table htable, List.getD_eq_getElem?_getD] at hentry
      dsimp only
      cases hread : table[st.fp.fileno]? with
      | none =>
          rw [hread] at hentry
          change (0 : Int) = st.pid at hentry
          lia
      | some pid =>
          rw [hread] at hentry
          change pid = st.pid at hentry
          dsimp only
          rw [hentry, if_neg (by lia)]
          cases ans.fclose with
          | ok =>
              refine ⟨_, ?_, fun _ => rfl⟩
              intro closed h
              cases h
          | eof closed =>
              refine ⟨_, fun _ _ => rfl, ?_⟩
              intro h
              cases h

/-- Exactly when `pclose_l` accounts for the child of a stream. -/
theorem accounted_iff {s : State} (hs : machine.ReachableUnder Promised s)
    {st : Stream} (hst : st ∈ s.live) {ans : PcloseAnswers} {r : PcloseResult}
    {w' : World} (h : pclose_l st.fp ans s.world = Except.ok (r, w')) :
    Accounted st ans s.world w' r ↔ ans.fclose = FcloseAnswer.ok := by
  have hI := inv_reachable hs
  rcases pclose_l_live hI hst ans with ⟨w₁, hfailed, hwaits⟩
  cases hanswer : ans.fclose with
  | ok =>
      refine iff_of_true ?_ rfl
      rw [hwaits hanswer] at h
      rcases waitLoop_answer h with ⟨stat, hr, hfirst, hgone⟩ | hwait
      · exact Or.inl ⟨stat, hr, hfirst, childOf_live hI hst, hgone⟩
      · exact Or.inr hwait
  | eof closed =>
      refine iff_of_false ?_ (fun heq => nomatch heq)
      rw [hfailed closed hanswer] at h
      cases h
      rintro (⟨stat, hr, -⟩ | ⟨hr, -⟩)
      · cases hr
      · cases hr

/-- A stream is opened and closed, and `waitpid` is interrupted once. -/
theorem accounted_interrupted_wait :
    let st := Stream.opened { fileno := 3 } (popenSucceeds 100) reuseStart.world
    let ans : PcloseAnswers :=
      { fclose := FcloseAnswer.ok
        waitpid := [WaitAnswer.eintr, WaitAnswer.status 7] }
    exists s w', machine.run reuseStart [Call.popen ['r'] (popenSucceeds 100)] =
        some s ∧
      pclose_l st.fp ans s.world = Except.ok (PcloseResult.status 7, w') ∧
      Accounted st ans s.world w' (PcloseResult.status 7) := by
  refine ⟨_, _, rfl, rfl, ?_⟩
  have hmeets : machine.RunMeets Promised reuseStart
      [Call.popen ['r'] (popenSucceeds 100)] := by decide
  have hs := Machine.reachableUnder_of_run
    (Machine.ReachableUnder.init (initial_freshProcess _)) hmeets rfl
  exact (accounted_iff hs List.mem_cons_self rfl).mpr rfl

/-- `fclose` cannot write what is still buffered: the entry is cleared, and the
child is running and nobody has its pid. -/
theorem fclose_failure_forgets :
    let st := Stream.opened { fileno := 4 } (popenSucceeds 100) reuseStart.world
    let ans : PcloseAnswers :=
      { fclose := FcloseAnswer.eof true, waitpid := [WaitAnswer.status 7] }
    exists s w', machine.run reuseStart [Call.popen ['w'] (popenSucceeds 100)] =
        some s ∧ st ∈ s.live ∧
      pclose_l st.fp ans s.world = Except.ok (PcloseResult.fcloseFailed, w') ∧
      w'.entry 4 = 0 ∧ w'.childOf 100 = some 0 ∧
      ¬ Accounted st ans s.world w' PcloseResult.fcloseFailed := by
  refine ⟨_, _, rfl, List.mem_cons_self, rfl, rfl, rfl, ?_⟩
  rintro (⟨stat, hr, -⟩ | ⟨hr, -⟩)
  · cases hr
  · cases hr

end Popen
end Apue
