import Apue.Ipc.Popen.Model

/-!
# What one call does

Each call is described once, by the fields of the world it may change.  The
invariants of whole runs are derived from these descriptions and never unfold
`popen_l` or `pclose_l` again.
-/

namespace Apue
namespace Popen

open Kernel

/-!
# Entries of the array
-/

theorem getD_set (table : List Pid) (d e : Fd) (pid : Pid)
    (hd : d < table.length) :
    (table.set d pid).getD e 0 = if e = d then pid else table.getD e 0 := by
  rw [List.getD_eq_getElem?_getD, List.getElem?_set]
  by_cases h : e = d
  · rw [if_pos h.symm, if_pos h, if_pos hd]
    rfl
  · rw [if_neg (Ne.symm h), if_neg h, List.getD_eq_getElem?_getD]

theorem entry_of_table {w : World} {table : List Pid}
    (h : w.childpid = some table) (d : Fd) :
    w.entry d = table.getD d 0 := by
  unfold World.entry
  rw [h]

theorem entry_congr {w w' : World} (h : w'.childpid = w.childpid) (d : Fd) :
    w'.entry d = w.entry d := by
  unfold World.entry
  rw [h]

theorem lt_length_of_entry_ne_zero {w : World} {table : List Pid}
    (htable : w.childpid = some table) {d : Fd} (h : w.entry d ≠ 0) :
    d < table.length := by
  rw [entry_of_table htable, List.getD_eq_getElem?_getD] at h
  apply Nat.lt_of_not_le
  intro hle
  rw [List.getElem?_eq_none hle] at h
  exact h rfl

theorem store_ok {w w' : World} {d : Fd} {pid : Pid}
    (h : w.store d pid = Except.ok w') :
    exists table, w.childpid = some table ∧ d < table.length ∧
      w' = { w with childpid := some (table.set d pid) } := by
  unfold World.store at h
  cases htable : w.childpid with
  | none =>
      rw [htable] at h
      cases h
  | some table =>
      rw [htable] at h
      by_cases hd : d < table.length
      · simp only [if_pos hd] at h
        cases h
        exact ⟨table, rfl, hd, rfl⟩
      · simp only [if_neg hd] at h
        cases h

/-!
# The first call

Allocating the array records nothing: the entries read zero before and after.
-/

def Sized (w : World) : Prop :=
  forall table, w.childpid = some table -> table.length = room w.maxfd

structure SameProcesses (w w' : World) : Prop where
  children : w'.children = w.children
  forks : w'.forks = w.forks
  awaited : w'.awaited = w.awaited

theorem entry_replicate (n : Nat) (d : Fd) :
    (List.replicate n (0 : Pid)).getD d 0 = 0 := by
  rw [List.getD_eq_getElem?_getD, List.getElem?_replicate]
  by_cases h : d < n
  · rw [if_pos h]
    rfl
  · rw [if_neg h]
    rfl

theorem firstTime_ok {ans : PopenAnswers} {w w' : World} {ready : Bool}
    (h : firstTime ans w = Except.ok (ready, w')) :
    w'.fds = w.fds ∧ w'.pipes = w.pipes ∧ SameProcesses w w' ∧
      (forall d, w'.entry d = w.entry d) ∧ (Sized w -> Sized w') ∧
      (w.childpid ≠ none -> w'.maxfd = w.maxfd) := by
  unfold firstTime at h
  cases htable : w.childpid with
  | some table =>
      rw [htable] at h
      cases h
      exact ⟨rfl, rfl, ⟨rfl, rfl, rfl⟩, fun d => rfl, fun hs => hs, fun _ => rfl⟩
  | none =>
      rw [htable] at h
      cases hmax : open_max w.openmax ans.sysconf with
      | none =>
          rw [hmax] at h
          cases h
      | some n =>
          simp only [hmax] at h
          cases hcalloc : ans.calloc with
          | true =>
              rw [hcalloc, if_pos rfl] at h
              cases h
              refine ⟨rfl, rfl, ⟨rfl, rfl, rfl⟩, ?_, ?_, fun hsome => absurd rfl hsome⟩
              · intro d
                rw [entry_of_table rfl, entry_replicate]
                unfold World.entry
                rw [htable]
              · intro _ table hsome
                cases hsome
                exact List.length_replicate
          | false =>
              rw [hcalloc, if_neg (by simp)] at h
              cases h
              refine ⟨rfl, rfl, ⟨rfl, rfl, rfl⟩, ?_, ?_, fun hsome => absurd rfl hsome⟩
              · intro d
                exact entry_congr htable.symm d
              · intro _ table hsome
                cases hsome

/-!
# popen_l up to fork
-/

structure BeforeFork (w w' : World) : Prop where
  processes : SameProcesses w w'
  entry : forall d, w'.entry d = w.entry d
  sized : Sized w -> Sized w'
  maxfd : w.childpid ≠ none -> w'.maxfd = w.maxfd
  opened : forall d, w.fds.IsOpen d -> w'.fds.get d = w.fds.get d

structure Piped (w w' : World) (pfd : Fd × Fd) : Prop where
  lt : pfd.1 < pfd.2
  fst_fresh : w.fds.get pfd.1 = none
  snd_fresh : w.fds.get pfd.2 = none
  readEnd : w'.fds.get pfd.1 = some (OpenFile.pipeRead w.pipes)
  writeEnd : w'.fds.get pfd.2 = some (OpenFile.pipeWrite w.pipes)
  other : forall d, d ≠ pfd.1 -> d ≠ pfd.2 -> w'.fds.get d = w.fds.get d

theorem Piped.ne_of_isOpen {w w' : World} {pfd : Fd × Fd}
    (hp : Piped w w' pfd) {d : Fd} (hd : w.fds.IsOpen d) :
    d ≠ pfd.1 ∧ d ≠ pfd.2 := by
  constructor
  · intro heq
    rw [heq] at hd
    exact hd hp.fst_fresh
  · intro heq
    rw [heq] at hd
    exact hd hp.snd_fresh

theorem untilFork_ok {type : List Char} {ans : PopenAnswers} {w w' : World}
    {r : Except PopenFailure (Mode × (Fd × Fd))}
    (h : untilFork type ans w = Except.ok (r, w')) :
    BeforeFork w w' ∧ forall mode pfd, r = Except.ok (mode, pfd) ->
      mode? type = some mode ∧ Piped w w' pfd := by
  unfold untilFork at h
  cases hmode : mode? type with
  | none =>
      rw [hmode] at h
      cases h
      refine ⟨⟨⟨rfl, rfl, rfl⟩, fun d => rfl, fun hs => hs, fun _ => rfl,
        fun d _ => rfl⟩, ?_⟩
      intro mode pfd hr
      cases hr
  | some mode =>
      simp only [hmode] at h
      split at h
      · cases h
      · rename_i w₁ hfirst
        rcases firstTime_ok hfirst with ⟨hfds, _, hsame, hentry, hsized, hmaxfd⟩
        cases h
        refine ⟨⟨hsame, hentry, hsized, hmaxfd, fun d _ => by rw [hfds]⟩, ?_⟩
        intro mode pfd hr
        cases hr
      · rename_i w₁ hfirst
        rcases firstTime_ok hfirst with ⟨hfds, hpipes, hsame, hentry, hsized, hmaxfd⟩
        cases hpipe : ans.pipe with
        | false =>
            simp only [hpipe, Bool.false_eq_true, if_false] at h
            cases h
            refine ⟨⟨hsame, hentry, hsized, hmaxfd, fun d _ => by rw [hfds]⟩, ?_⟩
            intro mode pfd hr
            cases hr
        | true =>
            simp only [hpipe, if_true] at h
            rw [hfds, hpipes] at h
            generalize hends : w.fds.pipe (OpenFile.pipeRead w.pipes)
              (OpenFile.pipeWrite w.pipes) = ends at h
            rcases ends with ⟨pfd, fds⟩
            rcases FdTable.pipe_spec _ _ _ hends with
              ⟨hrdFree, hwrFree, hlt, hrdOpen, hwrOpen, hother⟩
            cases h
            have hpiped : Piped w
                { w₁ with fds := fds, pipes := w.pipes + 1 } pfd :=
              ⟨hlt, hrdFree, hwrFree, hrdOpen, hwrOpen, hother⟩
            constructor
            · constructor
              · exact ⟨hsame.children, hsame.forks, hsame.awaited⟩
              · exact hentry
              · exact hsized
              · exact hmaxfd
              · intro d hd
                rcases hpiped.ne_of_isOpen hd with ⟨hrd, hwr⟩
                exact hother d hrd hwr
            · intro mode' pfd' hr
              cases hr
              exact ⟨rfl, hpiped⟩

/-!
# popen_l
-/

structure Forked (ans : PopenAnswers) (w w' : World) (c : Child) : Prop where
  pid : ans.fork = some c.pid
  id : c.id = w.forks
  children : w'.children = w.children ++ [c]
  forks : w'.forks = w.forks + 1
  awaited : w'.awaited = w.awaited

/-- The stream a successful call returns: its descriptor was free, is open
now, and its entry is the pid of the child. -/
structure Returned (w w' : World) (c : Child) (fp : FILE) : Prop where
  fresh : w.fds.get fp.fileno = none
  opened : w'.fds.IsOpen fp.fileno
  entry : forall d,
    w'.entry d = if d = fp.fileno then c.pid else w.entry d

inductive PopenEffect (ans : PopenAnswers) (w w' : World) :
    Except PopenFailure FILE -> Prop where
  | failed {why : PopenFailure} : SameProcesses w w' ->
      (forall d, w'.entry d = w.entry d) ->
      PopenEffect ans w w' (Except.error why)
  | leftChild {why : PopenFailure} {c : Child} : Forked ans w w' c ->
      (forall d, w'.entry d = w.entry d) ->
      PopenEffect ans w w' (Except.error why)
  | returned {c : Child} {fp : FILE} : Forked ans w w' c ->
      Returned w w' c fp ->
      PopenEffect ans w w' (Except.ok fp)

structure PopenFrame (w w' : World) : Prop where
  opened : forall d, w.fds.IsOpen d -> w'.fds.get d = w.fds.get d
  sized : Sized w -> Sized w'

theorem parentEnds_fst_ne_snd (mode : Mode) {pfd : Fd × Fd}
    (h : pfd.1 < pfd.2) : (parentEnds mode pfd).1 ≠ (parentEnds mode pfd).2 := by
  cases mode with
  | r =>
      change pfd.1 ≠ pfd.2
      lia
  | w =>
      change pfd.2 ≠ pfd.1
      lia

theorem parentEnds_cases (mode : Mode) (pfd : Fd × Fd) :
    parentEnds mode pfd = (pfd.1, pfd.2) ∨
      parentEnds mode pfd = (pfd.2, pfd.1) := by
  cases mode with
  | r => exact Or.inl rfl
  | w => exact Or.inr rfl

theorem Piped.parent_fresh {w w' : World} {pfd : Fd × Fd}
    (hp : Piped w w' pfd) (mode : Mode) :
    w.fds.get (parentEnds mode pfd).1 = none ∧
      w'.fds.IsOpen (parentEnds mode pfd).1 := by
  unfold FdTable.IsOpen
  rcases parentEnds_cases mode pfd with hends | hends
  · rw [hends]
    refine ⟨hp.fst_fresh, ?_⟩
    rw [hp.readEnd]
    exact Option.some_ne_none _
  · rw [hends]
    refine ⟨hp.snd_fresh, ?_⟩
    rw [hp.writeEnd]
    exact Option.some_ne_none _

theorem Piped.ne_parent_closed {w w' : World} {pfd : Fd × Fd}
    (hp : Piped w w' pfd) (mode : Mode) {d : Fd} (hd : w.fds.IsOpen d) :
    d ≠ (parentEnds mode pfd).2 := by
  rcases hp.ne_of_isOpen hd with ⟨hfst, hsnd⟩
  rcases parentEnds_cases mode pfd with hends | hends
  · rw [hends]
    exact hsnd
  · rw [hends]
    exact hfst

theorem parentContinues_ok {mode : Mode} {pfd : Fd × Fd} {pid : Pid}
    {fdopen : Bool} {w w' : World} {r : Except PopenFailure FILE}
    (h : parentContinues mode pfd pid fdopen w = Except.ok (r, w')) :
    SameProcesses w w' ∧ (Sized w -> Sized w') ∧
      w'.fds = w.fds.close (parentEnds mode pfd).2 ∧
      ((r = Except.error PopenFailure.fdopen ∧
          forall d, w'.entry d = w.entry d) ∨
        (r = Except.ok { fileno := (parentEnds mode pfd).1 } ∧
          forall d, w'.entry d =
            if d = (parentEnds mode pfd).1 then pid else w.entry d)) := by
  unfold parentContinues at h
  cases fdopen with
  | false =>
      simp only [Bool.false_eq_true, if_false] at h
      cases h
      exact ⟨⟨rfl, rfl, rfl⟩, fun hs => hs, rfl,
        Or.inl ⟨rfl, fun d => entry_congr rfl d⟩⟩
  | true =>
      simp only [if_true] at h
      split at h
      · cases h
      · rename_i w₂ hstore
        cases h
        rcases store_ok hstore with ⟨table, htable, hlt, heq⟩
        subst heq
        have hw : w.childpid = some table := htable
        refine ⟨⟨rfl, rfl, rfl⟩, ?_, rfl, Or.inr ⟨rfl, ?_⟩⟩
        · intro hs table' htable'
          cases htable'
          rw [List.length_set]
          exact hs table hw
        · intro d
          rw [entry_of_table rfl, getD_set table _ d pid hlt,
            entry_of_table hw]

theorem popen_l_ok {type : List Char} {ans : PopenAnswers} {w w' : World}
    {r : Except PopenFailure FILE}
    (h : popen_l type ans w = Except.ok (r, w')) :
    PopenEffect ans w w' r ∧ PopenFrame w w' := by
  unfold popen_l at h
  split at h
  · cases h
  · rename_i why w₁ huntil
    rcases untilFork_ok huntil with ⟨hbefore, _⟩
    cases h
    exact ⟨PopenEffect.failed hbefore.processes hbefore.entry,
      ⟨hbefore.opened, hbefore.sized⟩⟩
  · rename_i mode pfd w₁ huntil
    rcases untilFork_ok huntil with ⟨hbefore, hready⟩
    rcases hready mode pfd rfl with ⟨_, hpiped⟩
    cases hfork : ans.fork with
    | none =>
        simp only [hfork] at h
        cases h
        exact ⟨PopenEffect.failed hbefore.processes hbefore.entry,
          ⟨hbefore.opened, hbefore.sized⟩⟩
    | some pid =>
        simp only [hfork] at h
        rcases parentContinues_ok h with ⟨hsame, hsized, hfds, hresult⟩
        have hforked : Forked ans w w'
            { id := w₁.forks, pid := pid, fds := childAtExec w₁ mode pfd } := by
          constructor
          · exact hfork
          · exact hbefore.processes.forks
          · rw [hsame.children, ← hbefore.processes.children]
            rfl
          · rw [hsame.forks, ← hbefore.processes.forks]
            rfl
          · rw [hsame.awaited, ← hbefore.processes.awaited]
            rfl
        have hframe : PopenFrame w w' := by
          constructor
          · intro d hd
            rw [hfds, FdTable.get_close, if_neg (hpiped.ne_parent_closed mode hd)]
            exact hbefore.opened d hd
          · intro hs
            exact hsized (hbefore.sized hs)
        rcases hresult with ⟨hr, hsameEntry⟩ | ⟨hr, hnewEntry⟩
        · rw [hr]
          exact ⟨PopenEffect.leftChild hforked
            fun d => (hsameEntry d).trans (hbefore.entry d), hframe⟩
        · rw [hr]
          rcases hpiped.parent_fresh mode with ⟨hfree, hopen⟩
          refine ⟨PopenEffect.returned hforked ?_, hframe⟩
          constructor
          · exact hfree
          · unfold FdTable.IsOpen
            rw [hfds, FdTable.get_close,
              if_neg (parentEnds_fst_ne_snd mode hpiped.lt)]
            exact hopen
          · intro d
            rw [hnewEntry d]
            split
            · rfl
            · exact hbefore.entry d

/-!
# pclose_l
-/

def World.waitsFor (w : World) (fp : FILE) : FcloseAnswer -> List (Option Nat)
  | FcloseAnswer.ok => [w.childOf (w.entry fp.fileno)]
  | FcloseAnswer.eof _ => []

structure Closed (fp : FILE) (answer : FcloseAnswer) (w w' : World) :
    Prop where
  recorded : w.entry fp.fileno ≠ 0
  entry : forall d, w'.entry d = if d = fp.fileno then 0 else w.entry d
  fds : forall d, d ≠ fp.fileno -> w'.fds.get d = w.fds.get d
  sized : Sized w -> Sized w'
  forks : w'.forks = w.forks
  children : w'.children = w.children ∨
    w'.children = (w.reap (w.entry fp.fileno)).children
  awaited : w'.awaited = w.awaited ++ w.waitsFor fp answer

theorem waitLoop_ok {pid : Pid} {w w' : World} {answers : List WaitAnswer}
    {r : PcloseResult} (h : waitLoop pid w answers = Except.ok (r, w')) :
    w' = w ∨ w' = w.reap pid := by
  induction answers with
  | nil =>
      cases h
  | cons a rest ih =>
      cases a with
      | eintr =>
          exact ih h
      | failed childGone =>
          cases childGone with
          | false =>
              cases h
              exact Or.inl rfl
          | true =>
              cases h
              exact Or.inr rfl
      | status stat =>
          cases h
          exact Or.inr rfl

theorem fclose_get (w : World) (fp : FILE) (answer : FcloseAnswer) {d : Fd}
    (hd : d ≠ fp.fileno) : (w.fclose fp answer).fds.get d = w.fds.get d := by
  cases answer with
  | ok =>
      show (w.fds.close fp.fileno).get d = w.fds.get d
      rw [FdTable.get_close, if_neg hd]
  | eof closed =>
      cases closed with
      | false => rfl
      | true =>
          show (w.fds.close fp.fileno).get d = w.fds.get d
          rw [FdTable.get_close, if_neg hd]

theorem fclose_rest (w : World) (fp : FILE) (answer : FcloseAnswer) :
    (w.fclose fp answer).childpid = w.childpid ∧
      (w.fclose fp answer).maxfd = w.maxfd ∧
      SameProcesses w (w.fclose fp answer) := by
  cases answer with
  | ok => exact ⟨rfl, rfl, rfl, rfl, rfl⟩
  | eof closed =>
      cases closed with
      | false => exact ⟨rfl, rfl, rfl, rfl, rfl⟩
      | true => exact ⟨rfl, rfl, rfl, rfl, rfl⟩

structure Cleared (fp : FILE) (w w₁ : World) : Prop where
  entry : forall d, w₁.entry d = if d = fp.fileno then 0 else w.entry d
  fds : forall d, d ≠ fp.fileno -> w₁.fds.get d = w.fds.get d
  sized : Sized w -> Sized w₁
  processes : SameProcesses w w₁

theorem cleared_fclose {w : World} {table : List Pid} {fp : FILE}
    (htable : w.childpid = some table) (hlt : fp.fileno < table.length)
    (answer : FcloseAnswer) :
    Cleared fp w
      (World.fclose { w with childpid := some (table.set fp.fileno 0) } fp
        answer) := by
  rcases fclose_rest { w with childpid := some (table.set fp.fileno 0) } fp
    answer with ⟨htable₁, hmax₁, hsame₁⟩
  constructor
  · intro d
    rw [entry_of_table htable₁, getD_set table fp.fileno d 0 hlt,
      entry_of_table htable]
  · intro d hd
    exact fclose_get { w with childpid := some (table.set fp.fileno 0) } fp
      answer hd
  · intro hs table' htable'
    rw [htable₁] at htable'
    cases htable'
    rw [List.length_set, hmax₁]
    exact hs table htable
  · exact ⟨hsame₁.children, hsame₁.forks, hsame₁.awaited⟩

theorem Cleared.childOf {fp : FILE} {w w₁ : World} (h : Cleared fp w w₁)
    (pid : Pid) : w₁.childOf pid = w.childOf pid := by
  unfold World.childOf
  rw [h.processes.children]

theorem Cleared.closed {fp : FILE} {answer : FcloseAnswer} {w w₁ : World}
    {children : List Child} {awaited : List (Option Nat)}
    (h : Cleared fp w w₁) (hrecorded : w.entry fp.fileno ≠ 0)
    (hchildren : children = w.children ∨
      children = (w.reap (w.entry fp.fileno)).children)
    (hawaited : awaited = w.awaited ++ w.waitsFor fp answer) :
    Closed fp answer w { w₁ with children := children, awaited := awaited } :=
  ⟨hrecorded, h.entry, h.fds, h.sized, h.processes.forks, hchildren, hawaited⟩

theorem Cleared.unwaited {fp : FILE} {w w₁ : World} (h : Cleared fp w w₁)
    (hrecorded : w.entry fp.fileno ≠ 0) (closed : Bool) :
    Closed fp (FcloseAnswer.eof closed) w w₁ := by
  have hawaited : w₁.awaited =
      w.awaited ++ w.waitsFor fp (FcloseAnswer.eof closed) :=
    h.processes.awaited.trans (List.append_nil w.awaited).symm
  exact h.closed hrecorded (Or.inl h.processes.children) hawaited

theorem Cleared.waited {fp : FILE} {w w₁ w' : World}
    {answers : List WaitAnswer} {r : PcloseResult} (h : Cleared fp w w₁)
    (hrecorded : w.entry fp.fileno ≠ 0)
    (hwait : waitLoop (w.entry fp.fileno)
      { w₁ with awaited := w₁.awaited ++ [w₁.childOf (w.entry fp.fileno)] }
      answers = Except.ok (r, w')) : Closed fp FcloseAnswer.ok w w' := by
  have hawaited : w₁.awaited ++ [w₁.childOf (w.entry fp.fileno)] =
      w.awaited ++ w.waitsFor fp FcloseAnswer.ok := by
    rw [h.processes.awaited, h.childOf]
    rfl
  rcases waitLoop_ok hwait with heq | heq
  · rw [heq]
    exact h.closed hrecorded (Or.inl h.processes.children) hawaited
  · rw [heq]
    apply h.closed hrecorded _ hawaited
    right
    unfold World.reap
    rw [h.processes.children]

theorem pcloseFrom_ok {fp : FILE} {ans : PcloseAnswers} {w w' : World} {table : List Pid}
    {r : PcloseResult} (htable : w.childpid = some table)
    (h : pcloseFrom table fp ans w = Except.ok (r, w')) :
    (w.entry fp.fileno = 0 ∧ w' = w) ∨ Closed fp ans.fclose w w' := by
  unfold pcloseFrom at h
  cases hread : table[fp.fileno]? with
  | none =>
      rw [hread] at h
      cases h
  | some pid =>
      simp only [hread] at h
      have hentry : w.entry fp.fileno = pid := by
        rw [entry_of_table htable, List.getD_eq_getElem?_getD, hread]
        rfl
      rw [← hentry] at h
      split at h
      · next hzero =>
          cases h
          exact Or.inl ⟨hzero, rfl⟩
      · next hrecorded =>
          right
          have hcleared := cleared_fclose htable
            (lt_length_of_entry_ne_zero htable hrecorded) ans.fclose
          cases hanswer : ans.fclose with
          | eof closed =>
              rw [hanswer] at h hcleared
              cases h
              exact hcleared.unwaited hrecorded closed
          | ok =>
              rw [hanswer] at h hcleared
              exact hcleared.waited hrecorded h

theorem pclose_l_ok {fp : Option FILE} {ans : PcloseAnswers} {w w' : World}
    {r : PcloseResult} (h : pclose_l fp ans w = Except.ok (r, w')) :
    ((forall f, fp = some f -> w.entry f.fileno = 0) ∧ w' = w) ∨
      exists f, fp = some f ∧ Closed f ans.fclose w w' := by
  unfold pclose_l at h
  cases htable : w.childpid with
  | none =>
      rw [htable] at h
      cases h
      left
      refine ⟨fun f _ => ?_, rfl⟩
      unfold World.entry
      rw [htable]
  | some table =>
      rw [htable] at h
      cases fp with
      | none => cases h
      | some f =>
          rcases pcloseFrom_ok htable h with ⟨hzero, heq⟩ | hclosed
          · left
            refine ⟨fun f' hf => ?_, heq⟩
            cases hf
            exact hzero
          · exact Or.inr ⟨f, rfl, hclosed⟩

end Popen
end Apue
