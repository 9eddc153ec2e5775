import Apue.Foundation.Snoc
import Apue.Ipc.Popen.Effects

/-!
# The array of child pids over whole runs

The array is indexed by descriptors, which the kernel hands out again and again,
so its meaning is an invariant of runs: an entry is set exactly for the streams
the caller holds, and it is the pid of the child that the stream's own call
forked.
-/

namespace Apue
namespace Popen

open Foundation Kernel

structure Inv (s : State) : Prop where
  sized : Sized s.world
  entry_iff : forall d, s.world.entry d ≠ 0 <->
    exists st, st ∈ s.live ∧ st.fp.fileno = d
  entry_pid : forall st, st ∈ s.live -> s.world.entry st.fp.fileno = st.pid
  opened : forall st, st ∈ s.live -> s.world.fds.IsOpen st.fp.fileno
  fp_inj : forall a b, a ∈ s.live -> b ∈ s.live -> a.fp = b.fp -> a = b
  child_inj : forall a b, a ∈ s.live -> b ∈ s.live -> a.child = b.child -> a = b
  pid_pos : forall st, st ∈ s.live -> 0 < st.pid
  forked : forall st, st ∈ s.live ->
    exists c, c ∈ s.world.children ∧ c.id = st.child ∧ c.pid = st.pid
  pid_inj : forall a b, a ∈ s.world.children -> b ∈ s.world.children ->
    a.pid = b.pid -> a = b
  id_lt : forall c, c ∈ s.world.children -> c.id < s.world.forks
  awaited_nodup : s.world.awaited.Nodup
  awaited_gone : forall a, a ∈ s.world.awaited -> exists id, a = some id ∧
    id < s.world.forks ∧ forall st, st ∈ s.live -> st.child ≠ id

theorem inv_initial {s : State} (h : Initial s) : Inv s := by
  rcases h with ⟨hlive, _, _, htable, hchildren, hforks, hawaited⟩
  constructor
  · intro table hsome
    rw [htable] at hsome
    cases hsome
  · intro d
    rw [hlive]
    unfold World.entry
    rw [htable]
    simp
  all_goals simp [hlive, hchildren, hawaited]

/-- The child of a live stream is the only one `waitpid` can find under the
stream's pid. -/
theorem childOf_live {s : State} (hI : Inv s) {st : Stream}
    (hst : st ∈ s.live) : s.world.childOf st.pid = some st.child := by
  rcases hI.forked st hst with ⟨c, hc, hid, hpid⟩
  unfold World.childOf
  cases hfind : s.world.children.find? (fun c => c.pid = st.pid) with
  | none =>
      have hnone := List.find?_eq_none.mp hfind c hc
      simp only [hpid, decide_true, not_true_eq_false] at hnone
  | some found =>
      have hmem := List.mem_of_find?_eq_some hfind
      have hfound : found.pid = st.pid := by
        simpa using List.find?_some hfind
      have heq : found = c := hI.pid_inj found c hmem hc (hfound.trans hpid.symm)
      rw [heq]
      exact congrArg some hid

/-- A change that keeps every entry, every child and every live stream's
descriptor keeps the invariant. -/
theorem Inv.frame {s : State} {w : World} (hI : Inv s)
    (hsized : Sized s.world -> Sized w)
    (hentry : forall d, w.entry d = s.world.entry d)
    (hopened : forall st, st ∈ s.live -> w.fds.IsOpen st.fp.fileno)
    (hsame : SameProcesses s.world w) : Inv { s with world := w } := by
  constructor
  · exact hsized hI.sized
  · intro d
    show w.entry d ≠ 0 <-> _
    rw [hentry]
    exact hI.entry_iff d
  · intro st hst
    exact (hentry _).trans (hI.entry_pid st hst)
  · exact hopened
  · exact hI.fp_inj
  · exact hI.child_inj
  · exact hI.pid_pos
  · intro st hst
    show exists c, c ∈ w.children ∧ _
    rw [hsame.children]
    exact hI.forked st hst
  · show forall a b, a ∈ w.children -> b ∈ w.children -> _
    rw [hsame.children]
    exact hI.pid_inj
  · show forall c, c ∈ w.children -> c.id < w.forks
    rw [hsame.children, hsame.forks]
    exact hI.id_lt
  · show w.awaited.Nodup
    rw [hsame.awaited]
    exact hI.awaited_nodup
  · show forall a, a ∈ w.awaited -> exists id, a = some id ∧ id < w.forks ∧ _
    rw [hsame.awaited, hsame.forks]
    exact hI.awaited_gone

theorem isOpen_of_get_eq {t t' : FdTable OpenFile} {d : Fd}
    (h : t'.get d = t.get d) (hopen : t.IsOpen d) : t'.IsOpen d := by
  unfold FdTable.IsOpen
  rw [h]
  exact hopen

/-!
# Forking a child

The new child's pid is fresh among the live and unreaped ones, and its number
is fresh among all children ever forked.
-/

theorem Forked.mem_children {ans : PopenAnswers}
    {w w' : World} {c x : Child} (hf : Forked ans w w' c)
    (hx : x ∈ w'.children) : x ∈ w.children ∨ x = c := by
  rw [hf.children] at hx
  exact mem_snoc hx

theorem Forked.pid_inj {s : State} {type : List Char} {ans : PopenAnswers}
    {w : World} {c : Child} (hf : Forked ans s.world w c) (hI : Inv s)
    (hP : Promised s (Call.popen type ans)) :
    forall a b, a ∈ w.children -> b ∈ w.children -> a.pid = b.pid -> a = b := by
  rcases promised_fork hP hf.pid with ⟨_, hfresh⟩
  rw [hf.children]
  exact inj_snoc hI.pid_inj hfresh

theorem Forked.id_lt {s : State} {ans : PopenAnswers}
    {w : World} {c : Child} (hf : Forked ans s.world w c) (hI : Inv s) :
    forall x, x ∈ w.children -> x.id < w.forks := by
  intro x hx
  rw [hf.forks]
  rcases hf.mem_children hx with hx | hx
  · exact Nat.lt_succ_of_lt (hI.id_lt x hx)
  · rw [hx, hf.id]
    exact Nat.lt_succ_self _

theorem Forked.keeps_child {ans : PopenAnswers}
    {w w' : World} {c : Child} (hf : Forked ans w w' c) {st : Stream}
    (h : exists x, x ∈ w.children ∧ x.id = st.child ∧ x.pid = st.pid) :
    exists x, x ∈ w'.children ∧ x.id = st.child ∧ x.pid = st.pid := by
  rcases h with ⟨x, hx, hid, hpid⟩
  refine ⟨x, ?_, hid, hpid⟩
  rw [hf.children]
  exact List.mem_append_left _ hx

theorem Forked.awaited_gone {s : State} {ans : PopenAnswers}
    {w : World} {c : Child} (hf : Forked ans s.world w c) (hI : Inv s)
    {a : Option Nat} (ha : a ∈ w.awaited) :
    exists id, a = some id ∧ id < s.world.forks ∧ id < w.forks ∧
      forall st, st ∈ s.live -> st.child ≠ id := by
  rw [hf.awaited] at ha
  rcases hI.awaited_gone a ha with ⟨id, heq, hlt, hgone⟩
  refine ⟨id, heq, hlt, ?_, hgone⟩
  rw [hf.forks]
  exact Nat.lt_succ_of_lt hlt

theorem live_child_lt {s : State} (hI : Inv s) {st : Stream}
    (hst : st ∈ s.live) : st.child < s.world.forks := by
  rcases hI.forked st hst with ⟨c, hc, hid, _⟩
  rw [← hid]
  exact hI.id_lt c hc

theorem inv_leftChild {s : State} {type : List Char} {ans : PopenAnswers}
    {w : World} {c : Child} (hI : Inv s)
    (hP : Promised s (Call.popen type ans))
    (hf : Forked ans s.world w c) (hframe : PopenFrame s.world w)
    (hentry : forall d, w.entry d = s.world.entry d) :
    Inv { s with world := w } := by
  constructor
  · exact hframe.sized hI.sized
  · intro d
    change w.entry d ≠ 0 <-> _
    rw [hentry]
    exact hI.entry_iff d
  · intro st hst
    exact (hentry _).trans (hI.entry_pid st hst)
  · intro st hst
    exact isOpen_of_get_eq (hframe.opened _ (hI.opened st hst))
      (hI.opened st hst)
  · exact hI.fp_inj
  · exact hI.child_inj
  · exact hI.pid_pos
  · intro st hst
    exact hf.keeps_child (hI.forked st hst)
  · exact hf.pid_inj hI hP
  · exact hf.id_lt hI
  · change w.awaited.Nodup
    rw [hf.awaited]
    exact hI.awaited_nodup
  · intro a ha
    rcases hf.awaited_gone hI ha with ⟨id, heq, _, hlt, hgone⟩
    exact ⟨id, heq, hlt, hgone⟩

/-- The stream that a successful call adds has a descriptor no live stream
has. -/
theorem Returned.fileno_ne {s : State} {w : World} {c : Child} {fp : FILE}
    (hr : Returned s.world w c fp) (hI : Inv s) {st : Stream}
    (hst : st ∈ s.live) : st.fp.fileno ≠ fp.fileno := by
  intro heq
  have hopen := hI.opened st hst
  rw [heq] at hopen
  exact hopen hr.fresh

theorem Returned.entry_iff {s : State} {ans : PopenAnswers} {w : World}
    {c : Child} {fp : FILE} (hr : Returned s.world w c fp) (hI : Inv s)
    (hpos : 0 < c.pid) (d : Fd) :
    w.entry d ≠ 0 <-> exists st,
      st ∈ s.live ++ [Stream.opened fp ans s.world] ∧ st.fp.fileno = d := by
  rw [hr.entry]
  by_cases hd : d = fp.fileno
  · rw [if_pos hd]
    constructor
    · intro _
      exact ⟨_, List.mem_concat_self, hd.symm⟩
    · intro _
      lia
  · rw [if_neg hd, hI.entry_iff d]
    constructor
    · intro ⟨st, hst, hfd⟩
      exact ⟨st, List.mem_append_left _ hst, hfd⟩
    · intro ⟨st, hst, hfd⟩
      rcases mem_snoc hst with hst | hst
      · exact ⟨st, hst, hfd⟩
      · rw [hst] at hfd
        exact absurd hfd.symm hd

theorem inv_returned {s : State} {type : List Char} {ans : PopenAnswers}
    {w : World} {c : Child} {fp : FILE} (hI : Inv s)
    (hP : Promised s (Call.popen type ans))
    (hf : Forked ans s.world w c) (hr : Returned s.world w c fp)
    (hframe : PopenFrame s.world w) :
    Inv { world := w, live := s.live ++ [Stream.opened fp ans s.world] } := by
  have hnewPid : (Stream.opened fp ans s.world).pid = c.pid := by
    unfold Stream.opened
    rw [hf.pid]
    rfl
  have hpos : 0 < c.pid := (promised_fork hP hf.pid).left
  constructor
  · exact hframe.sized hI.sized
  · exact hr.entry_iff hI hpos
  · intro st hst
    change w.entry st.fp.fileno = st.pid
    rcases mem_snoc hst with hst | hst
    · rw [hr.entry, if_neg (hr.fileno_ne hI hst)]
      exact hI.entry_pid st hst
    · rw [hst, hnewPid, hr.entry]
      exact if_pos rfl
  · intro st hst
    rcases mem_snoc hst with hst | hst
    · exact isOpen_of_get_eq (hframe.opened _ (hI.opened st hst))
        (hI.opened st hst)
    · rw [hst]
      exact hr.opened
  · apply inj_snoc hI.fp_inj
    intro st hst heq
    exact hr.fileno_ne hI hst (congrArg FILE.fileno heq)
  · apply inj_snoc hI.child_inj
    intro st hst
    exact Nat.ne_of_lt (live_child_lt hI hst)
  · intro st hst
    rcases mem_snoc hst with hst | hst
    · exact hI.pid_pos st hst
    · rw [hst, hnewPid]
      exact hpos
  · intro st hst
    rcases mem_snoc hst with hst | hst
    · exact hf.keeps_child (hI.forked st hst)
    · refine ⟨c, ?_, ?_, ?_⟩
      · change c ∈ w.children
        rw [hf.children]
        exact List.mem_concat_self
      · rw [hst, hf.id]
        rfl
      · rw [hst, hnewPid]
  · exact hf.pid_inj hI hP
  · exact hf.id_lt hI
  · change w.awaited.Nodup
    rw [hf.awaited]
    exact hI.awaited_nodup
  · intro a ha
    rcases hf.awaited_gone hI ha with ⟨id, heq, hold, hlt, hgone⟩
    refine ⟨id, heq, hlt, ?_⟩
    intro st hst
    rcases mem_snoc hst with hst | hst
    · exact hgone st hst
    · rw [hst]
      exact Nat.ne_of_gt hold

/-!
# Closing a stream

The stream leaves the caller's list, its entry is cleared, and its child is the
one that is waited for.
-/

theorem mem_of_mem_filter_fp {xs : List Stream} {fp : FILE} {st : Stream}
    (h : st ∈ xs.filter (fun st => st.fp ≠ fp)) : st ∈ xs ∧ st.fp ≠ fp := by
  rcases List.mem_filter.mp h with ⟨hmem, hne⟩
  exact ⟨hmem, by simpa using hne⟩

theorem fileno_ne_of_fp_ne {a b : FILE} (h : a ≠ b) : a.fileno ≠ b.fileno := by
  intro heq
  cases a
  cases b
  exact h (congrArg FILE.mk heq)

theorem exists_live_of_recorded {s : State} (hI : Inv s) {fp : FILE}
    (h : s.world.entry fp.fileno ≠ 0) :
    exists st, st ∈ s.live ∧ st.fp = fp := by
  rcases (hI.entry_iff fp.fileno).mp h with ⟨st, hst, hfd⟩
  refine ⟨st, hst, ?_⟩
  cases hfp : st.fp
  cases fp
  rw [hfp] at hfd
  exact congrArg FILE.mk hfd

theorem Inv.waitsFor_ok {s : State} (hI : Inv s) {st : Stream}
    (hst : st ∈ s.live) :
    s.world.waitsFor st.fp FcloseAnswer.ok = [some st.child] := by
  unfold World.waitsFor
  rw [hI.entry_pid st hst, childOf_live hI hst]

theorem Closed.waits_own {s : State} {w : World} {st : Stream}
    {answer : FcloseAnswer} (hc : Closed st.fp answer s.world w) (hI : Inv s)
    (hst : st ∈ s.live) (hanswer : answer = FcloseAnswer.ok) :
    w.awaited = s.world.awaited ++ [some st.child] := by
  rw [hc.awaited, hanswer, hI.waitsFor_ok hst]

theorem Closed.waits_none {fp : FILE} {w w' : World} {answer : FcloseAnswer}
    (hc : Closed fp answer w w') (hanswer : answer ≠ FcloseAnswer.ok) :
    w'.awaited = w.awaited := by
  cases answer with
  | ok => exact absurd rfl hanswer
  | eof closed =>
      rw [hc.awaited]
      exact List.append_nil w.awaited

theorem Closed.awaits {s : State} {w : World} {st : Stream}
    {answer : FcloseAnswer} (hc : Closed st.fp answer s.world w) (hI : Inv s)
    (hst : st ∈ s.live) :
    w.awaited = s.world.awaited ∨
      w.awaited = s.world.awaited ++ [some st.child] := by
  cases answer with
  | ok => exact Or.inr (hc.waits_own hI hst rfl)
  | eof closed => exact Or.inl (hc.waits_none (fun heq => by cases heq))

theorem Closed.mem_children {fp : FILE} {answer : FcloseAnswer}
    {w w' : World} {c : Child} (hc : Closed fp answer w w')
    (h : c ∈ w'.children) : c ∈ w.children := by
  rcases hc.children with heq | heq
  · rw [heq] at h
    exact h
  · rw [heq] at h
    exact (List.mem_filter.mp h).1

theorem Closed.entry_iff {s : State} {w : World} {fp : FILE}
    {answer : FcloseAnswer} (hc : Closed fp answer s.world w) (hI : Inv s) (d : Fd) :
    w.entry d ≠ 0 <-> exists st,
      st ∈ s.live.filter (fun x => x.fp ≠ fp) ∧ st.fp.fileno = d := by
  rw [hc.entry]
  by_cases hd : d = fp.fileno
  · rw [if_pos hd]
    constructor
    · intro h
      exact absurd rfl h
    · intro ⟨x, hx, hfd⟩
      rcases mem_of_mem_filter_fp hx with ⟨_, hne⟩
      exact absurd (hfd.trans hd) (fileno_ne_of_fp_ne hne)
  · rw [if_neg hd, hI.entry_iff d]
    constructor
    · intro ⟨x, hx, hfd⟩
      refine ⟨x, List.mem_filter.mpr ⟨hx, ?_⟩, hfd⟩
      have hne : x.fp ≠ fp := by
        intro heq
        rw [heq] at hfd
        exact hd hfd.symm
      simpa using hne
    · intro ⟨x, hx, hfd⟩
      exact ⟨x, (mem_of_mem_filter_fp hx).1, hfd⟩

/-- Two live streams never share a pid, so reaping one's child keeps the
other's. -/
theorem Closed.keeps_child {s : State} {w : World} {st x : Stream}
    {answer : FcloseAnswer} (hc : Closed st.fp answer s.world w) (hI : Inv s) (hst : st ∈ s.live)
    (hx : x ∈ s.live) (hne : x.fp ≠ st.fp) :
    exists c, c ∈ w.children ∧ c.id = x.child ∧ c.pid = x.pid := by
  rcases hI.forked x hx with ⟨c, hcmem, hid, hpid⟩
  refine ⟨c, ?_, hid, hpid⟩
  rcases hc.children with heq | heq
  · rw [heq]
    exact hcmem
  · rw [heq]
    have hother : c.pid ≠ s.world.entry st.fp.fileno := by
      intro hp
      rcases hI.forked st hst with ⟨c', hc', hid', hpid'⟩
      rw [hI.entry_pid st hst, ← hpid'] at hp
      have hcc := hI.pid_inj c c' hcmem hc' hp
      rw [hcc, hid'] at hid
      exact hne (congrArg Stream.fp (hI.child_inj x st hx hst hid.symm))
    exact List.mem_filter.mpr ⟨hcmem, by simpa using hother⟩

theorem Closed.awaited_nodup {s : State} {w : World} {st : Stream}
    {answer : FcloseAnswer} (hc : Closed st.fp answer s.world w) (hI : Inv s) (hst : st ∈ s.live) :
    w.awaited.Nodup := by
  rcases hc.awaits hI hst with h | h
  · rw [h]
    exact hI.awaited_nodup
  · rw [h, List.nodup_append]
    refine ⟨hI.awaited_nodup, by simp, ?_⟩
    intro a ha b hb hab
    rw [List.mem_singleton.mp hb] at hab
    rcases hI.awaited_gone a ha with ⟨id, heq, _, hgone⟩
    rw [heq] at hab
    exact hgone st hst (Option.some.inj hab).symm

theorem Closed.mem_awaited {s : State} {w : World} {st : Stream}
    {answer : FcloseAnswer} (hc : Closed st.fp answer s.world w) (hI : Inv s) (hst : st ∈ s.live)
    {a : Option Nat} (ha : a ∈ w.awaited) :
    a ∈ s.world.awaited ∨ a = some st.child := by
  rcases hc.awaits hI hst with h | h
  · rw [h] at ha
    exact Or.inl ha
  · rw [h] at ha
    exact mem_snoc ha

theorem inv_closed {s : State} {w : World} {st : Stream}
    {answer : FcloseAnswer} (hI : Inv s) (hst : st ∈ s.live)
    (hc : Closed st.fp answer s.world w) :
    Inv { world := w, live := s.live.filter (fun x => x.fp ≠ st.fp) } := by
  constructor
  · exact hc.sized hI.sized
  · exact hc.entry_iff hI
  · intro x hx
    rcases mem_of_mem_filter_fp hx with ⟨hmem, hne⟩
    change w.entry x.fp.fileno = x.pid
    rw [hc.entry, if_neg (fileno_ne_of_fp_ne hne)]
    exact hI.entry_pid x hmem
  · intro x hx
    rcases mem_of_mem_filter_fp hx with ⟨hmem, hne⟩
    exact isOpen_of_get_eq (hc.fds _ (fileno_ne_of_fp_ne hne))
      (hI.opened x hmem)
  · intro a b ha hb
    exact hI.fp_inj a b (mem_of_mem_filter_fp ha).1 (mem_of_mem_filter_fp hb).1
  · intro a b ha hb
    exact hI.child_inj a b (mem_of_mem_filter_fp ha).1
      (mem_of_mem_filter_fp hb).1
  · intro x hx
    exact hI.pid_pos x (mem_of_mem_filter_fp hx).1
  · intro x hx
    rcases mem_of_mem_filter_fp hx with ⟨hmem, hne⟩
    exact hc.keeps_child hI hst hmem hne
  · intro a b ha hb
    exact hI.pid_inj a b (hc.mem_children ha) (hc.mem_children hb)
  · intro c hcw
    change c.id < w.forks
    rw [hc.forks]
    exact hI.id_lt c (hc.mem_children hcw)
  · exact hc.awaited_nodup hI hst
  · intro a ha
    change exists id, a = some id ∧ id < w.forks ∧ _
    rw [hc.forks]
    rcases hc.mem_awaited hI hst ha with ha | ha
    · rcases hI.awaited_gone a ha with ⟨id, heq, hlt, hgone⟩
      exact ⟨id, heq, hlt,
        fun x hx => hgone x (mem_of_mem_filter_fp hx).1⟩
    · refine ⟨st.child, ha, live_child_lt hI hst, ?_⟩
      intro x hx hid
      rcases mem_of_mem_filter_fp hx with ⟨hmem, hne⟩
      exact hne (congrArg Stream.fp (hI.child_inj x st hmem hst hid))

/-!
# Every call keeps the invariant
-/

theorem filter_fp_eq_self {s : State} (hI : Inv s) {fp : Option FILE}
    (h : forall f, fp = some f -> s.world.entry f.fileno = 0) :
    s.live.filter (fun st => some st.fp ≠ fp) = s.live := by
  apply List.filter_eq_self.mpr
  intro st hst
  have hne : some st.fp ≠ fp := by
    intro heq
    have hset := (hI.entry_iff st.fp.fileno).mpr ⟨st, hst, rfl⟩
    exact hset (h st.fp heq.symm)
  simpa using hne

theorem filter_some_fp (xs : List Stream) (fp : FILE) :
    xs.filter (fun st => some st.fp ≠ some fp) = xs.filter (fun st => st.fp ≠ fp) := by
  simp only [ne_eq, Option.some.injEq]

theorem inv_step {s t : State} {c : Call} (hI : Inv s) (hP : Promised s c)
    (h : step s c = some t) : Inv t := by
  cases c with
  | popen type ans =>
      unfold step at h
      simp only at h
      split at h
      · cases h
      · rename_i why w hcall
        cases h
        rcases popen_l_ok hcall with ⟨heffect, hframe⟩
        cases heffect with
        | failed hsame hentry =>
            exact hI.frame hframe.sized hentry
              (fun st hst => isOpen_of_get_eq
                (hframe.opened _ (hI.opened st hst)) (hI.opened st hst))
              hsame
        | leftChild hf hentry =>
            exact inv_leftChild hI hP hf hframe hentry
      · rename_i fp w hcall
        cases h
        rcases popen_l_ok hcall with ⟨heffect, hframe⟩
        cases heffect with
        | returned hf hr =>
            exact inv_returned hI hP hf hr hframe
  | pclose fp ans =>
      unfold step at h
      simp only at h
      split at h
      · cases h
      · rename_i r w hcall
        cases h
        rcases pclose_l_ok hcall with ⟨hzero, hsame⟩ | ⟨f, hf, hc⟩
        · rw [hsame, filter_fp_eq_self hI hzero]
          exact hI
        · rcases exists_live_of_recorded hI hc.recorded with ⟨st, hst, hfp⟩
          rw [hf, filter_some_fp]
          subst hfp
          exact inv_closed hI hst hc
  | openOther n =>
      cases h
      refine hI.frame (fun hs => hs) (fun d => rfl) ?_ ⟨rfl, rfl, rfl⟩
      intro st hst
      have hopen := hI.opened st hst
      exact isOpen_of_get_eq
        (FdTable.get_set_of_ne _ _ (FdTable.ne_lowestFree_of_isOpen hopen)) hopen
  | closeOther d =>
      cases h
      refine hI.frame (fun hs => hs) (fun d => rfl) ?_ ⟨rfl, rfl, rfl⟩
      intro st hst
      exact isOpen_of_get_eq (FdTable.get_set_of_ne _ _ (hP st hst))
        (hI.opened st hst)

theorem inv_reachable {s : State} (hs : machine.ReachableUnder Promised s) :
    Inv s := by
  apply Machine.invariant_under _ _ hs
  · intro s h
    exact inv_initial h
  · intro s c t hI hP h
    exact inv_step hI hP h

/-!
# What the array means

The law collects what the caller relies on: the array names exactly the live
streams and their own children, closing a stream waits for its own child and no
other, no call disturbs the entry of a stream that stays live, and no child is
waited for by two calls.
-/

structure TableLaw (s : State) : Prop where
  nonzero_iff : forall d, s.world.entry d ≠ 0 <->
    exists st, st ∈ s.live ∧ st.fp.fileno = d
  own_pid : forall st, st ∈ s.live -> s.world.entry st.fp.fileno = st.pid
  waits_own_child : forall st ans t, st ∈ s.live ->
    step s (Call.pclose st.fp ans) = some t ->
    (ans.fclose = FcloseAnswer.ok ->
      t.world.awaited = s.world.awaited ++ [some st.child]) ∧
    (ans.fclose ≠ FcloseAnswer.ok -> t.world.awaited = s.world.awaited)
  not_overwritten : forall st c t, st ∈ s.live -> Promised s c ->
    step s c = some t -> (forall ans, c ≠ Call.pclose st.fp ans) ->
    st ∈ t.live ∧ t.world.entry st.fp.fileno = s.world.entry st.fp.fileno
  fresh_entry : forall type ans t st, Promised s (Call.popen type ans) ->
    step s (Call.popen type ans) = some t -> st ∈ s.live ->
    forall new, t.live = s.live ++ [new] -> new.fp.fileno ≠ st.fp.fileno
  awaited_once : s.world.awaited.Nodup

theorem closed_of_pclose_live {s t : State} {st : Stream}
    {ans : PcloseAnswers} (hI : Inv s) (hst : st ∈ s.live)
    (h : step s (Call.pclose st.fp ans) = some t) :
    Closed st.fp ans.fclose s.world t.world := by
  unfold step at h
  simp only at h
  split at h
  · cases h
  · rename_i r w hcall
    cases h
    rcases pclose_l_ok hcall with ⟨hzero, _⟩ | ⟨f, hf, hc⟩
    · exact absurd (hzero st.fp rfl) ((hI.entry_iff _).mpr ⟨st, hst, rfl⟩)
    · cases hf
      exact hc

theorem fileno_inj {s : State} (hI : Inv s) {a b : Stream}
    (ha : a ∈ s.live) (hb : b ∈ s.live) (h : a.fp.fileno = b.fp.fileno) :
    a = b := by
  apply hI.fp_inj a b ha hb
  cases hfa : a.fp
  cases hfb : b.fp
  rw [hfa, hfb] at h
  exact congrArg FILE.mk h

theorem new_fileno_ne {s t : State} {type : List Char} {ans : PopenAnswers}
    {st new : Stream} (hI : Inv s) (hP : Promised s (Call.popen type ans))
    (h : step s (Call.popen type ans) = some t) (hst : st ∈ s.live)
    (hnew : t.live = s.live ++ [new]) : new.fp.fileno ≠ st.fp.fileno := by
  have hIt : Inv t := inv_step hI hP h
  have hstt : st ∈ t.live := by
    rw [hnew]
    exact List.mem_append_left _ hst
  have hnewt : new ∈ t.live := by
    rw [hnew]
    exact List.mem_concat_self
  intro heq
  have hsame : new = st := fileno_inj hIt hnewt hstt heq
  unfold step at h
  simp only at h
  split at h
  · cases h
  · cases h
    have hlen := congrArg List.length hnew
    simp at hlen
  · rename_i fp w hcall
    cases h
    have hopened : new = Stream.opened fp ans s.world := by
      have htail := List.append_cancel_left hnew
      exact (List.cons.inj htail).1.symm
    have hlt := live_child_lt hI hst
    rw [← hsame, hopened] at hlt
    exact absurd hlt (Nat.lt_irrefl _)

theorem stays_live {s t : State} {c : Call} {st : Stream}
    (h : step s c = some t) (hst : st ∈ s.live)
    (hc : forall ans, c ≠ Call.pclose st.fp ans) : st ∈ t.live := by
  cases c with
  | popen type ans =>
      unfold step at h
      simp only at h
      split at h
      · cases h
      · cases h
        exact hst
      · cases h
        exact List.mem_append_left _ hst
  | pclose fp ans =>
      unfold step at h
      simp only at h
      split at h
      · cases h
      · cases h
        have hne : some st.fp ≠ fp := by
          intro heq
          rw [← heq] at hc
          exact hc ans rfl
        exact List.mem_filter.mpr ⟨hst, by simpa using hne⟩
  | openOther n =>
      cases h
      exact hst
  | closeOther d =>
      cases h
      exact hst

theorem entry_of_stays_live {s t : State} {c : Call} {st : Stream}
    (hI : Inv s) (hP : Promised s c) (h : step s c = some t)
    (hst : st ∈ s.live) (hstt : st ∈ t.live) :
    t.world.entry st.fp.fileno = s.world.entry st.fp.fileno := by
  have hIt : Inv t := inv_step hI hP h
  rw [hIt.entry_pid st hstt, hI.entry_pid st hst]

theorem childpid_tracks_streams {s : State}
    (hs : machine.ReachableUnder Promised s) : TableLaw s := by
  have hI : Inv s := inv_reachable hs
  constructor
  · exact hI.entry_iff
  · exact hI.entry_pid
  · intro st ans t hst h
    have hc := closed_of_pclose_live hI hst h
    exact ⟨hc.waits_own hI hst, hc.waits_none⟩
  · intro st c t hst hP h hc
    have hstt := stays_live h hst hc
    exact ⟨hstt, entry_of_stays_live hI hP h hst hstt⟩
  · intro type ans t st hP h hst new hnew
    exact new_fileno_ne hI hP h hst hnew
  · exact hI.awaited_nodup

def freshProcess (slots : List (Option OpenFile)) : State :=
  { world :=
      { openmax := 0, maxfd := 0, childpid := none, fds := { slots := slots },
        children := [], forks := 0, pipes := 0, awaited := [] }
    live := [] }

theorem initial_freshProcess (slots : List (Option OpenFile)) :
    Initial (freshProcess slots) :=
  ⟨rfl, rfl, rfl, rfl, rfl, rfl, rfl⟩

def popenSucceeds (pid : Pid) : PopenAnswers :=
  { sysconf := SysconfAnswer.limit 8, calloc := true, pipe := true,
    fork := some pid, fdopen := true }

/-- Two streams are opened, the first is closed after an interrupted wait, and
a third one reuses both its descriptor and its pid. -/
def reuseCalls : List Call :=
  [Call.popen ['r'] (popenSucceeds 100),
   Call.popen ['w'] (popenSucceeds 101),
   Call.pclose (some { fileno := 3 })
     { fclose := FcloseAnswer.ok,
       waitpid := [WaitAnswer.eintr, WaitAnswer.status 0] },
   Call.popen ['r'] (popenSucceeds 100)]

def reuseStart : State :=
  freshProcess
    [some (OpenFile.other 0), some (OpenFile.other 1), some (OpenFile.other 2)]

theorem childpid_tracks_streams_reuse :
    exists s, machine.run reuseStart reuseCalls = some s ∧
      s.live.length = 2 ∧ TableLaw s := by
  refine ⟨_, rfl, rfl, ?_⟩
  apply childpid_tracks_streams
  exact Machine.reachableUnder_of_run
    (Machine.ReachableUnder.init (initial_freshProcess _))
    (show machine.RunMeets Promised reuseStart reuseCalls by decide) rfl

end Popen
end Apue
