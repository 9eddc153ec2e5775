import Apue.AdvancedIpc.UniqueConn.Identity

/-!
# Which connections srv_accept rejects

Clients call `cli_conn` and nothing else, every system call of theirs succeeds,
and the server is in time.  A connection is then rejected only when its path has
been removed or taken over: the path depends on the process alone, so a second
call of `cli_conn` works on the path of the first connection.
-/

namespace Apue
namespace UniqueConn

open Foundation Kernel

/-- The server is between its `stat` and its `unlink`. -/
def Phase.examined : Phase -> Bool
  | Phase.statted _ _ => true
  | Phase.passed _ _ => true
  | _ => false

def Phase.over : Phase -> Bool
  | Phase.finished _ _ => true
  | _ => false

/-- The clients only call `cli_conn`, all its system calls succeed, and the
server checks a connection at most `STALE` seconds after its `bind`. -/
def assumed (s : State) : Label -> Bool
  | Label.sys _ _ => false
  | Label.cli _ o => o ≠ Outcome.failed
  | Label.check i _ =>
      match s.conns[i]? with
      | none => true
      | some c => s.now ≤ c.born + STALE
  | _ => true

/-- `cli_conn` does not unlink its path while an earlier connection from there
has not been examined, and does not bind it while the server is about to unlink
it for an earlier connection. -/
def spared (s : State) : Label -> Bool
  | Label.cli pid _ =>
      match s.cli pid with
      | CliPc.made _ =>
          s.conns.all (fun c => c.path ≠ cliPath pid || !c.phase.unexamined)
      | CliPc.clean _ =>
          s.conns.all (fun c => c.path ≠ cliPath pid || !c.phase.examined)
      | _ => true
  | _ => true

theorem over_of_not {phase : Phase} (hun : phase.unexamined = false)
    (hex : phase.examined = false) : phase.over = true := by
  cases phase with
  | queued => cases hun
  | accepted fd => cases hun
  | statted fd statbuf => cases hex
  | passed fd stored => cases hex
  | finished ret stored => rfl

theorem not_unexamined_of_over {phase : Phase} (h : phase.over = true) :
    phase.unexamined = false := by
  cases phase with
  | queued => cases h
  | accepted fd => cases h
  | statted fd statbuf => cases h
  | passed fd stored => cases h
  | finished ret stored => rfl

theorem only_examined {phase : Phase} (h : phase.examined = true) :
    phase.over = false ∧ phase.unexamined = false := by
  cases phase with
  | queued => cases h
  | accepted fd => cases h
  | statted fd statbuf => exact ⟨rfl, rfl⟩
  | passed fd stored => exact ⟨rfl, rfl⟩
  | finished ret stored => cases h

/-!
# The invariant
-/

/-- A socket file of the user that is not older than `born`. -/
structure SockFile (born : Int) (u : Uid) (i : Inode) : Prop where
  type : i.type = FileType.S_IFSOCK
  uid : i.uid = u
  ctime : born ≤ i.ctime
  mtime : born ≤ i.mtime
  atime : born ≤ i.atime

/-- Such a file with the permissions that `srv_accept` wants. -/
structure Acceptable (born : Int) (u : Uid) (i : Inode) : Prop where
  sock : SockFile born u i
  perm : i.perm = CLI_PERM

/-- The connections: those not examined find an acceptable file, and have their
path to themselves among the connections that are not over. -/
structure Line (uid : Pid -> Uid) (names : Names) (conns : List Conn) :
    Prop where
  path : forall c, c ∈ conns -> c.path = cliPath c.pid
  file : forall c, c ∈ conns -> c.phase.unexamined = true ->
    exists i, names c.path = some (Entry.file i) ∧
      Acceptable c.born (uid c.pid) i
  statbuf : forall c fd i, c ∈ conns -> c.phase = Phase.statted fd i ->
    Acceptable c.born (uid c.pid) i
  ret : forall c ret stored, c ∈ conns ->
    c.phase = Phase.finished ret stored -> 0 ≤ ret
  alone : forall (i j : Nat) (c d : Conn), conns[i]? = some c ->
    conns[j]? = some d -> i ≠ j -> c.path = d.path ->
    c.phase.unexamined = true -> d.phase.over = true

/-- What a client has achieved in its present call of `cli_conn`. -/
def ClientOk (uid : Pid -> Uid) (now : Int) (names : Names)
    (conns : List Conn) (pid : Pid) : CliPc -> Prop
  | CliPc.idle _ => True
  | CliPc.made _ => True
  | CliPc.clean _ =>
      forall c, c ∈ conns -> c.path = cliPath pid -> c.phase.unexamined = false
  | CliPc.bound k =>
      k.pid = pid ∧ k.path = cliPath pid ∧ k.born ≤ now ∧
        (forall c, c ∈ conns -> c.path = cliPath pid -> c.phase.over = true) ∧
        exists i, names (cliPath pid) = some (Entry.file i) ∧
          SockFile k.born (uid pid) i
  | CliPc.ready k =>
      k.pid = pid ∧ k.path = cliPath pid ∧
        (forall c, c ∈ conns -> c.path = cliPath pid -> c.phase.over = true) ∧
        exists i, names (cliPath pid) = some (Entry.file i) ∧
          Acceptable k.born (uid pid) i

/-- What stands where a path leads. -/
def State.view (s : State) : Names :=
  fun p => s.names (place s.dirs p)

structure Delivery (uid : Pid -> Uid) (s : State) : Prop where
  line : Line uid s.view s.conns
  clients : forall pid, ClientOk uid s.now s.view s.conns pid (s.cli pid)

theorem Line.names {uid : Pid -> Uid} {names names' : Names}
    {conns : List Conn} (h : Line uid names conns)
    (hsame : forall c, c ∈ conns -> c.phase.unexamined = true ->
      names' c.path = names c.path) : Line uid names' conns := by
  constructor
  · exact h.path
  · intro c hc hphase
    rw [hsame c hc hphase]
    exact h.file c hc hphase
  · exact h.statbuf
  · exact h.ret
  · exact h.alone

theorem ClientOk.change {uid : Pid -> Uid} {now now' : Int}
    {names names' : Names} {conns conns' : List Conn} {pid : Pid} {pc : CliPc}
    (h : ClientOk uid now names conns pid pc) (hnow : now ≤ now')
    (hnames : names' (cliPath pid) = names (cliPath pid))
    (hconns : forall c, c ∈ conns' -> c.path = cliPath pid -> c ∈ conns) :
    ClientOk uid now' names' conns' pid pc := by
  cases pc with
  | idle ret => trivial
  | made fd => trivial
  | clean fd =>
      intro c hc hpath
      exact h c (hconns c hc hpath) hpath
  | bound k =>
      rcases h with ⟨hpid, hkpath, hborn, hover, hfile⟩
      refine ⟨hpid, hkpath, Int.le_trans hborn hnow, ?_, ?_⟩
      · intro c hc hpath
        exact hover c (hconns c hc hpath) hpath
      · rw [hnames]
        exact hfile
  | ready k =>
      rcases h with ⟨hpid, hkpath, hover, hfile⟩
      refine ⟨hpid, hkpath, ?_, ?_⟩
      · intro c hc hpath
        exact hover c (hconns c hc hpath) hpath
      · rw [hnames]
        exact hfile

theorem Delivery.client {uid : Pid -> Uid} {s : State} {pid : Pid}
    {pc : CliPc} {names : Names} {sockets : List Sock} (h : Delivery uid s)
    (hnames : forall q, q ≠ pid -> names (place s.dirs (cliPath q)) =
      s.names (place s.dirs (cliPath q)))
    (hline : names = s.names ∨ forall c, c ∈ s.conns ->
      c.path = cliPath pid -> c.phase.unexamined = false)
    (hpc : ClientOk uid s.now (fun p => names (place s.dirs p)) s.conns pid pc) :
    Delivery uid
      (setCli { s with names := names, sockets := sockets } pid pc) := by
  constructor
  · rcases hline with heq | hnone
    · change Line uid (fun p => names (place s.dirs p)) s.conns
      rw [heq]
      exact h.line
    · apply h.line.names
      intro c hc hphase
      have hpath := h.line.path c hc
      rw [hpath]
      apply hnames
      intro hpid
      rw [hpid] at hpath
      rw [hnone c hc hpath] at hphase
      cases hphase
  · intro q
    change ClientOk uid s.now (fun p => names (place s.dirs p)) s.conns q
      (if q = pid then pc else s.cli q)
    split
    · next heq =>
        rw [heq]
        exact hpc
    · next hne =>
        apply (h.clients q).change (Int.le_refl _)
        · exact hnames q hne
        · intro c hc _
          exact hc

/-!
# The steps of a client
-/

theorem mem_all_or {conns : List Conn} {p : Path} {test : Phase -> Bool}
    (h : conns.all (fun c => c.path ≠ p || !test c.phase) = true) {c : Conn}
    (hc : c ∈ conns) (hpath : c.path = p) : test c.phase = false := by
  have htest := List.all_eq_true.mp h c hc
  simpa [hpath] using htest

theorem put_other_client {names : Names} {dirs : Dirs} {p q : Pid}
    (e : Option Entry) (h : q ≠ p) :
    names.put (place dirs (cliPath p)) e (place dirs (cliPath q)) =
      names (place dirs (cliPath q)) :=
  Names.put_other e (fun heq => h (place_cliPath_injective heq))

theorem Delivery.unlinks {uid : Pid -> Uid} {s : State} {pid : Pid} {fd : Nat}
    {names : Names} (h : Delivery uid s)
    (hnone : forall c, c ∈ s.conns -> c.path = cliPath pid ->
      c.phase.unexamined = false)
    (hnames : names = s.names ∨
      names = s.names.put (place s.dirs (cliPath pid)) none) :
    Delivery uid
      (setCli { s with names := names } pid (CliPc.clean fd)) := by
  apply h.client
  · intro q hq
    rcases hnames with heq | heq
    · rw [heq]
    · rw [heq]
      exact put_other_client none hq
  · right
    exact hnone
  · exact hnone

theorem Delivery.binds {uid : Pid -> Uid} {s u : State} {pid : Pid}
    {fd perm : Nat} {k : Sock} (h : Delivery uid s)
    (hpc : s.cli pid = CliPc.clean fd)
    (hspared : s.conns.all
      (fun c => c.path ≠ cliPath pid || !c.phase.examined) = true)
    (hk : k = { fd := fd, pid := pid, path := cliPath pid, born := s.now })
    (hu : bindTo s uid k perm = some u) :
    Delivery uid (setCli u pid (CliPc.bound k)) := by
  have hclean := h.clients pid
  rw [hpc] at hclean
  change forall c, c ∈ s.conns -> c.path = cliPath pid ->
    c.phase.unexamined = false at hclean
  rcases bindTo_cases hu with ⟨_, heq⟩
  rw [heq, hk]
  dsimp only
  rw [State.placeIn_cliPath]
  apply h.client
  · intro q hq
    exact put_other_client _ hq
  · right
    exact hclean
  · refine ⟨rfl, rfl, Int.le_refl _, ?_, ?_⟩
    · intro c hc hpath
      exact over_of_not (hclean c hc hpath) (mem_all_or hspared hc hpath)
    · exact ⟨_, Names.put_same _ _ _,
        ⟨rfl, rfl, Int.le_refl _, Int.le_refl _, Int.le_refl _⟩⟩

theorem Delivery.chmods {uid : Pid -> Uid} {s : State} {pid : Pid} {k : Sock}
    {names : Names} (h : Delivery uid s) (hpc : s.cli pid = CliPc.bound k)
    (hnames : s.names.chmod s.dirs (uid pid) s.now (place s.dirs (cliPath pid))
      CLI_PERM = some names) :
    Delivery uid
      (setCli { s with names := names } pid (CliPc.ready k)) := by
  have hbound := h.clients pid
  rw [hpc] at hbound
  rcases hbound with ⟨hpid, hpath, hborn, hover, i, hi, hsock⟩
  have hresolve :=
    Names.resolve_file s.dirs (place_cliPath_ne_nil s.dirs pid) hi
  have heq : names = s.names.put (place s.dirs (cliPath pid))
      (some (Entry.file { i with perm := CLI_PERM, ctime := s.now })) := by
    rcases Names.chmod_cases hnames with ⟨q, j, hj, _, heq⟩
    rw [hresolve] at hj
    cases hj
    exact heq
  rw [heq]
  apply h.client
  · intro q hq
    exact put_other_client _ hq
  · right
    intro c hc hcpath
    exact not_unexamined_of_over (hover c hc hcpath)
  · refine ⟨hpid, hpath, hover, _, Names.put_same _ _ _, ?_, rfl⟩
    exact ⟨hsock.type, hsock.uid, hborn, hsock.mtime, hsock.atime⟩

theorem Line.connect {uid : Pid -> Uid} {names : Names} {conns : List Conn}
    {c : Conn} (h : Line uid names conns) (hqueued : c.phase = Phase.queued)
    (hpath : c.path = cliPath c.pid)
    (hfile : exists i, names c.path = some (Entry.file i) ∧
      Acceptable c.born (uid c.pid) i)
    (hover : forall d, d ∈ conns -> d.path = c.path -> d.phase.over = true) :
    Line uid names (conns ++ [c]) := by
  constructor
  · intro d hd
    rcases mem_snoc hd with hmem | hlast
    · exact h.path d hmem
    · rw [hlast]
      exact hpath
  · intro d hd hphase
    rcases mem_snoc hd with hmem | hlast
    · exact h.file d hmem hphase
    · rw [hlast]
      exact hfile
  · intro d fd i hd hphase
    rcases mem_snoc hd with hmem | hlast
    · exact h.statbuf d fd i hmem hphase
    · rw [hlast, hqueued] at hphase
      cases hphase
  · intro d ret stored hd hphase
    rcases mem_snoc hd with hmem | hlast
    · exact h.ret d ret stored hmem hphase
    · rw [hlast, hqueued] at hphase
      cases hphase
  · intro i j d e hi hj hij hsame hphase
    rcases getElem?_snoc hi with hi | ⟨hi, hd⟩
    · rcases getElem?_snoc hj with hj | ⟨_, he⟩
      · exact h.alone i j d e hi hj hij hsame hphase
      · -- an older connection from the same path is over
        rw [he] at hsame
        rw [not_unexamined_of_over (hover d (List.mem_of_getElem? hi) hsame)]
          at hphase
        cases hphase
    · rcases getElem?_snoc hj with hj | ⟨hj, _⟩
      · rw [hd] at hsame
        exact hover e (List.mem_of_getElem? hj) hsame.symm
      · exact absurd (hi.trans hj.symm) hij

theorem Delivery.connects {uid : Pid -> Uid} {s u : State} {pid : Pid}
    {k : Sock} {ret : Option Int} (h : Delivery uid s)
    (hpc : s.cli pid = CliPc.ready k) (hu : connectFrom s k.pid k = some u) :
    Delivery uid (setCli u pid (CliPc.idle ret)) := by
  have hready := h.clients pid
  rw [hpc] at hready
  rcases hready with ⟨hpid, hpath, hover, hfile⟩
  rcases connectFrom_cases hu with ⟨_, heq⟩
  rw [heq]
  rw [← hpath] at hover hfile
  rw [← hpid] at hpath hfile
  constructor
  · exact h.line.connect rfl hpath hfile hover
  · intro q
    change ClientOk uid s.now s.view _ q
      (if q = pid then CliPc.idle ret else s.cli q)
    split
    · trivial
    · next hne =>
        apply (h.clients q).change (Int.le_refl _) rfl
        intro c hc hcpath
        rcases mem_snoc hc with hmem | hlast
        · exact hmem
        · rw [hlast] at hcpath
          have hq := cliPath_injective (hpath.symm.trans hcpath)
          exact absurd (hq.symm.trans hpid) hne

theorem Delivery.cliStep {uid : Pid -> Uid} {s t : State} {pid : Pid}
    {o : Outcome} (h : Delivery uid s)
    (hassumed : assumed s (Label.cli pid o) = true)
    (hspared : spared s (Label.cli pid o) = true)
    (ht : cliStep uid s pid o = some t) : Delivery uid t := by
  cases o with
  | failed => cases hassumed
  | done n =>
      unfold spared at hspared
      cases hpc : s.cli pid with
      | idle ret =>
          simp only [UniqueConn.cliStep, hpc] at ht
          cases ht
          apply h.client
          · intro p _
            rfl
          · left
            rfl
          · trivial
      | made fd =>
          simp only [UniqueConn.cliStep, hpc] at ht hspared
          have hnone : forall c, c ∈ s.conns -> c.path = cliPath pid ->
              c.phase.unexamined = false :=
            fun c hc hpath => mem_all_or hspared hc hpath
          split at ht
          · cases ht
            exact h.unlinks hnone (Or.inl rfl)
          · next names hunlink =>
              cases ht
              rcases Names.unlink_cases hunlink with ⟨e, _, _, heq⟩
              exact h.unlinks hnone (Or.inr heq)
      | clean fd =>
          simp only [UniqueConn.cliStep, hpc] at ht hspared
          rcases andThen_cases ht with ⟨u, hu, heq⟩
          rw [heq]
          exact h.binds hpc hspared rfl hu
      | bound k =>
          simp only [UniqueConn.cliStep, hpc] at ht
          rcases andThen_cases ht with ⟨u, hu, heq⟩
          rcases withNames_cases hu with ⟨names, hnames, hu'⟩
          rw [heq, hu']
          exact h.chmods hpc hnames
      | ready k =>
          simp only [UniqueConn.cliStep, hpc] at ht
          rcases andThen_cases ht with ⟨u, hu, heq⟩
          rw [heq]
          exact h.connects hpc hu

/-!
# The steps of the server
-/

structure Follows (uid : Pid -> Uid) (c : Conn) (phase : Phase) : Prop where
  notover : c.phase.over = false
  back : phase.unexamined = true -> c.phase.unexamined = true
  statbuf : forall fd i, phase = Phase.statted fd i ->
    Acceptable c.born (uid c.pid) i
  ret : forall ret stored, phase = Phase.finished ret stored -> 0 ≤ ret

/-- The connection that changes its phase was not over before, and so stays the
only unfinished one from its path. -/
theorem Line.alone_setPhase {uid : Pid -> Uid} {s : State} {i : Nat} {c : Conn}
    {phase : Phase} (h : Line uid s.view s.conns) (hc : s.conns[i]? = some c)
    (hf : Follows uid c phase) {a b : Nat} {d e : Conn}
    (hd : (setPhase s i c phase).conns[a]? = some d)
    (he : (setPhase s i c phase).conns[b]? = some e) (hab : a ≠ b)
    (hsame : d.path = e.path) (hphase : d.phase.unexamined = true) :
    e.phase.over = true := by
  have hlt : i < s.conns.length := (List.getElem?_eq_some_iff.mp hc).1
  unfold UniqueConn.setPhase at hd he
  rw [List.getElem?_set] at hd he
  by_cases hia : i = a
  · rw [if_pos hia, if_pos hlt] at hd
    cases hd
    rw [if_neg (by rw [hia]; exact hab)] at he
    rw [← hia] at hab
    exact h.alone i b c e hc he hab hsame (hf.back hphase)
  · rw [if_neg hia] at hd
    by_cases hib : i = b
    · rw [if_pos hib, if_pos hlt] at he
      cases he
      rw [← hib] at hab
      have hover := h.alone a i d c hd hc hab hsame hphase
      rw [hf.notover] at hover
      cases hover
    · rw [if_neg hib] at he
      exact h.alone a b d e hd he hab hsame hphase

theorem Line.setPhase {uid : Pid -> Uid} {s : State} {i : Nat} {c : Conn}
    {phase : Phase} (h : Line uid s.view s.conns) (hc : s.conns[i]? = some c)
    (hf : Follows uid c phase) :
    Line uid s.view (setPhase s i c phase).conns := by
  have hmem : c ∈ s.conns := List.mem_of_getElem? hc
  constructor
  · intro d hd
    rcases mem_setPhase hd with heq | hold
    · rw [heq]
      exact h.path c hmem
    · exact h.path d hold
  · intro d hd hphase
    rcases mem_setPhase hd with heq | hold
    · rw [heq] at hphase ⊢
      exact h.file c hmem (hf.back hphase)
    · exact h.file d hold hphase
  · intro d fd j hd hphase
    rcases mem_setPhase hd with heq | hold
    · rw [heq] at hphase ⊢
      exact hf.statbuf fd j hphase
    · exact h.statbuf d fd j hold hphase
  · intro d ret stored hd hphase
    rcases mem_setPhase hd with heq | hold
    · rw [heq] at hphase
      exact hf.ret ret stored hphase
    · exact h.ret d ret stored hold hphase
  · intro a b d e hd he hab hsame hphase
    exact h.alone_setPhase hc hf hd he hab hsame hphase

theorem over_setPhase {uid : Pid -> Uid} {s : State} {i : Nat} {c : Conn}
    {phase : Phase} {p : Path} (hc : s.conns[i]? = some c)
    (hf : Follows uid c phase)
    (hover : forall d, d ∈ s.conns -> d.path = p -> d.phase.over = true) :
    forall d, d ∈ (setPhase s i c phase).conns -> d.path = p ->
      d.phase.over = true := by
  intro d hd hpath
  rcases mem_setPhase hd with heq | hold
  · rw [heq] at hpath
    have hyes := hover c (List.mem_of_getElem? hc) hpath
    rw [hf.notover] at hyes
    cases hyes
  · exact hover d hold hpath

theorem ClientOk.setPhase {uid : Pid -> Uid} {s : State} {i : Nat} {c : Conn}
    {phase : Phase} {pid : Pid} {pc : CliPc}
    (h : ClientOk uid s.now s.view s.conns pid pc)
    (hc : s.conns[i]? = some c) (hf : Follows uid c phase) :
    ClientOk uid s.now s.view (setPhase s i c phase).conns pid pc := by
  cases pc with
  | idle ret => trivial
  | made fd => trivial
  | clean fd =>
      intro d hd hpath
      rcases mem_setPhase hd with heq | hold
      · rw [heq] at hpath ⊢
        have hnot := h c (List.mem_of_getElem? hc) hpath
        cases hun : phase.unexamined with
        | false => rfl
        | true =>
            rw [hf.back hun] at hnot
            cases hnot
      · exact h d hold hpath
  | bound k =>
      rcases h with ⟨hpid, hkpath, hborn, hover, hfile⟩
      exact ⟨hpid, hkpath, hborn, over_setPhase hc hf hover, hfile⟩
  | ready k =>
      rcases h with ⟨hpid, hkpath, hover, hfile⟩
      exact ⟨hpid, hkpath, over_setPhase hc hf hover, hfile⟩

/-- Phases only go forward, so a phase change keeps what is known about the
other connections. -/
theorem Delivery.setPhase {uid : Pid -> Uid} {s : State} {i : Nat} {c : Conn}
    {phase : Phase} (h : Delivery uid s) (hc : s.conns[i]? = some c)
    (hf : Follows uid c phase) : Delivery uid (setPhase s i c phase) :=
  ⟨h.line.setPhase hc hf, fun pid => (h.clients pid).setPhase hc hf⟩

/-- The server removes the path of a connection that it has examined: no other
connection and no client needs it any more. -/
theorem Delivery.removes {uid : Pid -> Uid} {s : State} {i : Nat} {c : Conn}
    (h : Delivery uid s) (hc : s.conns[i]? = some c)
    (hexamined : c.phase.examined = true) :
    Delivery uid { s with names := s.names.put (place s.dirs c.path) none } := by
  have hmem : c ∈ s.conns := List.mem_of_getElem? hc
  have hcpath := h.line.path c hmem
  rcases only_examined hexamined with ⟨hnotover, hnotun⟩
  have hother : forall pid, pid ≠ c.pid ->
      s.names.put (place s.dirs c.path) none (place s.dirs (cliPath pid)) =
        s.view (cliPath pid) := by
    intro pid hne
    rw [hcpath]
    exact put_other_client none hne
  constructor
  · apply h.line.names
    intro d hd hphase
    have hdpath := h.line.path d hd
    rw [hdpath]
    apply hother
    intro hsame
    rcases List.getElem?_of_mem hd with ⟨j, hj⟩
    by_cases hij : j = i
    · rw [hij, hc] at hj
      cases hj
      rw [hnotun] at hphase
      cases hphase
    · have hpath : d.path = c.path := by
        rw [hdpath, hcpath, hsame]
      have hover := h.line.alone j i d c hj hc hij hpath hphase
      rw [hnotover] at hover
      cases hover
  · intro pid
    have hclient := h.clients pid
    by_cases hpid : pid = c.pid
    · have hpath : c.path = cliPath pid := by
        rw [hcpath, hpid]
      cases hpc : s.cli pid with
      | idle ret => trivial
      | made fd => trivial
      | clean fd =>
          rw [hpc] at hclient
          exact hclient
      | bound k =>
          rw [hpc] at hclient
          have hover := hclient.2.2.2.1 c hmem hpath
          rw [hnotover] at hover
          cases hover
      | ready k =>
          rw [hpc] at hclient
          have hover := hclient.2.2.1 c hmem hpath
          rw [hnotover] at hover
          cases hover
    · apply hclient.change (Int.le_refl _)
      · exact hother pid hpid
      · intro d hd _
        exact hd

theorem statError_none {born now : Int} {u : Uid} {i : Inode}
    (h : Acceptable born u i) (hnow : now ≤ born + STALE) :
    statError now i = none := by
  have hctime := h.sock.ctime
  have hmtime := h.sock.mtime
  have hatime := h.sock.atime
  unfold statError
  rw [if_neg (by rw [h.sock.type]; decide),
    if_neg (by rw [h.perm]; decide), if_neg (by lia)]

theorem Delivery.srvAccept {uid : Pid -> Uid} {s t : State} {i fd : Nat}
    {c : Conn} (h : Delivery uid s) (hc : s.conns[i]? = some c)
    (ht : srvAccept s i fd c = some t) : Delivery uid t := by
  unfold UniqueConn.srvAccept at ht
  split at ht
  · next hfirst =>
      cases ht
      apply h.setPhase hc
      constructor
      · rw [hfirst.2]
        rfl
      · intro _
        rw [hfirst.2]
        rfl
      · intro fd j heq
        cases heq
      · intro ret stored heq
        cases heq
  · cases ht

theorem Delivery.srvPlace {uid : Pid -> Uid} {s : State} {c : Conn}
    (h : Delivery uid s) (hc : c ∈ s.conns) :
    s.placeIn s.srvCwd c.path = place s.dirs c.path := by
  rw [h.line.path c hc]
  exact s.placeIn_cliPath s.srvCwd c.pid

theorem Delivery.stat_ok {uid : Pid -> Uid} {s : State} {c : Conn}
    (h : Delivery uid s) (hc : c ∈ s.conns)
    (hphase : c.phase.unexamined = true) :
    exists i, s.names.stat s.dirs (s.placeIn s.srvCwd c.path) = some i ∧
      Acceptable c.born (uid c.pid) i := by
  rcases h.line.file c hc hphase with ⟨i, hi, hok⟩
  have hne : place s.dirs c.path ≠ [] := by
    rw [h.line.path c hc]
    exact place_cliPath_ne_nil s.dirs c.pid
  refine ⟨i, ?_, hok⟩
  unfold Names.stat
  rw [h.srvPlace hc, Names.resolve_file s.dirs hne hi]
  rfl

theorem Delivery.srvStat {uid : Pid -> Uid} {s t : State} {i : Nat} {c : Conn}
    (h : Delivery uid s) (hc : s.conns[i]? = some c)
    (ht : srvStat s i c = some t) : Delivery uid t := by
  unfold UniqueConn.srvStat at ht
  split at ht
  · next fd hphase =>
      rcases h.stat_ok (List.mem_of_getElem? hc) (by rw [hphase]; rfl) with
        ⟨statbuf, hstat, hok⟩
      rw [hstat] at ht
      cases ht
      apply h.setPhase hc
      constructor
      · rw [hphase]
        rfl
      · intro hun
        cases hun
      · intro fd j heq
        cases heq
        exact hok
      · intro ret stored heq
        cases heq
  · cases ht

theorem Delivery.srvCheck {uid : Pid -> Uid} {s t : State} {i : Nat}
    {uidptr : Bool} {c : Conn} (h : Delivery uid s)
    (hc : s.conns[i]? = some c)
    (hassumed : assumed s (Label.check i uidptr) = true)
    (ht : srvCheck s i uidptr c = some t) : Delivery uid t := by
  unfold assumed at hassumed
  simp only [hc, decide_eq_true_eq] at hassumed
  unfold UniqueConn.srvCheck at ht
  split at ht
  · next fd statbuf hphase =>
      have hok := h.line.statbuf c fd statbuf (List.mem_of_getElem? hc) hphase
      rw [statError_none hok hassumed] at ht
      cases ht
      apply h.setPhase hc
      constructor
      · rw [hphase]
        rfl
      · intro hun
        cases hun
      · intro fd j heq
        cases heq
      · intro ret stored heq
        cases heq
  · cases ht

theorem Delivery.srvUnlink {uid : Pid -> Uid} {srvUid : Uid} {s t : State}
    {i : Nat} {c : Conn} (h : Delivery uid s) (hc : s.conns[i]? = some c)
    (ht : srvUnlink srvUid s i c = some t) : Delivery uid t := by
  unfold UniqueConn.srvUnlink at ht
  split at ht
  · next fd stored hphase =>
      have hnotover : c.phase.over = false := by
        rw [hphase]
        rfl
      have hret : forall ret st,
          Phase.finished fd stored = Phase.finished ret st -> 0 ≤ ret := by
        intro ret st heq
        cases heq
        exact Int.natCast_nonneg fd
      split at ht
      · cases ht
        apply h.setPhase hc
        constructor
        · exact hnotover
        · intro hun
          cases hun
        · intro fd j heq
          cases heq
        · exact hret
      · next names hunlink =>
          cases ht
          rcases Names.unlink_cases hunlink with ⟨e, _, _, hnames⟩
          rw [hnames, h.srvPlace (List.mem_of_getElem? hc)]
          have hremoved := h.removes hc (by rw [hphase]; rfl)
          apply hremoved.setPhase hc
          constructor
          · exact hnotover
          · intro hun
            cases hun
          · intro fd j heq
            cases heq
          · exact hret
  · cases ht

theorem Delivery.step {uid : Pid -> Uid} {srvUid : Uid} {s t : State}
    {l : Label} (h : Delivery uid s) (hassumed : assumed s l = true)
    (hspared : spared s l = true) (ht : step uid srvUid s l = some t) :
    Delivery uid t := by
  cases l with
  | tick =>
      cases ht
      constructor
      · exact h.line
      · intro pid
        apply (h.clients pid).change
        · change s.now ≤ s.now + 1
          lia
        · rfl
        · intro c hc _
          exact hc
  | sys pid a => cases hassumed
  | cli pid o => exact h.cliStep hassumed hspared ht
  | accept i fd =>
      rcases atConn_cases ht with ⟨c, hc, hnext⟩
      exact h.srvAccept hc hnext
  | stat i =>
      rcases atConn_cases ht with ⟨c, hc, hnext⟩
      exact h.srvStat hc hnext
  | check i uidptr =>
      rcases atConn_cases ht with ⟨c, hc, hnext⟩
      exact h.srvCheck hc hassumed hnext
  | unlink i =>
      rcases atConn_cases ht with ⟨c, hc, hnext⟩
      exact h.srvUnlink hc hnext

theorem delivery_of_reachable {uid : Pid -> Uid} {srvUid : Uid} {s : State}
    (hs : (machine uid srvUid).ReachableUnder
      (fun s l => assumed s l = true ∧ spared s l = true) s) :
    Delivery uid s := by
  apply Machine.invariant_under _ _ hs
  · intro s hinit
    rcases hinit with ⟨_, hconns, hcli⟩
    constructor
    · rw [hconns]
      constructor
      · intro c hc
        cases hc
      · intro c hc
        cases hc
      · intro c fd i hc
        cases hc
      · intro c ret stored hc
        cases hc
      · intro i j c d hi
        cases hi
    · intro pid
      rw [hcli pid]
      trivial
  · intro s l t hI hl ht
    exact hI.step hl.1 hl.2 ht

/-!
# The server's answer
-/

theorem step_at {s : State} {i : Nat} {c : Conn}
    {next : Conn -> Option State} (hc : s.conns[i]? = some c) :
    atConn s i next = next c := by
  unfold atConn
  rw [hc]

theorem setPhase_at {s : State} {i : Nat} {c d : Conn} (phase : Phase)
    (hc : s.conns[i]? = some c) :
    (setPhase s i d phase).conns[i]? = some { d with phase := phase } :=
  List.getElem?_set_self (List.getElem?_eq_some_iff.mp hc).1

theorem srvStat_ok {s : State} {i fd : Nat} {c : Conn} {statbuf : Inode}
    (hphase : c.phase = Phase.accepted fd)
    (hstat : s.names.stat s.dirs (s.placeIn s.srvCwd c.path) = some statbuf) :
    srvStat s i c = some (setPhase s i c (Phase.statted fd statbuf)) := by
  unfold srvStat
  simp only [hphase, hstat]

theorem srvCheck_ok {s : State} {i fd : Nat} {c : Conn} {statbuf : Inode}
    (hphase : c.phase = Phase.statted fd statbuf)
    (hcheck : statError s.now statbuf = none) :
    srvCheck s i true c =
      some (setPhase s i c (Phase.passed fd (some statbuf.uid))) := by
  unfold srvCheck
  simp only [hphase, hcheck, if_true]

theorem srvUnlink_ok {s : State} {i fd : Nat} {c : Conn} {stored : Option Uid}
    (srvUid : Uid) (hphase : c.phase = Phase.passed fd stored)
    (hc : s.conns[i]? = some c) :
    exists t d, srvUnlink srvUid s i c = some t ∧ t.conns[i]? = some d ∧
      d.phase = Phase.finished fd stored := by
  unfold srvUnlink
  simp only [hphase]
  cases s.names.unlink srvUid (s.placeIn s.srvCwd c.path) with
  | none => exact ⟨_, _, rfl, setPhase_at _ hc, rfl⟩
  | some names =>
      have hc' : ({ s with names := names } : State).conns[i]? = some c := hc
      exact ⟨_, _, rfl, setPhase_at _ hc', rfl⟩

theorem serve_first {uid : Pid -> Uid} {srvUid : Uid} {s : State} {i : Nat}
    {c : Conn} (h : Delivery uid s) (hc : s.conns[i]? = some c)
    (hfirst : i = firstQueued s) (hphase : c.phase = Phase.queued)
    (htime : s.now ≤ c.born + STALE) (fd : Nat) :
    exists t d, (machine uid srvUid).run s
        [Label.accept i fd, Label.stat i, Label.check i true,
          Label.unlink i] = some t ∧
      t.conns[i]? = some d ∧
      d.phase = Phase.finished fd (some (uid c.pid)) := by
  rcases h.stat_ok (List.mem_of_getElem? hc) (by rw [hphase]; rfl) with
    ⟨statbuf, hstat, hok⟩
  let c₁ : Conn := { c with phase := Phase.accepted fd }
  let c₂ : Conn := { c with phase := Phase.statted fd statbuf }
  let c₃ : Conn := { c with phase := Phase.passed fd (some statbuf.uid) }
  let s₁ := setPhase s i c c₁.phase
  let s₂ := setPhase s₁ i c₁ c₂.phase
  let s₃ := setPhase s₂ i c₂ c₃.phase
  have hc₁ : s₁.conns[i]? = some c₁ := setPhase_at _ hc
  have hc₂ : s₂.conns[i]? = some c₂ := setPhase_at _ hc₁
  have hc₃ : s₃.conns[i]? = some c₃ := setPhase_at _ hc₂
  have hstep₁ : (machine uid srvUid).step s (Label.accept i fd) = some s₁ :=
    (step_at hc).trans (if_pos ⟨hfirst, hphase⟩)
  have hstep₂ : (machine uid srvUid).step s₁ (Label.stat i) = some s₂ :=
    (step_at hc₁).trans (srvStat_ok rfl hstat)
  have hstep₃ : (machine uid srvUid).step s₂ (Label.check i true) = some s₃ :=
    (step_at hc₂).trans (srvCheck_ok rfl (statError_none hok htime))
  rcases srvUnlink_ok srvUid (c := c₃) rfl hc₃ with ⟨t, d, ht, hd, hdphase⟩
  have hstep₄ : (machine uid srvUid).step s₃ (Label.unlink i) = some t :=
    (step_at hc₃).trans ht
  refine ⟨t, d, ?_, hd, ?_⟩
  · simp only [Machine.run_cons, Machine.run_nil, hstep₁, hstep₂, hstep₃,
      hstep₄]
  · rw [hdphase, hok.sock.uid]

/--
In every run in which no client works on the path of a connection of its own
that the server has not dealt with, no call of `srv_accept` on a connection
fails, and the connection that is first in line can be accepted.
-/
theorem no_connection_rejected (uid : Pid -> Uid) (srvUid : Uid) (s : State)
    (hs : (machine uid srvUid).ReachableUnder
      (fun s l => assumed s l = true ∧ spared s l = true) s) :
    (forall c ret stored, c ∈ s.conns ->
        c.phase = Phase.finished ret stored -> 0 ≤ ret) ∧
      forall (i : Nat) (c : Conn) (fd : Nat), s.conns[i]? = some c ->
        i = firstQueued s -> c.phase = Phase.queued ->
        s.now ≤ c.born + STALE ->
        exists t d, (machine uid srvUid).run s
            [Label.accept i fd, Label.stat i, Label.check i true,
              Label.unlink i] = some t ∧
          t.conns[i]? = some d ∧
          d.phase = Phase.finished fd (some (uid c.pid)) := by
  have hdelivery := delivery_of_reachable hs
  constructor
  · exact hdelivery.line.ret
  · intro i c fd hc hfirst hphase htime
    exact serve_first hdelivery hc hfirst hphase htime fd

/-- One connection and its acceptance, as in `plainRun`. -/
theorem no_connection_rejected_plain :
    exists (s : State) (c : Conn), c ∈ s.conns ∧
      c.phase = Phase.finished 7 (some 1) ∧ (0 : Int) ≤ 7 := by
  have hc : servedAsUserOne 1 ∈ connsAfter plainRun := by
    decide
  have hmeets : (machine ownUser 0).RunMeets
      (fun s l => assumed s l = true ∧ spared s l = true) emptyState
      plainRun := by
    decide
  rcases connsAfter_reachable hc with ⟨s, hrun, hmem⟩
  have hs := Machine.reachableUnder_of_run
    (Machine.ReachableUnder.init (emptyState_init ownUser 0)) hmeets hrun
  exact ⟨s, _, hmem, rfl,
    (no_connection_rejected ownUser 0 s hs).1 _ 7 (some 1) hmem rfl⟩

def twiceRun : List Label :=
  connectOnce 1 ++ connectOnce 1 ++ serveFirst ++
    [Label.accept 1 8, Label.stat 1]

def rejectedConn : Conn where
  pid := 1
  path := cliPath 1
  born := 0
  phase := Phase.finished (-2) none

/-- The second connection finds its path removed by the server's work on the
first one. -/
theorem second_connection_rejected :
    exists (s : State) (c : Conn),
      (machine ownUser 0).ReachableUnder (fun s l => assumed s l = true) s ∧
        c ∈ s.conns ∧ c.phase = Phase.finished (-2) none := by
  have hc : rejectedConn ∈ connsAfter twiceRun := by
    decide
  have hmeets : (machine ownUser 0).RunMeets (fun s l => assumed s l = true)
      emptyState twiceRun := by
    decide
  rcases connsAfter_reachable hc with ⟨s, hrun, hmem⟩
  have hs := Machine.reachableUnder_of_run
    (Machine.ReachableUnder.init (emptyState_init ownUser 0)) hmeets hrun
  exact ⟨s, _, hs, hmem, rfl⟩

end UniqueConn
end Apue
