import Apue.Foundation.Transition
import Apue.ThreadControl.Environ
import Mathlib.Logic.Function.Basic

/-!
# Thread-specific results

`getenv_l` keeps its result in a buffer of the calling thread, which it allocates
on the first call and which the destructor of the key frees.  Any threads call it
any number of times.  When the key cannot be created, the calls go on with the key 0,
which belongs to nobody or to some other code.
-/

namespace Apue
namespace Thrspec

open Foundation Environ

/-- Threads are never mixed up, not even after one has exited. -/
abbrev Tid := Nat

abbrev Addr := Nat

/-- What `malloc(ARG_MAX)` returns. -/
def Contents := { b : Buffer // b.length = ARG_MAX }

structure Block where
  owner : Tid
  bytes : Contents

inductive Pc where
  | idle
  | once (name : CString)
  | init (name : CString)
  | lock (name : CString)
  | getspecific (name : CString)
  | malloc (name : CString)
  | setspecific (name : CString) (envbuf : Addr)
  | search (name : CString) (envbuf : Addr) (i : Nat)
  | unlock (ret : Option Addr)
  | exited
  deriving DecidableEq

structure Result where
  addr : Addr
  string : List Byte
  deriving DecidableEq

/-- Where a thread is, its value of the key, its last result until it calls again
or exits, and how often it got memory from `malloc` and an error from
`pthread_setspecific`. -/
structure Thread where
  pc : Pc
  specific : Option Addr
  result : Option Result
  allocs : Nat
  failures : Nat

inductive Once where
  | notRun
  | running (thread : Tid)
  | done
  deriving Repr, DecidableEq

structure State where
  once : Once
  created : Nat
  mutex : Option Tid
  heap : Addr -> Option Block
  thread : Tid -> Thread

/-- A call, the exit of a thread, and a step inside a call; the outcomes of
`pthread_key_create`, `malloc` and `pthread_setspecific` are chosen by the system,
and so is what a foreign key has for the thread. -/
inductive Label where
  | call (t : Tid) (name : CString)
  | exit (t : Tid)
  | inside (t : Tid)
  | key_create (t : Tid) (ok : Bool)
  | foreign (t : Tid) (value : Option Addr)
  | malloc (t : Tid) (r : Option (Addr × Contents))
  | setspecific (t : Tid) (ok : Bool)

def put (s : State) (t : Tid) (th : Thread) : State :=
  { s with thread := Function.update s.thread t th }

def goto (s : State) (t : Tid) (pc : Pc) : State :=
  put s t { s.thread t with pc := pc }

def read (s : State) (a : Addr) : Option (List Byte) :=
  (s.heap a).map (fun block => str block.bytes.val)

def call (s : State) (t : Tid) (name : CString) : Option State :=
  match (s.thread t).pc with
  | Pc.idle =>
      some (put s t { s.thread t with pc := Pc.once name, result := none })
  | _ => none

/-- `free`, as the destructor of the key. -/
def free (heap : Addr -> Option Block) : Option Addr -> Addr -> Option Block
  | none => heap
  | some a => Function.update heap a none

def exit (s : State) (t : Tid) : Option State :=
  match (s.thread t).pc with
  | Pc.idle =>
      some
        { put s t
            { s.thread t with
              pc := Pc.exited
              specific := none
              result := none } with
          heap := free s.heap (s.thread t).specific }
  | _ => none

/-- The first thread runs `thread_init`, and the others wait for it. -/
def pthread_once (s : State) (t : Tid) (name : CString) : Option State :=
  match s.once with
  | Once.notRun => some { goto s t (Pc.init name) with once := Once.running t }
  | Once.running _ => none
  | Once.done => some (goto s t (Pc.lock name))

/-- It creates the key if it can, and `pthread_once` returns. -/
def thread_init (s : State) (t : Tid) (ok : Bool) : Option State :=
  match (s.thread t).pc with
  | Pc.init name =>
      some
        { goto s t (Pc.lock name) with
          once := Once.done
          created := if ok then s.created + 1 else s.created }
  | _ => none

def pthread_mutex_lock (s : State) (t : Tid) (name : CString) : Option State :=
  if s.mutex = none then
    some { goto s t (Pc.getspecific name) with mutex := some t }
  else
    none

def getspecific (s : State) (t : Tid) (name : CString) (value : Option Addr) :
    State :=
  match value with
  | none => goto s t (Pc.malloc name)
  | some a => goto s t (Pc.search name a 0)

/-- Without a key of its own. -/
def foreign (s : State) (t : Tid) (value : Option Addr) : Option State :=
  match (s.thread t).pc with
  | Pc.getspecific name =>
      if s.created = 0 then some (getspecific s t name value) else none
  | _ => none

/-- `strcpy` to the beginning of a block; `none` when it writes outside. -/
def copy (b : Contents) (v : CString) : Option Contents :=
  match h : strcpy b.val 0 v.bytes with
  | Except.ok b' => some ⟨b', (strcpy_length h).trans b.property⟩
  | Except.error _ => none

/-- The body of the loop for the entry `i`; `none` where it reads or writes outside,
or `i` overflows. -/
def search (env : Environ) (s : State) (t : Tid) (name : CString)
    (envbuf : Addr) (i : Nat) : Option State :=
  match env.strings[i]? with
  | none => some (goto s t (Pc.unlock none))
  | some entry =>
      match test name entry with
      | none => none
      | some true =>
          match s.heap envbuf with
          | none => none
          | some block =>
              match copy block.bytes (value name entry) with
              | none => none
              | some bytes =>
                  some
                    { goto s t (Pc.unlock (some envbuf)) with
                      heap := Function.update s.heap envbuf
                        (some { block with bytes := bytes }) }
      | some false =>
          if i < INT_MAX.toNat then
            some (goto s t (Pc.search name envbuf (i + 1)))
          else
            none

def unlock (s : State) (t : Tid) (ret : Option Addr) : State :=
  { put s t
      { s.thread t with
        pc := Pc.idle
        result := ret.bind (fun a => (read s a).map (fun v => ⟨a, v⟩)) } with
    mutex := none }

/-- The steps of `getenv_l` whose outcome is determined. -/
def getenv_l (env : Environ) (s : State) (t : Tid) : Option State :=
  match (s.thread t).pc with
  | Pc.once name => pthread_once s t name
  | Pc.lock name => pthread_mutex_lock s t name
  | Pc.getspecific name =>
      if s.created = 0 then none
      else some (getspecific s t name (s.thread t).specific)
  | Pc.search name envbuf i => search env s t name envbuf i
  | Pc.unlock ret => some (unlock s t ret)
  | _ => none

/-- `malloc` fails, or returns a block that is not in use. -/
def malloc (s : State) (t : Tid) (r : Option (Addr × Contents)) : Option State :=
  match (s.thread t).pc with
  | Pc.malloc name =>
      match r with
      | none => some (goto s t (Pc.unlock none))
      | some (a, bytes) =>
          match s.heap a with
          | some _ => none
          | none =>
              some
                { put s t
                    { s.thread t with
                      pc := Pc.setspecific name a
                      allocs := (s.thread t).allocs + 1 } with
                  heap := Function.update s.heap a (some ⟨t, bytes⟩) }
  | _ => none

/-- Nothing looks at the outcome.  A foreign key is no business of the thread's
value of its own. -/
def setspecific (s : State) (t : Tid) (ok : Bool) : Option State :=
  match (s.thread t).pc with
  | Pc.setspecific name a =>
      if ok ∧ s.created ≠ 0 then
        some
          (put s t
            { s.thread t with pc := Pc.search name a 0, specific := some a })
      else
        some
          (put s t
            { s.thread t with
              pc := Pc.search name a 0
              failures := (s.thread t).failures + 1 })
  | _ => none

def step (env : Environ) (s : State) : Label -> Option State
  | Label.call t name => call s t name
  | Label.exit t => exit s t
  | Label.inside t => getenv_l env s t
  | Label.key_create t ok => thread_init s t ok
  | Label.foreign t value => foreign s t value
  | Label.malloc t r => malloc s t r
  | Label.setspecific t ok => setspecific s t ok

def start : State where
  once := Once.notRun
  created := 0
  mutex := none
  heap := fun _ => none
  thread := fun _ =>
    { pc := Pc.idle, specific := none, result := none, allocs := 0, failures := 0 }

def machine (env : Environ) : Machine State Label where
  init s := s = start
  step := step env

/-!
# What the threads rely on
-/

def Pc.envbuf : Pc -> Option Addr
  | Pc.setspecific _ a => some a
  | Pc.search _ a _ => some a
  | Pc.unlock ret => ret
  | _ => none

def Thread.Uses (th : Thread) (a : Addr) : Prop :=
  th.specific = some a ∨ th.pc.envbuf = some a ∨
    th.result.map Result.addr = some a

/-- Inside `getenv_l` behind the call of `pthread_once`. -/
def Pc.pastOnce : Pc -> Bool
  | Pc.idle => false
  | Pc.once _ => false
  | Pc.init _ => false
  | Pc.exited => false
  | _ => true

def Label.Creates : Label -> Prop
  | Label.key_create _ ok => ok = true
  | _ => True

def Label.next (t : Tid) : Label -> Bool
  | Label.call u _ => u == t
  | Label.exit u => u == t
  | _ => false

/-!
# The invariant
-/

def Pc.inInit : Pc -> Bool
  | Pc.init _ => true
  | _ => false

/-- How often `thread_init` has run. -/
def Once.runs : Once -> Nat
  | Once.done => 1
  | _ => 0

/-- A thread without a value of the key has no memory, apart from what it lost
when `pthread_setspecific` failed. -/
def Thread.Counted (th : Thread) : Prop :=
  match th.pc with
  | Pc.malloc _ => th.allocs = th.failures
  | Pc.setspecific _ _ => th.allocs = th.failures + 1
  | Pc.exited => th.allocs ≤ th.failures + 1
  | _ => th.allocs ≤ th.failures + 1 ∧
      (th.specific = none -> th.allocs = th.failures)

/-- The state as far as the thread `t` is concerned. -/
structure Local (s : State) (t : Tid) : Prop where
  owned : forall a, (s.thread t).Uses a ->
    exists block, s.heap a = some block ∧ block.owner = t
  returned : forall r, (s.thread t).result = some r ->
    (s.thread t).pc = Pc.idle ∧ read s r.addr = some r.string
  counted : (s.thread t).Counted
  init : (s.thread t).pc.inInit = true -> s.once = Once.running t
  past : (s.thread t).pc.pastOnce = true -> s.once = Once.done

structure Inv (s : State) : Prop where
  created : s.created = s.once.runs
  threads : forall t, Local s t

/-- A step of `t` as the other threads see it. -/
structure Frame (s s' : State) (t : Tid) : Prop where
  thread : forall u, u ≠ t -> s'.thread u = s.thread u
  heap : forall a block, s.heap a = some block -> block.owner ≠ t ->
    s'.heap a = some block
  running : forall u, u ≠ t -> s.once = Once.running u ->
    s'.once = Once.running u
  done : s.once = Once.done -> s'.once = Once.done

section Frame

variable {s s' : State} {t u : Tid}

theorem Local.frame (h : Local s u) (hframe : Frame s s' t) (hu : u ≠ t) :
    Local s' u := by
  have hthread := hframe.thread u hu
  have hheap : forall a, (s.thread u).Uses a ->
      exists block, s.heap a = some block ∧ s'.heap a = some block ∧
        block.owner = u := by
    intro a ha
    rcases h.owned a ha with ⟨block, hblock, howner⟩
    refine ⟨block, hblock, hframe.heap a block hblock ?_, howner⟩
    rw [howner]
    exact hu
  constructor
  · intro a ha
    rw [hthread] at ha
    rcases hheap a ha with ⟨block, _, hblock, howner⟩
    exact ⟨block, hblock, howner⟩
  · intro r hr
    rw [hthread] at hr ⊢
    rcases h.returned r hr with ⟨hpc, hread⟩
    refine ⟨hpc, ?_⟩
    have huses : (s.thread u).Uses r.addr := by
      simp [Thread.Uses, hr]
    rcases hheap r.addr huses with ⟨block, hold, hnew, _⟩
    simpa [read, hold, hnew] using hread
  · rw [hthread]
    exact h.counted
  · rw [hthread]
    intro hinit
    exact hframe.running u hu (h.init hinit)
  · rw [hthread]
    intro hpast
    exact hframe.done (h.past hpast)

theorem Inv.advance (h : Inv s) (hframe : Frame s s' t)
    (hcreated : s'.created = s'.once.runs) (ht : Local s' t) : Inv s' := by
  refine ⟨hcreated, ?_⟩
  intro u
  by_cases hu : u = t
  · rw [hu]
    exact ht
  · exact (h.threads u).frame hframe hu

theorem put_same (s : State) (t : Tid) (th : Thread) :
    (put s t th).thread t = th := by
  simp [put]

theorem put_other (s : State) (th : Thread) (hu : u ≠ t) :
    (put s t th).thread u = s.thread u := by
  simp [put, hu]

theorem frame_put (s : State) (t : Tid) (th : Thread) : Frame s (put s t th) t :=
  ⟨fun _ hu => put_other s th hu, fun _ _ hblock _ => hblock,
    fun _ _ hrunning => hrunning, fun hdone => hdone⟩

theorem Inv.unique (h : Inv s) {a : Addr} (ht : (s.thread t).Uses a)
    (hu : (s.thread u).Uses a) : t = u := by
  rcases (h.threads t).owned a ht with ⟨block, hblock, howner⟩
  rcases (h.threads u).owned a hu with ⟨other, hother, howner'⟩
  rw [hblock] at hother
  cases hother
  rw [← howner, howner']

end Frame

theorem start_inv : Inv start := by
  refine ⟨rfl, ?_⟩
  intro t
  constructor
  · intro a ha
    simp [Thread.Uses, start, Pc.envbuf] at ha
  · intro r hr
    cases hr
  · exact ⟨Nat.zero_le _, fun _ => rfl⟩
  · intro hinit
    cases hinit
  · intro hpast
    cases hpast

/-!
# Steps
-/

section Steps

variable {s s' : State} {t : Tid} {old pc : Pc}

theorem Local.no_result (h : Local s t) (hpc : (s.thread t).pc = old)
    (hold : old ≠ Pc.idle) : (s.thread t).result = none := by
  cases hresult : (s.thread t).result with
  | none => rfl
  | some r =>
      rcases h.returned r hresult with ⟨hidle, _⟩
      rw [hpc] at hidle
      exact absurd hidle hold

theorem Local.inside (h : Local s t) (hpc : (s.thread t).pc = old)
    (hold : old ≠ Pc.idle) {th : Thread} (hthread : s'.thread t = th)
    (hresult : th.result = (s.thread t).result)
    (howned : forall a, th.specific = some a ∨ th.pc.envbuf = some a ->
      exists block, s'.heap a = some block ∧ block.owner = t)
    (hcounted : th.Counted)
    (hinit : th.pc.inInit = true -> s'.once = Once.running t)
    (hpast : th.pc.pastOnce = true -> s'.once = Once.done) : Local s' t := by
  have hnone : th.result = none := hresult.trans (h.no_result hpc hold)
  constructor
  · intro a ha
    rw [hthread] at ha
    rcases ha with hspecific | hbuf | hres
    · exact howned a (Or.inl hspecific)
    · exact howned a (Or.inr hbuf)
    · rw [hnone] at hres
      cases hres
  · intro r hr
    rw [hthread, hnone] at hr
    cases hr
  · rw [hthread]
    exact hcounted
  · rw [hthread]
    exact hinit
  · rw [hthread]
    exact hpast

theorem Inv.goto (h : Inv s) {once : Once} {created : Nat} {mutex : Option Tid}
    (hpc : (s.thread t).pc = old) (hold : old ≠ Pc.idle)
    (hrunning : forall u, u ≠ t -> s.once = Once.running u ->
      once = Once.running u)
    (hdone : s.once = Once.done -> once = Once.done)
    (hcreated : created = once.runs)
    (henvbuf : forall a, pc.envbuf = some a -> (s.thread t).Uses a)
    (hcounted : Thread.Counted { s.thread t with pc := pc })
    (hinit : pc.inInit = true -> once = Once.running t)
    (hpast : pc.pastOnce = true -> once = Once.done) :
    Inv
      { Thrspec.goto s t pc with
        once := once
        created := created
        mutex := mutex } := by
  refine h.advance (t := t) ?_ hcreated ?_
  · exact ⟨fun _ hu => put_other s _ hu, fun _ _ hblock _ => hblock, hrunning,
      hdone⟩
  · refine (h.threads t).inside hpc hold (put_same s t _) ?_ ?_ hcounted hinit
      hpast
    · rfl
    · intro a ha
      apply (h.threads t).owned a
      rcases ha with hspecific | hbuf
      · exact Or.inl hspecific
      · exact henvbuf a hbuf

theorem Inv.goOn (h : Inv s) {mutex : Option Tid}
    (hpc : (s.thread t).pc = old) (hold : old.pastOnce = true)
    (henvbuf : forall a, pc.envbuf = some a -> (s.thread t).Uses a)
    (hcounted : Thread.Counted { s.thread t with pc := pc })
    (hinit : pc.inInit = false) :
    Inv { Thrspec.goto s t pc with mutex := mutex } := by
  apply h.goto hpc _ (fun _ _ hrun => hrun) (fun hdone => hdone) h.created henvbuf
    hcounted
  · rw [hinit]
    exact Bool.noConfusion
  · intro _
    apply (h.threads t).past
    rw [hpc]
    exact hold
  · intro hidle
    rw [hidle] at hold
    cases hold

theorem Inv.store (h : Inv s) {th : Thread} {a : Addr} {block : Block}
    (hpc : (s.thread t).pc = old) (hold : old.pastOnce = true)
    (howner : block.owner = t)
    (hblock : forall b, s.heap a = some b -> b.owner = t)
    (hspecific : th.specific = (s.thread t).specific)
    (hresult : th.result = (s.thread t).result)
    (henvbuf : th.pc.envbuf = some a) (hcounted : th.Counted)
    (hinit : th.pc.inInit = false) :
    Inv
      { put s t th with heap := Function.update s.heap a (some block) } := by
  have ht := h.threads t
  have hlive : old ≠ Pc.idle := by
    intro hidle
    rw [hidle] at hold
    cases hold
  refine h.advance (t := t) ?_ h.created ?_
  · refine ⟨fun _ hu => put_other s _ hu, ?_, fun _ _ hrun => hrun,
      fun hdone => hdone⟩
    intro b other hother hne
    have hba : b ≠ a := by
      intro heq
      rw [heq] at hother
      exact hne (hblock other hother)
    exact (Function.update_of_ne hba _ _).trans hother
  · refine ht.inside hpc hlive (put_same s t th) hresult ?_ hcounted ?_ ?_
    · intro b hb
      show exists c, Function.update s.heap a (some block) b = some c ∧ _
      by_cases hba : b = a
      · rw [hba, Function.update_self]
        exact ⟨block, rfl, howner⟩
      · rw [Function.update_of_ne hba]
        apply ht.owned b
        rcases hb with hb | hb
        · rw [hspecific] at hb
          exact Or.inl hb
        · rw [henvbuf] at hb
          cases hb
          exact absurd rfl hba
    · rw [hinit]
      exact Bool.noConfusion
    · intro _
      apply ht.past
      rw [hpc]
      exact hold

theorem Inv.call (h : Inv s) {name : CString}
    (hs : Thrspec.call s t name = some s') : Inv s' := by
  unfold Thrspec.call at hs
  split at hs
  · next hpc =>
      cases hs
      have ht := h.threads t
      apply h.advance (frame_put s t _) h.created
      constructor
      · intro a ha
        apply ht.owned a
        rw [put_same] at ha
        rcases ha with hspecific | hbuf | hres
        · exact Or.inl hspecific
        · cases hbuf
        · cases hres
      · intro r hr
        rw [put_same] at hr
        cases hr
      · have hcounted := ht.counted
        simp only [Thread.Counted, hpc] at hcounted
        rw [put_same]
        exact hcounted
      · rw [put_same]
        exact Bool.noConfusion
      · rw [put_same]
        exact Bool.noConfusion
  · cases hs

theorem free_other {heap : Addr -> Option Block} {specific : Option Addr}
    {a : Addr} (h : specific ≠ some a) : free heap specific a = heap a := by
  cases specific with
  | none => rfl
  | some b =>
      have hne : a ≠ b := by
        intro heq
        exact h (congrArg some heq.symm)
      exact Function.update_of_ne hne _ _

theorem Inv.exit (h : Inv s) (hs : Thrspec.exit s t = some s') : Inv s' := by
  unfold Thrspec.exit at hs
  split at hs
  · next hpc =>
      cases hs
      have ht := h.threads t
      refine h.advance (t := t) ?_ h.created ?_
      · refine ⟨fun u hu => put_other s _ hu, ?_, fun _ _ hrun => hrun,
          fun hdone => hdone⟩
        intro a block hblock howner
        have hother : (s.thread t).specific ≠ some a := by
          intro hspecific
          rcases ht.owned a (Or.inl hspecific) with ⟨own, hown, heq⟩
          rw [hblock] at hown
          cases hown
          exact howner heq
        exact (free_other hother).trans hblock
      · constructor
        · intro a ha
          change Thread.Uses ((put s t _).thread t) a at ha
          rw [put_same] at ha
          rcases ha with hspecific | hbuf | hres
          · cases hspecific
          · cases hbuf
          · cases hres
        · intro r hr
          change ((put s t _).thread t).result = some r at hr
          rw [put_same] at hr
          cases hr
        · have hcounted := ht.counted
          simp only [Thread.Counted, hpc] at hcounted
          change Thread.Counted ((put s t _).thread t)
          rw [put_same]
          exact hcounted.1
        · change ((put s t _).thread t).pc.inInit = true -> _
          rw [put_same]
          exact Bool.noConfusion
        · change ((put s t _).thread t).pc.pastOnce = true -> _
          rw [put_same]
          exact Bool.noConfusion
  · cases hs

theorem no_envbuf {th : Thread} (h : pc.envbuf = none) :
    forall a, pc.envbuf = some a -> th.Uses a := by
  intro a ha
  rw [h] at ha
  cases ha

theorem Inv.pthread_once (h : Inv s) {name : CString}
    (hpc : (s.thread t).pc = Pc.once name)
    (hs : Thrspec.pthread_once s t name = some s') : Inv s' := by
  have hcounted := (h.threads t).counted
  simp only [Thread.Counted, hpc] at hcounted
  unfold Thrspec.pthread_once at hs
  split at hs
  · next honce =>
      cases hs
      apply h.goto hpc Pc.noConfusion
      · intro u _ hrun
        rw [honce] at hrun
        cases hrun
      · intro hdone
        rw [honce] at hdone
        cases hdone
      · show s.created = 0
        rw [h.created, honce]
        rfl
      · exact no_envbuf rfl
      · exact hcounted
      · exact fun _ => rfl
      · exact Bool.noConfusion
  · cases hs
  · next honce =>
      cases hs
      apply h.goto hpc Pc.noConfusion (fun _ _ hrun => hrun) (fun hdone => hdone)
      · exact h.created
      · exact no_envbuf rfl
      · exact hcounted
      · exact Bool.noConfusion
      · exact fun _ => honce

theorem Inv.thread_init (h : Inv s)
    (hs : Thrspec.thread_init s t true = some s') : Inv s' := by
  unfold Thrspec.thread_init at hs
  split at hs
  · next name hpc =>
      have hcounted := (h.threads t).counted
      simp only [Thread.Counted, hpc] at hcounted
      have honce : s.once = Once.running t := by
        apply (h.threads t).init
        rw [hpc]
        rfl
      cases hs
      apply h.goto hpc Pc.noConfusion
      · intro u hu hrun
        rw [honce] at hrun
        cases hrun
        exact absurd rfl hu
      · exact fun _ => rfl
      · rw [h.created, honce]
        rfl
      · exact no_envbuf rfl
      · exact hcounted
      · exact Bool.noConfusion
      · exact fun _ => rfl
  · cases hs

theorem Inv.created_past (h : Inv s) (hpast : (s.thread t).pc.pastOnce = true) :
    s.created = 1 := by
  rw [h.created, (h.threads t).past hpast]
  rfl

theorem Inv.pthread_mutex_lock (h : Inv s) {name : CString}
    (hpc : (s.thread t).pc = Pc.lock name)
    (hs : Thrspec.pthread_mutex_lock s t name = some s') : Inv s' := by
  have hcounted := (h.threads t).counted
  simp only [Thread.Counted, hpc] at hcounted
  unfold Thrspec.pthread_mutex_lock at hs
  split at hs
  · cases hs
    exact h.goOn hpc rfl (no_envbuf rfl) hcounted rfl
  · cases hs

theorem Inv.getspecific (h : Inv s) {name : CString}
    (hpc : (s.thread t).pc = Pc.getspecific name) :
    Inv (Thrspec.getspecific s t name (s.thread t).specific) := by
  have hcounted := (h.threads t).counted
  simp only [Thread.Counted, hpc] at hcounted
  unfold Thrspec.getspecific
  split
  · next hnone =>
      exact h.goOn hpc rfl (no_envbuf rfl) (hcounted.2 hnone) rfl
  · next b hsome =>
      refine h.goOn hpc rfl ?_ ?_ rfl
      · intro a ha
        cases ha
        exact Or.inl hsome
      · exact hcounted

theorem Inv.search (h : Inv s) {env : Environ} {name : CString} {envbuf : Addr}
    {i : Nat} (hpc : (s.thread t).pc = Pc.search name envbuf i)
    (hs : Thrspec.search env s t name envbuf i = some s') : Inv s' := by
  have ht := h.threads t
  have hcounted := ht.counted
  simp only [Thread.Counted, hpc] at hcounted
  have huses : (s.thread t).Uses envbuf := by
    simp [Thread.Uses, hpc, Pc.envbuf]
  unfold Thrspec.search at hs
  split at hs
  · cases hs
    exact h.goOn hpc rfl (no_envbuf rfl) hcounted rfl
  · split at hs
    · cases hs
    · split at hs
      · cases hs
      · next block hblock =>
          have howner : forall b, s.heap envbuf = some b -> b.owner = t := by
            intro b hb
            rcases ht.owned envbuf huses with ⟨own, hown, howner⟩
            rw [hown] at hb
            cases hb
            exact howner
          split at hs
          · cases hs
          · cases hs
            exact h.store hpc rfl (howner block hblock) howner rfl rfl rfl
              hcounted rfl
    · split at hs
      · cases hs
        refine h.goOn hpc rfl ?_ ?_ rfl
        · intro a ha
          cases ha
          exact huses
        · exact hcounted
      · cases hs

theorem Inv.malloc (h : Inv s) {r : Option (Addr × Contents)}
    (hs : Thrspec.malloc s t r = some s') : Inv s' := by
  have hcounted := (h.threads t).counted
  unfold Thrspec.malloc at hs
  split at hs
  · next hpc =>
      simp only [Thread.Counted, hpc] at hcounted
      split at hs
      · cases hs
        refine h.goOn hpc rfl (no_envbuf rfl) ?_ rfl
        exact ⟨Nat.le_succ_of_le (Nat.le_of_eq hcounted), fun _ => hcounted⟩
      · split at hs
        · cases hs
        · next hfree =>
            cases hs
            refine h.store hpc rfl ?_ ?_ ?_ ?_ ?_ ?_ ?_
            · rfl
            · intro b hb
              rw [hfree] at hb
              cases hb
            · rfl
            · rfl
            · rfl
            · exact congrArg Nat.succ hcounted
            · rfl
  · cases hs

theorem Inv.setspecific (h : Inv s) {ok : Bool}
    (hs : Thrspec.setspecific s t ok = some s') : Inv s' := by
  have ht := h.threads t
  have hcounted := ht.counted
  unfold Thrspec.setspecific at hs
  split at hs
  · next name b hpc =>
      simp only [Thread.Counted, hpc] at hcounted
      have huses : (s.thread t).Uses b := by
        simp [Thread.Uses, hpc, Pc.envbuf]
      have hdone : s.once = Once.done := by
        apply ht.past
        rw [hpc]
        rfl
      split at hs
      · cases hs
        apply h.advance (frame_put s t _) h.created
        refine ht.inside hpc Pc.noConfusion (put_same s t _) rfl ?_ ?_
          Bool.noConfusion (fun _ => hdone)
        · intro a ha
          rcases ha with ha | ha
          · cases ha
            exact ht.owned b huses
          · cases ha
            exact ht.owned b huses
        · exact ⟨Nat.le_of_eq hcounted, fun hnone => by cases hnone⟩
      · cases hs
        apply h.advance (frame_put s t _) h.created
        refine ht.inside hpc Pc.noConfusion (put_same s t _) rfl ?_ ?_
          Bool.noConfusion (fun _ => hdone)
        · intro a ha
          rcases ha with ha | ha
          · exact ht.owned a (Or.inl ha)
          · cases ha
            exact ht.owned b huses
        · exact ⟨Nat.le_succ_of_le (Nat.le_of_eq hcounted), fun _ => hcounted⟩
  · cases hs

theorem Inv.unlock (h : Inv s) {ret : Option Addr}
    (hpc : (s.thread t).pc = Pc.unlock ret) : Inv (Thrspec.unlock s t ret) := by
  have ht := h.threads t
  have hcounted := ht.counted
  simp only [Thread.Counted, hpc] at hcounted
  refine h.advance (t := t) ?_ h.created ?_
  · exact ⟨fun _ hu => put_other s _ hu, fun _ _ hblock _ => hblock,
      fun _ _ hrun => hrun, fun hdone => hdone⟩
  · constructor
    · intro a ha
      apply ht.owned a
      change Thread.Uses ((put s t _).thread t) a at ha
      rw [put_same] at ha
      rcases ha with hspecific | hbuf | hres
      · exact Or.inl hspecific
      · cases hbuf
      · right
        left
        rw [hpc]
        rcases Option.map_eq_some_iff.mp hres with ⟨r, hr, haddr⟩
        rcases Option.bind_eq_some_iff.mp hr with ⟨b, hret, hread⟩
        rcases Option.map_eq_some_iff.mp hread with ⟨v, _, heq⟩
        rw [← haddr, ← heq]
        exact hret
    · intro r hr
      change ((put s t _).thread t).result = some r at hr
      change ((put s t _).thread t).pc = Pc.idle ∧ read s r.addr = some r.string
      rw [put_same] at hr ⊢
      refine ⟨rfl, ?_⟩
      rcases Option.bind_eq_some_iff.mp hr with ⟨b, hret, hread⟩
      rcases Option.map_eq_some_iff.mp hread with ⟨v, hv, heq⟩
      rw [← heq]
      exact hv
    · change Thread.Counted ((put s t _).thread t)
      rw [put_same]
      exact hcounted
    · change ((put s t _).thread t).pc.inInit = true -> _
      rw [put_same]
      exact Bool.noConfusion
    · change ((put s t _).thread t).pc.pastOnce = true -> _
      rw [put_same]
      exact Bool.noConfusion

theorem Inv.getenv_l (h : Inv s) {env : Environ}
    (hs : Thrspec.getenv_l env s t = some s') : Inv s' := by
  unfold Thrspec.getenv_l at hs
  split at hs
  · next hpc => exact h.pthread_once hpc hs
  · next hpc => exact h.pthread_mutex_lock hpc hs
  · next hpc =>
      split at hs
      · cases hs
      · cases hs
        exact h.getspecific hpc
  · next hpc => exact h.search hpc hs
  · next hpc =>
      cases hs
      exact h.unlock hpc
  · cases hs

theorem Inv.foreign_none (h : Inv s) (value : Option Addr) :
    Thrspec.foreign s t value = none := by
  unfold Thrspec.foreign
  split
  · next hpc =>
      have hcreated : s.created = 1 := h.created_past (by rw [hpc]; rfl)
      rw [if_neg (by rw [hcreated]; exact Nat.one_ne_zero)]
  · rfl

end Steps

theorem inv_step {env : Environ} {s s' : State} {l : Label} (h : Inv s)
    (hl : l.Creates) (hs : step env s l = some s') : Inv s' := by
  cases l with
  | call t name => exact h.call hs
  | exit t => exact h.exit hs
  | inside t => exact h.getenv_l hs
  | key_create t ok =>
      change ok = true at hl
      rw [hl] at hs
      exact h.thread_init hs
  | foreign t value =>
      rw [step, h.foreign_none value] at hs
      cases hs
  | malloc t r => exact h.malloc hs
  | setspecific t ok => exact h.setspecific hs

abbrev Created (env : Environ) : State -> Prop :=
  (machine env).ReachableUnder (fun _ l => l.Creates)

theorem inv_of_reachable {env : Environ} {s : State}
    (hs : Created env s) : Inv s := by
  apply Machine.invariant_under _ _ hs
  · intro s hinit
    rw [hinit]
    exact start_inv
  · intro s l t
    exact inv_step

/-!
# The copy stays inside the buffer
-/

theorem copy_ok (b : Contents) {v : CString} (h : v.length < ARG_MAX) :
    exists bytes, copy b v = some bytes ∧ str bytes.val = v.bytes := by
  have hfit : v.length < b.val.length := by
    rw [b.property]
    exact h
  rcases strcpy_start v hfit with ⟨b', hcopy, hlen, hspells⟩
  unfold copy
  split
  · next b'' hb =>
      rw [hcopy] at hb
      cases hb
      exact ⟨_, rfl, hspells.str_eq⟩
  · next i herr =>
      rw [hcopy] at herr
      cases herr

/-- Where an entry belongs to the name, the loop ends with its value in the
buffer. -/
theorem search_entry {env : Environ} {s : State} {t : Tid}
    {name entry : CString} {envbuf : Addr} {i : Nat} {block : Block}
    (hentry : env.strings[i]? = some entry)
    (hname : test name entry = some true) (hblock : s.heap envbuf = some block) :
    exists bytes : Contents, str bytes.val = (value name entry).bytes ∧
      search env s t name envbuf i =
        some
          { goto s t (Pc.unlock (some envbuf)) with
            heap := Function.update s.heap envbuf
              (some { block with bytes := bytes }) } := by
  have hfits : (value name entry).length < ARG_MAX :=
    value_fits env (List.mem_of_getElem? hentry)
  rcases copy_ok block.bytes hfits with ⟨bytes, hcopy, hstr⟩
  refine ⟨bytes, hstr, ?_⟩
  simp [search, hentry, hname, hblock, hcopy]

theorem search_returns {env : Environ} {s : State}
    (hs : Created env s) {t : Tid} {name entry : CString}
    {envbuf : Addr} {i : Nat} {block : Block}
    (hpc : (s.thread t).pc = Pc.search name envbuf i)
    (hentry : env.strings[i]? = some entry)
    (hname : test name entry = some true) (hblock : s.heap envbuf = some block) :
    exists s', Created env s' ∧
      (s'.thread t).result = some ⟨envbuf, (value name entry).bytes⟩ := by
  rcases search_entry (t := t) hentry hname hblock with ⟨bytes, hstr, hsearch⟩
  let found : State :=
    { goto s t (Pc.unlock (some envbuf)) with
      heap := Function.update s.heap envbuf
        (some { block with bytes := bytes }) }
  have hcopy : (machine env).step s (Label.inside t) = some found := by
    show getenv_l env s t = some found
    simp only [getenv_l, hpc]
    exact hsearch
  have hreturn : (machine env).step found (Label.inside t) =
      some (unlock found t (some envbuf)) := by
    show getenv_l env found t = _
    simp [getenv_l, found, goto, put]
  have hcreates : (Label.inside t).Creates := trivial
  have hfound : Created env found :=
    Machine.ReachableUnder.step hs hcreates hcopy
  refine ⟨unlock found t (some envbuf), ?_, ?_⟩
  · exact Machine.ReachableUnder.step hfound hcreates hreturn
  · simp [unlock, put, read, found, hstr]

theorem search_defined {env : Environ} {s : State}
    (hs : Created env s) {t : Tid} {name : CString} {envbuf : Addr}
    {i : Nat} (hpc : (s.thread t).pc = Pc.search name envbuf i) :
    exists s', step env s (Label.inside t) = some s' := by
  have huses : (s.thread t).Uses envbuf := by
    simp [Thread.Uses, hpc, Pc.envbuf]
  rcases ((inv_of_reachable hs).threads t).owned envbuf huses with
    ⟨block, hblock, _⟩
  have hstep : step env s (Label.inside t) = search env s t name envbuf i := by
    simp [step, getenv_l, hpc]
  rw [hstep]
  cases hentry : env.strings[i]? with
  | none =>
      simp only [search, hentry]
      exact ⟨_, rfl⟩
  | some entry =>
      have hmem := List.mem_of_getElem? hentry
      rcases test_isSome env name hmem with ⟨b, hname⟩
      cases b with
      | true =>
          rcases search_entry (t := t) hentry hname hblock with ⟨bytes, _, heq⟩
          exact ⟨_, heq⟩
      | false =>
          have hlt : i < INT_MAX.toNat := by
            have hi := (List.getElem?_eq_some_iff.mp hentry).1
            have hcount := env.count
            omega
          simp only [search, hentry, hname, if_pos hlt]
          exact ⟨_, rfl⟩

/-!
# Results last
-/

def Label.thread : Label -> Tid
  | Label.call t _ => t
  | Label.exit t => t
  | Label.inside t => t
  | Label.key_create t _ => t
  | Label.foreign t _ => t
  | Label.malloc t _ => t
  | Label.setspecific t _ => t

theorem search_thread {env : Environ} {s s' : State} {t : Tid}
    {name : CString} {envbuf : Addr} {i : Nat}
    (hs : search env s t name envbuf i = some s') :
    exists th, s'.thread = Function.update s.thread t th := by
  unfold search at hs
  split at hs
  · cases hs
    exact ⟨_, rfl⟩
  · split at hs
    · cases hs
    · split at hs
      · cases hs
      · split at hs
        · cases hs
        · cases hs
          exact ⟨_, rfl⟩
    · split at hs
      · cases hs
        exact ⟨_, rfl⟩
      · cases hs

theorem getspecific_thread (s : State) (t : Tid) (name : CString)
    (value : Option Addr) :
    exists th, (getspecific s t name value).thread =
      Function.update s.thread t th := by
  unfold getspecific
  split
  · exact ⟨_, rfl⟩
  · exact ⟨_, rfl⟩

theorem getenv_l_thread {env : Environ} {s s' : State} {t : Tid}
    (hs : getenv_l env s t = some s') :
    exists th, s'.thread = Function.update s.thread t th := by
  unfold getenv_l at hs
  split at hs
  · unfold pthread_once at hs
    split at hs
    · cases hs
      exact ⟨_, rfl⟩
    · cases hs
    · cases hs
      exact ⟨_, rfl⟩
  · unfold pthread_mutex_lock at hs
    split at hs
    · cases hs
      exact ⟨_, rfl⟩
    · cases hs
  · split at hs
    · cases hs
    · cases hs
      exact getspecific_thread s t _ _
  · exact search_thread hs
  · cases hs
    exact ⟨_, rfl⟩
  · cases hs

theorem step_thread {env : Environ} {s s' : State} {l : Label}
    (hs : step env s l = some s') :
    exists th, s'.thread = Function.update s.thread l.thread th := by
  cases l with
  | call t name =>
      change call s t name = some s' at hs
      unfold call at hs
      split at hs
      · cases hs
        exact ⟨_, rfl⟩
      · cases hs
  | exit t =>
      change exit s t = some s' at hs
      unfold exit at hs
      split at hs
      · cases hs
        exact ⟨_, rfl⟩
      · cases hs
  | inside t => exact getenv_l_thread hs
  | key_create t ok =>
      change thread_init s t ok = some s' at hs
      unfold thread_init at hs
      split at hs
      · cases hs
        exact ⟨_, rfl⟩
      · cases hs
  | foreign t value =>
      change foreign s t value = some s' at hs
      unfold foreign at hs
      split at hs
      · split at hs
        · cases hs
          exact getspecific_thread s t _ _
        · cases hs
      · cases hs
  | malloc t r =>
      change malloc s t r = some s' at hs
      unfold malloc at hs
      split at hs
      · split at hs
        · cases hs
          exact ⟨_, rfl⟩
        · split at hs
          · cases hs
          · cases hs
            exact ⟨_, rfl⟩
      · cases hs
  | setspecific t ok =>
      change setspecific s t ok = some s' at hs
      unfold setspecific at hs
      split at hs
      · split at hs
        · cases hs
          exact ⟨_, rfl⟩
        · cases hs
          exact ⟨_, rfl⟩
      · cases hs

theorem idle_next {env : Environ} {s s' : State} {l : Label}
    (hidle : (s.thread l.thread).pc = Pc.idle)
    (hs : step env s l = some s') : l.next l.thread = true := by
  cases l with
  | call t name => exact beq_self_eq_true t
  | exit t => exact beq_self_eq_true t
  | inside t =>
      simp only [Label.thread] at hidle
      simp [step, getenv_l, hidle] at hs
  | key_create t ok =>
      simp only [Label.thread] at hidle
      simp [step, thread_init, hidle] at hs
  | foreign t value =>
      simp only [Label.thread] at hidle
      simp [step, foreign, hidle] at hs
  | malloc t r =>
      simp only [Label.thread] at hidle
      simp [step, malloc, hidle] at hs
  | setspecific t ok =>
      simp only [Label.thread] at hidle
      simp [step, setspecific, hidle] at hs

theorem result_step {env : Environ} {s s' : State} {l : Label} {t : Tid}
    {r : Result} (h : Inv s) (hr : (s.thread t).result = some r)
    (hnext : l.next t = false) (hs : step env s l = some s') :
    (s'.thread t).result = some r := by
  have hne : t ≠ l.thread := by
    intro heq
    rcases (h.threads t).returned r hr with ⟨hidle, _⟩
    rw [heq] at hidle hnext
    rw [idle_next hidle hs] at hnext
    cases hnext
  rcases step_thread hs with ⟨th, hth⟩
  rw [hth, Function.update_of_ne hne]
  exact hr

theorem Thread.Counted.le {th : Thread} (h : th.Counted) :
    th.allocs ≤ th.failures + 1 := by
  unfold Thread.Counted at h
  split at h
  · exact Nat.le_succ_of_le (Nat.le_of_eq h)
  · exact Nat.le_of_eq h
  · exact h
  · exact h.1

theorem result_run {env : Environ} {s s' : State} {ls : List Label} {t : Tid}
    {r : Result} (h : Inv s) (hr : (s.thread t).result = some r)
    (hnext : forall l, l ∈ ls -> l.Creates ∧ l.next t = false)
    (hrun : (machine env).run s ls = some s') :
    read s' r.addr = some r.string := by
  have hkept : Inv s' ∧ (s'.thread t).result = some r := by
    apply Machine.invariant_of_run (M := machine env)
      (I := fun s => Inv s ∧ (s.thread t).result = some r)
      (C := fun l => l.Creates ∧ l.next t = false) _ ⟨h, hr⟩ hnext hrun
    intro s l u hI hl hs
    exact ⟨inv_step hI.left hl.left hs, result_step hI.left hI.right hl.right hs⟩
  exact ((hkept.left.threads t).returned r hkept.right).right

/--
In every state of a run in which the key is created: no two threads use one buffer; a
thread has allocated one buffer at most, and one more for each time that
`pthread_setspecific` failed for it; the key has been created at most once, and is
there for every thread that is past `pthread_once`; and what a thread got from a call
stays as it was in every run in which it does not call `getenv_l` again or exit.
-/
theorem getenv_l_thread_safe {env : Environ} {s : State}
    (hs : (machine env).ReachableUnder (fun _ l => l.Creates) s) :
    (forall t u a, (s.thread t).Uses a -> (s.thread u).Uses a -> t = u) ∧
      (forall t, (s.thread t).allocs ≤ (s.thread t).failures + 1) ∧
      (s.created ≤ 1 ∧
        forall t, (s.thread t).pc.pastOnce = true -> s.created = 1) ∧
      forall t r, (s.thread t).result = some r ->
        forall ls s', (machine env).run s ls = some s' ->
          (forall l, l ∈ ls -> l.Creates ∧ l.next t = false) ->
          read s' r.addr = some r.string := by
  have h := inv_of_reachable hs
  refine ⟨fun t u a => h.unique, fun t => (h.threads t).counted.le, ⟨?_, ?_⟩, ?_⟩
  · rw [h.created]
    cases s.once with
    | notRun => exact Nat.zero_le 1
    | running t => exact Nat.zero_le 1
    | done => exact Nat.le_refl 1
  · exact fun t hpast => h.created_past hpast
  · intro t r hr ls s' hrun hnext
    exact result_run h hr hnext hrun

/-- One string, `A=v`. -/
def oneString : Environ where
  strings := [CString.ofBytes [65, 61, 118] rfl]
  fits := by
    intro s hs
    rw [List.mem_singleton.mp hs]
    exact Nat.lt_of_sub_eq_succ rfl
  count := by decide

def nameA : CString :=
  CString.ofBytes [65] rfl

def zeroes : Contents :=
  ⟨List.replicate ARG_MAX 0, List.length_replicate⟩

/-- The first thread calls `getenv_l` up to its search, while the second one waits
for the mutex. -/
def firstCall : List Label :=
  [Label.call 0 nameA, Label.call 1 nameA, Label.inside 0, Label.key_create 0 true,
    Label.inside 1, Label.inside 0, Label.inside 0, Label.malloc 0 (some (7, zeroes)),
    Label.setspecific 0 true]

theorem firstCall_creates :
    (machine oneString).RunMeets (fun _ l => l.Creates) start firstCall :=
  ⟨trivial, trivial, trivial, rfl, trivial, trivial, trivial, trivial, trivial, trivial⟩

theorem firstCall_safe :
    exists s, Created oneString s ∧
      (s.thread 0).result = some ⟨7, [118]⟩ ∧
      forall ls s', (machine oneString).run s ls = some s' ->
        (forall l, l ∈ ls -> l.Creates ∧ l.next 0 = false) ->
        read s' 7 = some [118] := by
  have hsearch : ((machine oneString).run start firstCall).map
      (fun s => ((s.thread 0).pc, s.heap 7)) =
        some (Pc.search nameA 7 0, some ⟨0, zeroes⟩) := by
    rfl
  rcases Option.map_eq_some_iff.mp hsearch with ⟨s, hrun, heq⟩
  have hreach : Created oneString s := Machine.reachableUnder_of_run
    (Machine.ReachableUnder.init rfl) firstCall_creates hrun
  have hpc : (s.thread 0).pc = Pc.search nameA 7 0 := congrArg Prod.fst heq
  have hblock : s.heap 7 = some ⟨0, zeroes⟩ := congrArg Prod.snd heq
  have hentry : oneString.strings[0]? =
      some (CString.ofBytes [65, 61, 118] rfl) := rfl
  rcases search_returns hreach hpc hentry rfl hblock with ⟨s', hs', hresult⟩
  rcases getenv_l_thread_safe hs' with ⟨_, _, _, hstable⟩
  exact ⟨s', hs', hresult, hstable 0 _ hresult⟩

/-- No key is left: the thread goes on behind `pthread_once` without one, and what
the foreign key 0 has for it is taken for its buffer. -/
theorem no_key_created :
    exists s, (machine oneString).Reachable s ∧ s.created = 0 ∧
      (s.thread 0).pc = Pc.search nameA 5 0 ∧ s.heap 5 = none := by
  have hrun : ((machine oneString).run start
      [Label.call 0 nameA, Label.inside 0, Label.key_create 0 false, Label.inside 0,
        Label.foreign 0 (some 5)]).map
      (fun s => (s.created, (s.thread 0).pc, s.heap 5)) =
        some (0, Pc.search nameA 5 0, none) := by
    rfl
  rcases Machine.exists_reachable_of_run rfl hrun with ⟨s, hreach, heq⟩
  rcases Prod.mk.inj heq with ⟨hcreated, hrest⟩
  rcases Prod.mk.inj hrest with ⟨hpc, hheap⟩
  exact ⟨s, hreach, hcreated, hpc, hheap⟩

end Thrspec
end Apue
