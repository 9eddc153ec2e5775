import Apue.Ipc.Popen.Exits

/-!
# The indices into childpid

The bound `maxfd` is what `open_max` said when the first stream was opened.  The
descriptors that index the array are the kernel's choice and, in `pclose_l`, the
caller's.  The size in the call of `calloc` is that of a pointer, so that the block
has more entries than `maxfd`, and a call goes wrong at once only outside the block.
-/

namespace Apue
namespace Popen

open Foundation Kernel

/-- An access `childpid[index]`, with the bound and the entries of the block. -/
structure Access where
  index : Int
  maxfd : Nat
  allocated : Nat
  deriving Repr, DecidableEq

def Access.InBounds (a : Access) : Prop :=
  0 ≤ a.index ∧ a.index < a.maxfd

def Access.InBlock (a : Access) : Prop :=
  0 ≤ a.index ∧ a.index < a.allocated

def World.allocated (w : World) : Nat :=
  match w.childpid with
  | none => 0
  | some table => table.length

def World.access (w : World) (index : Int) : Access :=
  { index := index, maxfd := w.maxfd, allocated := w.allocated }

def popenAccesses (type : List Char) (ans : PopenAnswers) (w : World) :
    List Access :=
  match untilFork type ans w with
  | Except.ok (Except.ok (mode, pfd), w) =>
      match ans.fork with
      | none => []
      | some _ =>
          (List.range w.maxfd).map (fun i : Nat => w.access i) ++
            if ans.fdopen then [w.access (parentEnds mode pfd).1] else []
  | _ => []

def World.recorded (w : World) : Option FILE -> Pid
  | none => 0
  | some fp => w.entry fp.fileno

def pcloseAccesses (fp : Option FILE) (w : World) : List Access :=
  match w.childpid with
  | none => []
  | some _ =>
      w.access (fileno fp) ::
        if w.recorded fp = 0 then [] else [w.access (fileno fp)]

def accesses (s : State) : Call -> List Access
  | Call.popen type ans => popenAccesses type ans s.world
  | Call.pclose fp _ => pcloseAccesses fp s.world
  | Call.openOther _ => []
  | Call.closeOther _ => []

def InBounds (s : State) (c : Call) : Prop :=
  forall a, a ∈ accesses s c -> a.InBounds

def InBlock (s : State) (c : Call) : Prop :=
  forall a, a ∈ accesses s c -> a.InBlock

/-- How many descriptors must be free below the bound, so that the end of the
pipe that is kept is below it. -/
def Mode.needed : Mode -> Nat
  | Mode.r => 1
  | Mode.w => 2

/-- The kernel has descriptors left below the bound, or the call does not get to the
assignment; the stream to be closed has one of them. -/
def InRange (s : State) : Call -> Prop
  | Call.popen type ans =>
      RefusedEarly type ans s.world ∨ ans.fork = none ∨ ans.fdopen = false ∨
        forall mode, mode? type = some mode ->
          mode.needed ≤ s.world.fds.freeBelow (maxfdAtFork ans s.world)
  | Call.pclose fp _ =>
      s.world.childpid = none ∨ (0 ≤ fileno fp ∧ fileno fp < s.world.maxfd)
  | Call.openOther _ => True
  | Call.closeOther _ => True

theorem parentEnds_lt_iff (mode : Mode) (w : World) (n : Nat) :
    (parentEnds mode (w.fds.pipe (OpenFile.pipeRead w.pipes)
        (OpenFile.pipeWrite w.pipes)).1).1 < n ↔
      mode.needed ≤ w.fds.freeBelow n := by
  cases mode with
  | r => exact w.fds.pipe_fst_lt_iff _ (OpenFile.pipeWrite w.pipes) n
  | w => exact w.fds.pipe_snd_lt_iff _ (OpenFile.pipeWrite w.pipes) n

theorem loop_inBounds {w : World} {a : Access}
    (ha : a ∈ (List.range w.maxfd).map (fun i : Nat => w.access i)) : a.InBounds := by
  rcases List.mem_map.mp ha with ⟨i, hi, heq⟩
  rw [← heq]
  exact ⟨Int.natCast_nonneg i, Int.ofNat_lt.mpr (List.mem_range.mp hi)⟩

/-- After `fork` only the assignment at the end can be out of bounds, whatever
bound it is that the loop keeps. -/
theorem afterFork_iff {P : Access -> Prop} {w : World} (fdopen : Bool) (d : Fd)
    (hloop : forall a, a ∈ (List.range w.maxfd).map (fun i : Nat => w.access i) -> P a) :
    (forall a : Access, a ∈ (List.range w.maxfd).map (fun i : Nat => w.access i) ++
        (if fdopen then [w.access d] else []) -> P a) ↔
      (fdopen = true -> P (w.access d)) := by
  cases fdopen with
  | false =>
      rw [if_neg Bool.false_ne_true, List.append_nil]
      exact iff_of_true hloop (fun h => nomatch h)
  | true =>
      rw [if_pos rfl]
      constructor
      · intro hall _
        exact hall _ List.mem_concat_self
      · intro hlast a ha
        rcases mem_snoc ha with ha | ha
        · exact hloop a ha
        · rw [ha]
          exact hlast rfl

theorem access_inBounds_iff (w : World) (d : Fd) :
    (w.access d).InBounds ↔ d < w.maxfd := by
  unfold Access.InBounds World.access
  lia

theorem access_inBlock_iff {w : World} {table : List Pid}
    (htable : w.childpid = some table) (d : Fd) :
    (w.access d).InBlock ↔ d < table.length := by
  unfold Access.InBlock World.access World.allocated
  rw [htable]
  dsimp only
  lia

theorem inBounds_popen_iff (s : State) (type : List Char) (ans : PopenAnswers) :
    InBounds s (Call.popen type ans) ↔ InRange s (Call.popen type ans) := by
  have hcases := untilFork_cases type ans s.world
  change (forall a, a ∈ popenAccesses type ans s.world -> a.InBounds) ↔ _
  unfold popenAccesses
  generalize untilFork type ans s.world = r at hcases
  cases hcases with
  | exited hearly =>
      exact iff_of_true (fun a ha => nomatch ha) (Or.inl hearly)
  | refused hearly _ _ =>
      exact iff_of_true (fun a ha => nomatch ha) (Or.inl hearly)
  | @ready mode pfd w₁ hnot hmode hready =>
      dsimp only
      cases hfork : ans.fork with
      | none =>
          exact iff_of_true (fun a ha => nomatch ha) (Or.inr (Or.inl hfork))
      | some pid =>
          have hkept := parentEnds_lt_iff mode s.world (maxfdAtFork ans s.world)
          dsimp only
          rw [afterFork_iff ans.fdopen _ (fun a ha => loop_inBounds ha),
            access_inBounds_iff, hready.maxfd, hready.ends, hkept]
          constructor
          · intro hneeded
            cases hfdopen : ans.fdopen with
            | false => exact Or.inr (Or.inr (Or.inl hfdopen))
            | true =>
                refine Or.inr (Or.inr (Or.inr fun mode' hmode' => ?_))
                rw [hmode] at hmode'
                cases hmode'
                exact hneeded hfdopen
          · rintro (h | h | h | h) hfdopen
            · exact absurd h hnot
            · rw [hfork] at h
              cases h
            · rw [hfdopen] at h
              cases h
            · exact h mode hmode

theorem pcloseAccesses_iff {P : Access -> Prop} {w : World} {table : List Pid}
    (htable : w.childpid = some table) (fp : Option FILE) :
    (forall a, a ∈ pcloseAccesses fp w -> P a) ↔ P (w.access (fileno fp)) := by
  unfold pcloseAccesses
  rw [htable]
  dsimp only
  constructor
  · intro hall
    exact hall _ List.mem_cons_self
  · intro hP a ha
    have heq : a = w.access (fileno fp) := by
      rcases List.mem_cons.mp ha with ha | ha
      · exact ha
      · split at ha
        · cases ha
        · exact List.mem_singleton.mp ha
    rw [heq]
    exact hP

theorem pcloseAccesses_none {w : World} (htable : w.childpid = none)
    (fp : Option FILE) : pcloseAccesses fp w = [] := by
  unfold pcloseAccesses
  rw [htable]

theorem inBounds_pclose_iff (s : State) (fp : Option FILE) (ans : PcloseAnswers) :
    InBounds s (Call.pclose fp ans) ↔ InRange s (Call.pclose fp ans) := by
  change (forall a, a ∈ pcloseAccesses fp s.world -> a.InBounds) ↔
    (s.world.childpid = none ∨ (0 ≤ fileno fp ∧ fileno fp < s.world.maxfd))
  cases htable : s.world.childpid with
  | none =>
      rw [pcloseAccesses_none htable]
      exact iff_of_true (fun a ha => nomatch ha) (Or.inl rfl)
  | some table =>
      rw [pcloseAccesses_iff htable]
      constructor
      · exact Or.inr
      · rintro (h | h)
        · cases h
        · exact h

theorem inBounds_iff (s : State) (c : Call) : InBounds s c ↔ InRange s c := by
  cases c with
  | popen type ans => exact inBounds_popen_iff s type ans
  | pclose fp ans => exact inBounds_pclose_iff s fp ans
  | openOther n => exact iff_of_true (fun a ha => nomatch ha) trivial
  | closeOther d => exact iff_of_true (fun a ha => nomatch ha) trivial

/-!
# Accesses and stopped calls

The calls that stop at an index outside the block are those with such an access.
-/

def Overruns (s : State) : Call -> Prop
  | Call.popen type ans =>
      exists i, popen_l type ans s.world = Except.error (Stop.outOfBounds i)
  | Call.pclose fp ans =>
      exists i, pclose_l fp ans s.world = Except.error (Stop.outOfBounds i)
  | Call.openOther _ => False
  | Call.closeOther _ => False

theorem waitLoop_ne_outOfBounds {pid : Pid} {w : World}
    {answers : List WaitAnswer} {i : Int} :
    waitLoop pid w answers ≠ Except.error (Stop.outOfBounds i) := by
  intro h
  induction answers with
  | nil => cases h
  | cons a rest ih =>
      cases a with
      | eintr => exact ih h
      | failed gone => cases h
      | status stat => cases h

theorem pcloseFrom_overruns (table : List Pid) (fp : FILE) (ans : PcloseAnswers)
    (w : World) :
    (exists i, pcloseFrom table fp ans w = Except.error (Stop.outOfBounds i)) ↔
      table.length ≤ fp.fileno := by
  unfold pcloseFrom
  cases hread : table[fp.fileno]? with
  | none =>
      exact iff_of_true ⟨fp.fileno, rfl⟩ (List.getElem?_eq_none_iff.mp hread)
  | some pid =>
      have hlt : fp.fileno < table.length := (List.getElem?_eq_some_iff.mp hread).1
      refine iff_of_false ?_ (Nat.not_le_of_lt hlt)
      rintro ⟨i, h⟩
      dsimp only at h
      split at h
      · cases h
      · split at h
        · cases h
        · exact waitLoop_ne_outOfBounds h

theorem overruns_pclose_iff (s : State) (fp : Option FILE) (ans : PcloseAnswers) :
    Overruns s (Call.pclose fp ans) ↔ ¬ InBlock s (Call.pclose fp ans) := by
  change (exists i, pclose_l fp ans s.world = _) ↔
    ¬ forall a, a ∈ pcloseAccesses fp s.world -> a.InBlock
  unfold pclose_l
  cases htable : s.world.childpid with
  | none =>
      rw [pcloseAccesses_none htable]
      refine iff_of_false ?_ (fun h => h fun a ha => nomatch ha)
      rintro ⟨i, h⟩
      cases h
  | some table =>
      rw [pcloseAccesses_iff htable]
      cases fp with
      | none =>
          refine iff_of_true ⟨fileno none, rfl⟩ (fun h => ?_)
          exact absurd h.1 (show ¬ (0 : Int) ≤ -1 by decide)
      | some fp =>
          have hiff := access_inBlock_iff htable fp.fileno
          change _ ↔ ¬ (s.world.access fp.fileno).InBlock
          dsimp only
          rw [pcloseFrom_overruns, hiff, Nat.not_lt]

theorem parentContinues_overruns (mode : Mode) (pfd : Fd × Fd) (pid : Pid)
    (fdopen : Bool) {w : World} {table : List Pid}
    (htable : w.childpid = some table) :
    (exists i, parentContinues mode pfd pid fdopen w =
        Except.error (Stop.outOfBounds i)) ↔
      fdopen = true ∧ table.length ≤ (parentEnds mode pfd).1 := by
  unfold parentContinues World.store
  dsimp only
  rw [htable]
  cases fdopen with
  | false =>
      refine iff_of_false ?_ (fun h => nomatch h.left)
      rintro ⟨i, h⟩
      cases h
  | true =>
      dsimp only
      rw [if_pos rfl]
      rcases Nat.lt_or_ge (parentEnds mode pfd).1 table.length with hlt | hge
      · rw [if_pos hlt]
        refine iff_of_false ?_ (fun h => absurd hlt (Nat.not_lt_of_le h.right))
        rintro ⟨i, h⟩
        cases h
      · rw [if_neg (Nat.not_lt_of_le hge)]
        exact iff_of_true ⟨_, rfl⟩ ⟨rfl, hge⟩

theorem le_room (n : Nat) : n ≤ room n := by
  unfold room SIZEOF_CHILDPID SIZEOF_PID_T
  lia

theorem Access.InBounds.inBlock {w : World} {table : List Pid} {i : Int}
    (hsized : Sized w) (htable : w.childpid = some table)
    (h : (w.access i).InBounds) : (w.access i).InBlock := by
  have hlen : w.allocated = room w.maxfd := by
    unfold World.allocated
    rw [htable]
    exact hsized table htable
  have hle := le_room w.maxfd
  refine ⟨h.1, Int.lt_of_lt_of_le h.2 ?_⟩
  change (w.maxfd : Int) ≤ w.allocated
  lia

theorem overruns_popen_iff {s : State} (hsized : Sized s.world)
    (type : List Char) (ans : PopenAnswers) :
    Overruns s (Call.popen type ans) ↔ ¬ InBlock s (Call.popen type ans) := by
  have hcases := untilFork_cases type ans s.world
  have hspec := @untilFork_ok type ans s.world
  change (exists i, popen_l type ans s.world = _) ↔
    ¬ forall a, a ∈ popenAccesses type ans s.world -> a.InBlock
  unfold popen_l popenAccesses
  generalize untilFork type ans s.world = r at hcases hspec
  have hnone : forall {x : Except Stop (Except PopenFailure FILE × World)},
      (forall i, x ≠ Except.error (Stop.outOfBounds i)) ->
      ((exists i, x = Except.error (Stop.outOfBounds i)) ↔
        ¬ forall a : Access, a ∈ [] -> a.InBlock) := by
    intro x hx
    refine iff_of_false ?_ (fun h => h fun a ha => nomatch ha)
    rintro ⟨i, h⟩
    exact hx i h
  cases hcases with
  | exited _ => exact hnone (fun i h => nomatch h)
  | refused _ _ _ => exact hnone (fun i h => nomatch h)
  | @ready mode pfd w₁ _ _ hready =>
      dsimp only
      cases hfork : ans.fork with
      | none => exact hnone (fun i h => nomatch h)
      | some pid =>
          have hsized₁ := (hspec rfl).left.sized hsized
          rcases hready.table with ⟨table, htable⟩
          have hloop : forall a,
              a ∈ (List.range w₁.maxfd).map (fun i : Nat => w₁.access i) -> a.InBlock := by
            intro a ha
            have hbounds := loop_inBounds ha
            rcases List.mem_map.mp ha with ⟨i, hi, heq⟩
            rw [← heq] at hbounds ⊢
            exact hbounds.inBlock hsized₁ htable
          have hstore := parentContinues_overruns mode pfd pid ans.fdopen
            (w := w₁.forkChild pid mode pfd) htable
          dsimp only
          rw [hstore, afterFork_iff ans.fdopen _ hloop, access_inBlock_iff htable,
            Classical.not_imp, Nat.not_lt]

theorem overruns_iff {s : State} (hsized : Sized s.world) (c : Call) :
    Overruns s c ↔ ¬ InBlock s c := by
  cases c with
  | popen type ans => exact overruns_popen_iff hsized type ans
  | pclose fp ans => exact overruns_pclose_iff s fp ans
  | openOther n => exact iff_of_false id (fun h => h fun a ha => nomatch ha)
  | closeOther d => exact iff_of_false id (fun h => h fun a ha => nomatch ha)

/-!
# Whole runs
-/

theorem sized_step {s t : State} {c : Call} (hsized : Sized s.world)
    (h : step s c = some t) : Sized t.world := by
  cases c with
  | popen type ans =>
      unfold step at h
      dsimp only at h
      split at h
      · cases h
      · next hcall =>
          cases h
          exact (popen_l_ok hcall).right.sized hsized
      · next hcall =>
          cases h
          exact (popen_l_ok hcall).right.sized hsized
  | pclose fp ans =>
      unfold step at h
      dsimp only at h
      split at h
      · cases h
      · next hcall =>
          cases h
          rcases pclose_l_ok hcall with ⟨_, heq⟩ | ⟨f, _, hclosed⟩
          · rw [heq]
            exact hsized
          · exact hclosed.sized hsized
  | openOther n =>
      cases h
      exact hsized
  | closeOther d =>
      cases h
      exact hsized

/-- Exactly when all indices of a run are below the bound. -/
theorem along_inBounds_iff (s : State) (calls : List Call) :
    machine.Along InBounds s calls ↔ machine.Along InRange s calls :=
  Machine.along_congr (I := fun _ => True) (fun _ _ _ _ _ => trivial)
    (fun s c _ => inBounds_iff s c) trivial calls

/-- A stream is opened and closed where the limit is 8. -/
theorem along_inBounds_open_close :
    machine.Along InBounds reuseStart
      [Call.popen ['r'] (popenSucceeds 100),
       Call.pclose (some { fileno := 3 })
         { fclose := FcloseAnswer.ok, waitpid := [WaitAnswer.status 0] }] := by
  apply (along_inBounds_iff _ _).mpr
  refine ⟨Or.inr (Or.inr (Or.inr fun mode hmode => ?_)), Or.inr ?_, trivial⟩
  · cases hmode
    decide
  · decide

/-- The limit is 5 when the first stream is opened and is raised after that; the
second stream, one that the caller opened otherwise and one without a descriptor have
an index that is not below it. -/
theorem access_past_end :
    let first := Call.popen ['r']
      { popenSucceeds 100 with sysconf := SysconfAnswer.limit 5 }
    let second := Call.popen ['w'] (popenSucceeds 101)
    let ans : PcloseAnswers := { fclose := FcloseAnswer.ok, waitpid := [] }
    (exists s, machine.run reuseStart [first] = some s ∧
      ⟨5, 5, 10⟩ ∈ accesses s second ∧
      ⟨7, 5, 10⟩ ∈ accesses s (Call.pclose (some { fileno := 7 }) ans) ∧
      ⟨-1, 5, 10⟩ ∈ accesses s (Call.pclose none ans)) ∧
      (exists s, machine.run reuseStart [first, second] = some s ∧
        s.world.entry 5 = 101) ∧
      ¬ machine.Along InBounds reuseStart [first, second] := by
  refine ⟨⟨_, rfl, by decide, by decide, by decide⟩, ⟨_, rfl, rfl⟩, fun h => ?_⟩
  have hbound := h.right.left ⟨5, 5, 10⟩ (by decide)
  exact absurd hbound.2 (by decide)

theorem along_not_overruns_iff {s : State} (hs : Initial s) (calls : List Call) :
    machine.Along (fun s c => ¬ Overruns s c) s calls ↔
      machine.Along InBlock s calls := by
  have hsized : Sized s.world := (inv_initial hs).sized
  exact Machine.along_congr (I := fun s => Sized s.world)
    (fun s c t hI h => sized_step (s := s) (t := t) (c := c) hI h)
    (fun s c hI => by rw [overruns_iff hI c, Classical.not_not]) hsized calls

end Popen
end Apue
