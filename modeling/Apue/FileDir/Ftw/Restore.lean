import Apue.FileDir.Ftw.Walk

/-!
# The path when dopath returns

A level that has read its directory takes the slash away again.  One that could
not open it leaves the slash behind.
-/

namespace Apue
namespace Ftw

open Foundation Kernel

/-- The path is that of a directory for which the callback answers 0 and which
cannot be opened. -/
def CannotOpen (k : FileSystem) (func : Myfunc) (w : Walk) (p : CString) : Prop :=
  exists st, k.lstat p.bytes = some st ∧ st.isDir = true ∧
    func w.calls { path := p.bytes, stat := some st, type := Typeflag.FTW_D } = 0 ∧
    k.opendir (within p).bytes = none

/-!
# What every walk keeps
-/

/-- The buffer has its length, and the path is in front of it. -/
structure Keeps (p : CString) (w w' : Walk) : Prop where
  length : w'.fullpath.length = w.fullpath.length
  front : w'.fullpath.take p.length = p.bytes

theorem strcpy_spells {b b' : Buffer} (pre s : CString)
    (hfront : b.take pre.length = pre.bytes)
    (h : strcpy b pre.length s.bytes = Except.ok b') :
    b'.length = b.length ∧ Spells b' (pre.append s) := by
  rcases Nat.lt_or_ge (pre.length + s.length) b.length with hfit | hbig
  · rcases strcpy_ok pre s hfront hfit with ⟨c, hcopy, hlen, hspells⟩
    rw [hcopy] at h
    cases h
    exact ⟨hlen, hspells⟩
  · rcases strcpy_error hbig with ⟨i, hcopy, _⟩
    rw [hcopy] at h
    cases h

theorem readLoop_keeps {walk : Walk -> Except Fault (Int × Walk)}
    (hwalk : forall q v ret v', Spells v.fullpath q -> walk v = Except.ok (ret, v') ->
      Keeps q v v')
    {p : CString} {listing : List CString} {ret ret' : Int} {w w' : Walk}
    (hfront : w.fullpath.take (within p).length = (within p).bytes)
    (h : readLoop walk (within p).length listing ret w = Except.ok (ret', w')) :
    Keeps (within p) w w' := by
  induction listing generalizing ret w with
  | nil =>
      cases h
      exact ⟨rfl, hfront⟩
  | cons name rest ih =>
      unfold readLoop at h
      split at h
      · exact ih hfront h
      · cases hcopy : strcpy w.fullpath (within p).length name.bytes with
        | error i =>
            rw [hcopy] at h
            cases h
        | ok b =>
            rw [hcopy] at h
            rcases strcpy_spells (within p) name hfront hcopy with ⟨hlen, hspells⟩
            dsimp only [Walk.edit] at h
            cases hrun : walk { w with fullpath := b } with
            | error fault =>
                rw [hrun] at h
                cases h
            | ok r =>
                rcases r with ⟨answer, v⟩
                have hkeeps := hwalk _ _ _ _ hspells hrun
                have hlen' : v.fullpath.length = w.fullpath.length :=
                  hkeeps.length.trans hlen
                have hfront' := front_of_append hkeeps.front
                rw [hrun] at h
                dsimp only at h
                split at h
                · cases h
                  exact ⟨hlen', hfront'⟩
                · have hrest := ih hfront' h
                  exact ⟨hrest.length.trans hlen', hrest.front⟩

/-!
# The ways out of dopath
-/

theorem dopath_no_room {k : FileSystem} {func : Myfunc} {p : CString} {w : Walk}
    {st : Stat} (fuel : Nat) (hs : Spells w.fullpath p)
    (hlstat : k.lstat p.bytes = some st) (hdir : st.isDir = true)
    (hzero : (w.report func (some st) Typeflag.FTW_D).1 = 0)
    (hbig : w.fullpath.length ≤ (within p).length) :
    dopath k func (fuel + 1) w = Except.error (Fault.overflow (p.length + 1)) := by
  have hslash := poke_ok slash hs.length_lt
  have hnul : poke (w.fullpath.set p.length slash) (p.length + 1) 0 =
      Except.error (p.length + 1) := by
    apply poke_error 0
    rw [List.length_set, ← within_length]
    exact hbig
  rw [dopath_enter func fuel hs hlstat hdir hzero]
  simp only [Walk.edit, hslash, hnul]

theorem cannotOpen_iff {k : FileSystem} {func : Myfunc} {p : CString} {w : Walk}
    {st : Stat} (hs : Spells w.fullpath p) (hlstat : k.lstat p.bytes = some st) :
    CannotOpen k func w p ↔
      st.isDir = true ∧ (w.report func (some st) Typeflag.FTW_D).1 = 0 ∧
        k.opendir (within p).bytes = none := by
  have hreport : (w.report func (some st) Typeflag.FTW_D).1 =
      func w.calls { path := p.bytes, stat := some st, type := Typeflag.FTW_D } := by
    rw [← hs.str_eq]
    rfl
  rw [hreport]
  constructor
  · intro h
    rcases h with ⟨st', hst, hrest⟩
    rw [hlstat] at hst
    cases hst
    exact hrest
  · intro h
    exact ⟨st, hlstat, h⟩

theorem dopath_directory {k : FileSystem} {func : Myfunc} {fuel : Nat} {p : CString}
    {w w' : Walk} {st : Stat} {ret : Int} (hs : Spells w.fullpath p)
    (hlstat : k.lstat p.bytes = some st) (hdir : st.isDir = true)
    (hzero : (w.report func (some st) Typeflag.FTW_D).1 = 0)
    (h : dopath k func (fuel + 1) w = Except.ok (ret, w')) :
    (k.opendir (within p).bytes = none ∧
        w'.fullpath.length = w.fullpath.length ∧ Spells w'.fullpath (within p)) ∨
      exists listing r v u, k.opendir (within p).bytes = some listing ∧
        v.fullpath.length = w.fullpath.length ∧ Spells v.fullpath (within p) ∧
        readLoop (dopath k func fuel) (within p).length listing 0 v =
          Except.ok (r, u) ∧
        w'.fullpath = u.fullpath.set p.length 0 := by
  rcases Nat.lt_or_ge (within p).length w.fullpath.length with hfit | hbig
  · rcases dopath_open func fuel hs hlstat hdir hzero hfit with ⟨b, hlen, hspells, hopen⟩
    have hrun := hopen _ rfl
    rw [h] at hrun
    cases hopendir : k.opendir (within p).bytes with
    | none =>
        left
        rw [hopendir] at hrun
        cases hrun
        exact ⟨rfl, hlen, hspells⟩
    | some listing =>
        right
        rw [hopendir] at hrun
        dsimp only at hrun
        split at hrun
        · cases hrun
        · next r u hloop =>
            unfold Walk.edit poke at hrun
            split at hrun
            · cases hrun
            · next c hpoke =>
                split at hpoke
                · cases hpoke
                  cases hrun
                  have hfields := closedir_fields
                    { u with fullpath := u.fullpath.set p.length 0 } k w.opened
                  exact ⟨listing, ret, _, u, rfl, hlen, hspells, hloop, hfields.1⟩
                · cases hpoke
  · rw [dopath_no_room fuel hs hlstat hdir hzero hbig] at h
    cases h

/-- A call that returns has left the buffer as it was, or has left a slash behind
the path, or has read the directory and cut the path off again. -/
theorem dopath_cases {k : FileSystem} {func : Myfunc} {fuel : Nat} {p : CString}
    {w w' : Walk} {ret : Int} (hs : Spells w.fullpath p)
    (h : dopath k func (fuel + 1) w = Except.ok (ret, w')) :
    (¬ CannotOpen k func w p ∧ w'.fullpath = w.fullpath) ∨
      (CannotOpen k func w p ∧ w'.fullpath.length = w.fullpath.length ∧
        Spells w'.fullpath (within p)) ∨
      (¬ CannotOpen k func w p ∧ exists listing r v u,
        v.fullpath.length = w.fullpath.length ∧ Spells v.fullpath (within p) ∧
        readLoop (dopath k func fuel) (within p).length listing 0 v =
          Except.ok (r, u) ∧
        w'.fullpath = u.fullpath.set p.length 0) := by
  have hpath : w.path = p.bytes := hs.str_eq
  cases hlstat : k.lstat p.bytes with
  | none =>
      left
      rw [dopath, hpath, hlstat] at h
      cases h
      refine ⟨?_, rfl⟩
      intro hcannot
      rcases hcannot with ⟨st, hst, _⟩
      rw [hlstat] at hst
      cases hst
  | some st =>
      have hiff := @cannotOpen_iff k func p w st hs hlstat
      cases hdir : st.isDir with
      | false =>
          left
          rw [dopath, hpath, hlstat] at h
          simp only [hdir, if_true] at h
          cases h
          refine ⟨?_, rfl⟩
          intro hcannot
          rw [(hiff.mp hcannot).1] at hdir
          cases hdir
      | true =>
          by_cases hzero : (w.report func (some st) Typeflag.FTW_D).1 = 0
          · right
            rcases dopath_directory hs hlstat hdir hzero h with
              ⟨hopendir, hlen, hspells⟩ | ⟨listing, r, v, u, hopendir, hread⟩
            · exact Or.inl ⟨hiff.mpr ⟨hdir, hzero, hopendir⟩, hlen, hspells⟩
            · right
              refine ⟨?_, listing, r, v, u, hread⟩
              intro hcannot
              rw [(hiff.mp hcannot).2.2] at hopendir
              cases hopendir
          · left
            rw [dopath_stop hs hlstat hdir hzero] at h
            cases h
            exact ⟨fun hcannot => hzero (hiff.mp hcannot).2.1, rfl⟩

/-!
# All levels
-/

theorem dopath_keeps {k : FileSystem} {func : Myfunc} {fuel : Nat} {p : CString}
    {w w' : Walk} {ret : Int} (hs : Spells w.fullpath p)
    (h : dopath k func fuel w = Except.ok (ret, w')) : Keeps p w w' := by
  induction fuel generalizing p w w' ret with
  | zero => cases h
  | succ fuel ih =>
      rcases dopath_cases hs h with ⟨_, hsame⟩ | ⟨_, hlen, hspells⟩ |
        ⟨_, listing, r, v, u, hlen, hspells, hloop, hcut⟩
      · constructor
        · rw [hsame]
        · rw [hsame]
          exact hs.front
      · exact ⟨hlen, front_of_append hspells.front⟩
      · have hkeeps := readLoop_keeps (fun q v r v' => ih) hspells.front hloop
        constructor
        · rw [hcut, List.length_set]
          exact hkeeps.length.trans hlen
        · rw [hcut, List.take_set_of_le (Nat.le_refl _)]
          exact front_of_append hkeeps.front

theorem dopath_spells {k : FileSystem} {func : Myfunc} {fuel : Nat} {p : CString}
    {w w' : Walk} {ret : Int} (hs : Spells w.fullpath p)
    (h : dopath k func fuel w = Except.ok (ret, w')) :
    (¬ CannotOpen k func w p ∧ Spells w'.fullpath p) ∨
      (CannotOpen k func w p ∧ Spells w'.fullpath (within p)) := by
  cases fuel with
  | zero => cases h
  | succ fuel =>
      rcases dopath_cases hs h with ⟨hcan, hsame⟩ | ⟨hcannot, _, hspells⟩ |
        ⟨hcan, listing, r, v, u, hlen, hspells, hloop, hcut⟩
      · left
        rw [hsame]
        exact ⟨hcan, hs⟩
      · exact Or.inr ⟨hcannot, hspells⟩
      · left
        refine ⟨hcan, ?_⟩
        have hkeeps := readLoop_keeps (fun q v r v' => dopath_keeps) hspells.front hloop
        rw [hcut]
        apply spells_set_nul (front_of_append hkeeps.front)
        rw [hkeeps.length, hlen]
        exact hs.length_lt

/-- A call that returns gives back the string that it was called with, except that
of a directory which it reports and cannot open.  It does return when the tree
below the path is finite and its paths fit. -/
theorem dopath_restores_iff (k : FileSystem) (func : Myfunc) {p : CString} {w : Walk}
    (hs : Spells w.fullpath p) :
    (forall fuel ret w', dopath k func fuel w = Except.ok (ret, w') ->
        (w'.path = w.path ↔ ¬ CannotOpen k func w p)) ∧
      forall t fuel, height t < fuel -> Describes k p t ->
        Fits w.fullpath.length p t ->
        exists ret w', dopath k func fuel w = Except.ok (ret, w') := by
  constructor
  · intro fuel ret w' h
    have hpath : w.path = p.bytes := hs.str_eq
    rw [hpath]
    rcases dopath_spells hs h with ⟨hcan, hspells⟩ | ⟨hcannot, hspells⟩
    · exact iff_of_true hspells.str_eq hcan
    · have hslash : w'.path = (within p).bytes := hspells.str_eq
      apply iff_of_false
      · intro heq
        rw [hslash] at heq
        have hlen : (within p).length = p.length := congrArg List.length heq
        rw [within_length] at hlen
        lia
      · intro hcan
        exact hcan hcannot
  · intro t fuel hfuel hdesc hfit
    rcases dopath_walked func hfuel hdesc hfit hs with ⟨ret, w', hrun, _⟩
    exact ⟨ret, w', hrun⟩

/-- A call for the path `d` in a buffer of eight bytes. -/
def atSmallRoot : Walk where
  fullpath := [100, 0, 0, 0, 0, 0, 0, 0]
  calls := []
  opened := 0
  closed := []
  messages := []

theorem atSmallRoot_spells : Spells atSmallRoot.fullpath smallRoot :=
  ⟨rfl, rfl⟩

theorem dopath_restores_small :
    (forall fuel ret w', dopath smallSystem stopAtFile fuel atSmallRoot =
          Except.ok (ret, w') ->
        (w'.path = atSmallRoot.path ↔
          ¬ CannotOpen smallSystem stopAtFile atSmallRoot smallRoot)) ∧
      forall t fuel, height t < fuel -> Describes smallSystem smallRoot t ->
        Fits atSmallRoot.fullpath.length smallRoot t ->
        exists ret w', dopath smallSystem stopAtFile fuel atSmallRoot =
          Except.ok (ret, w') :=
  dopath_restores_iff smallSystem stopAtFile atSmallRoot_spells

def lockedSystem : FileSystem where
  lstat := smallSystem.lstat
  opendir _ := none
  closedir _ := true

theorem slash_left :
    exists ret w', dopath lockedSystem (fun _ _ => 0) 1 atSmallRoot =
        Except.ok (ret, w') ∧
      atSmallRoot.path = [100] ∧ w'.path = [100, slash] :=
  ⟨_, _, rfl, rfl, rfl⟩

end Ftw
end Apue
