import Apue.FileDir.Ftw.Reference

/-!
# dopath follows the reference traversal

The buffer is shared by all levels.  What a level needs of the deeper ones is
only that they leave the bytes of its own path alone: it rewrites everything
behind them before it looks at the buffer again.
-/

namespace Apue
namespace Ftw

open Foundation Kernel

/-!
# What a completed walk leaves behind
-/

/-- Every stream opened between two states has been closed once. -/
def Balanced (w w' : Walk) : Prop :=
  exists n closed, w'.opened = w.opened + n ∧
    w'.closed = w.closed ++ closed ∧
    closed.Perm (List.range' w.opened n)

theorem Balanced.refl {w w' : Walk} (hopened : w'.opened = w.opened)
    (hclosed : w'.closed = w.closed) : Balanced w w' :=
  ⟨0, [], hopened, by rw [hclosed, List.append_nil], List.Perm.refl _⟩

theorem Balanced.trans {a b c : Walk} (hab : Balanced a b)
    (hbc : Balanced b c) : Balanced a c := by
  rcases hab with ⟨n, xs, hn, hxs, hpermx⟩
  rcases hbc with ⟨m, ys, hm, hys, hpermy⟩
  refine ⟨n + m, xs ++ ys, ?_, ?_, ?_⟩
  · rw [hm, hn, Nat.add_assoc]
  · rw [hys, hxs, List.append_assoc]
  · rw [hn] at hpermy
    have hrange := @List.range'_append a.opened n m 1
    rw [Nat.one_mul] at hrange
    rw [← hrange]
    exact hpermx.append hpermy

theorem Balanced.stream {w v u : Walk} {k : FileSystem}
    (hopened : v.opened = w.opened + 1) (hclosed : v.closed = w.closed)
    (hvu : Balanced v u) : Balanced w (u.closedir k w.opened) := by
  rcases hvu with ⟨n, xs, hn, hxs, hperm⟩
  have hu : (u.closedir k w.opened).opened = u.opened ∧
      (u.closedir k w.opened).closed = u.closed ++ [w.opened] := by
    unfold Walk.closedir
    cases k.closedir w.opened with
    | true => exact ⟨rfl, rfl⟩
    | false => exact ⟨rfl, rfl⟩
  refine ⟨n + 1, xs ++ [w.opened], ?_, ?_, ?_⟩
  · rw [hu.1, hn, hopened]
    lia
  · rw [hu.2, hxs, hclosed, List.append_assoc]
  · rw [hopened] at hperm
    rw [List.range'_succ]
    exact (List.perm_append_singleton w.opened xs).trans (hperm.cons _)

/-- A walk that made the reports `full`, as far as they are made at all, for
the file at `p`. -/
structure Walked (func : Myfunc) (p : CString) (full : List Call)
    (w w' : Walk) (ret : Int) : Prop where
  ret_eq : ret = (cut func w.calls full).2
  calls : w'.calls = w.calls ++ (cut func w.calls full).1
  length : w'.fullpath.length = w.fullpath.length
  front : w'.fullpath.take p.length = p.bytes
  streams : Balanced w w'

theorem front_of_append {b : Buffer} {p q : CString}
    (h : b.take (p.append q).length = (p.append q).bytes) :
    b.take p.length = p.bytes := by
  have htake := congrArg (List.take p.length) h
  rw [List.take_take, CString.append_length,
    Nat.min_eq_left (Nat.le_add_right _ _)] at htake
  rw [htake]
  exact List.take_left

theorem walked_report (func : Myfunc) (stat : Option Stat) (type : Typeflag)
    {p : CString} {w : Walk} (hs : Spells w.fullpath p) :
    Walked func p [{ path := p.bytes, stat := stat, type := type }] w
      (w.report func stat type).2 (w.report func stat type).1 := by
  have hpath : w.path = p.bytes := hs.str_eq
  have hcut : cut func w.calls
        [{ path := p.bytes, stat := stat, type := type }] =
      ([{ path := p.bytes, stat := stat, type := type }],
        func w.calls { path := p.bytes, stat := stat, type := type }) := by
    by_cases hzero :
        func w.calls { path := p.bytes, stat := stat, type := type } = 0
    · rw [cut_cons_of_eq hzero, cut_nil, hzero]
    · rw [cut_cons_of_ne hzero]
  constructor
  · rw [hcut, ← hpath]
    rfl
  · rw [hcut, ← hpath]
    rfl
  · rfl
  · exact hs.front
  · exact Balanced.refl rfl rfl

theorem Walked.trans {func : Myfunc} {p q : CString} {a b : List Call}
    {u v w : Walk} {ret : Int} (hab : Walked func q a u v 0)
    (hbc : Walked func p b v w ret) : Walked func p (a ++ b) u w ret := by
  have hcut := cut_append_of_eq hab.ret_eq.symm b
  have hv := hab.calls
  constructor
  · rw [hcut, ← hv]
    exact hbc.ret_eq
  · rw [hcut, ← hv, hbc.calls, hv, List.append_assoc]
  · rw [hbc.length, hab.length]
  · exact hbc.front
  · exact hab.streams.trans hbc.streams

theorem Walked.stop {func : Myfunc} {p : CString} {a : List Call}
    {u v : Walk} {ret : Int} (h : Walked func p a u v ret) (hne : ret ≠ 0)
    (b : List Call) : Walked func p (a ++ b) u v ret := by
  have hcut : cut func u.calls (a ++ b) = cut func u.calls a := by
    apply cut_append_of_ne
    rw [← h.ret_eq]
    exact hne
  constructor
  · rw [hcut]
    exact h.ret_eq
  · rw [hcut]
    exact h.calls
  · exact h.length
  · exact h.front
  · exact h.streams

theorem Walked.after_edit {func : Myfunc} {p : CString} {a : List Call}
    {w v : Walk} {b : Buffer} {ret : Int}
    (h : Walked func p a { w with fullpath := b } v ret)
    (hlen : b.length = w.fullpath.length) : Walked func p a w v ret :=
  ⟨h.ret_eq, h.calls, h.length.trans hlen, h.front, h.streams⟩

theorem Walked.shorten {func : Myfunc} {p q : CString} {a : List Call}
    {w v : Walk} {ret : Int} (h : Walked func (p.append q) a w v ret) :
    Walked func p a w v ret :=
  ⟨h.ret_eq, h.calls, h.length, front_of_append h.front, h.streams⟩

/-!
# The loop over a directory
-/

theorem entries_cons_of_dots {name : CString} (h : isDots name = true)
    (rest : List CString) : entries (name :: rest) = entries rest := by
  unfold entries
  rw [List.filter_cons_of_neg]
  simp [h]

theorem entries_cons_of_not_dots {name : CString} (h : isDots name = false)
    (rest : List CString) : entries (name :: rest) = name :: entries rest := by
  unfold entries
  rw [List.filter_cons_of_pos]
  simp [h]

theorem walked_nothing {func : Myfunc} {p : CString} {w : Walk}
    (hfront : w.fullpath.take p.length = p.bytes) : Walked func p [] w w 0 :=
  ⟨rfl, (List.append_nil _).symm, rfl, hfront, Balanced.refl rfl rfl⟩

theorem readLoop_walked {func : Myfunc} {p : CString}
    {walk : Walk -> Except Fault (Int × Walk)} {reports : CString -> List Call}
    {size : Nat} {listing : List CString}
    (hfit : forall name, name ∈ entries listing ->
      (child p name).length < size)
    (hwalk : forall name, name ∈ entries listing -> forall w : Walk,
      w.fullpath.length = size -> Spells w.fullpath (child p name) ->
      exists ret w', walk w = Except.ok (ret, w') ∧
        Walked func (child p name) (reports name) w w' ret)
    {w : Walk} (hsize : w.fullpath.length = size)
    (hfront : w.fullpath.take (within p).length = (within p).bytes) :
    exists ret w',
      readLoop walk (within p).length listing 0 w = Except.ok (ret, w') ∧
      Walked func (within p) ((entries listing).flatMap reports) w w' ret := by
  induction listing generalizing w with
  | nil =>
      exact ⟨0, w, rfl, walked_nothing hfront⟩
  | cons name rest ih =>
      cases hdots : isDots name with
      | true =>
          rw [entries_cons_of_dots hdots] at hfit hwalk ⊢
          rcases ih hfit hwalk hsize hfront with ⟨ret, w', hrun, hwalked⟩
          refine ⟨ret, w', ?_, hwalked⟩
          rw [readLoop, if_pos hdots]
          exact hrun
      | false =>
          rw [entries_cons_of_not_dots hdots] at hfit hwalk ⊢
          have hmem : name ∈ name :: entries rest := List.mem_cons_self
          have hroom := hfit name hmem
          rw [child, CString.append_length, ← hsize] at hroom
          rcases strcpy_ok (within p) name hfront hroom with
            ⟨b, hcopy, hlen, hspells⟩
          rcases hwalk name hmem { w with fullpath := b }
              (hlen.trans hsize) hspells with ⟨ret, v, hrun, hwalked⟩
          have hwalked' : Walked func (within p) (reports name) w v ret :=
            (hwalked.after_edit hlen).shorten
          rw [List.flatMap_cons]
          by_cases hret : ret = 0
          · subst hret
            rcases ih (fun n hn => hfit n (List.mem_cons_of_mem _ hn))
                (fun n hn => hwalk n (List.mem_cons_of_mem _ hn))
                (hwalked'.length.trans hsize) hwalked'.front with
              ⟨ret, w', hrest, hwalkedRest⟩
            refine ⟨ret, w', ?_, hwalked'.trans hwalkedRest⟩
            rw [readLoop, if_neg (by simp [hdots]), hcopy]
            simp only [Walk.edit, hrun, ne_eq, not_true_eq_false, if_false]
            exact hrest
          · refine ⟨ret, v, ?_, hwalked'.stop hret _⟩
            rw [readLoop, if_neg (by simp [hdots]), hcopy]
            simp only [Walk.edit, hrun, ne_eq, hret, not_false_eq_true, if_true]

/-!
# One level of the recursion
-/

theorem poke_slash {b : Buffer} {p : CString} (hs : Spells b p)
    (hfit : (within p).length < b.length) :
    exists b₁ b₂, poke b p.length slash = Except.ok b₁ ∧
      poke b₁ (p.length + 1) 0 = Except.ok b₂ ∧
      b₂.length = b.length ∧ Spells b₂ (within p) := by
  rw [within_length] at hfit
  have hlen : (b.set p.length slash).length = b.length := List.length_set
  have hfront : (b.set p.length slash).take (within p).length =
      (within p).bytes := by
    rw [within_length, take_set_succ hs.length_lt, hs.front]
    rfl
  refine ⟨b.set p.length slash, (b.set p.length slash).set (p.length + 1) 0,
    poke_ok slash hs.length_lt, poke_ok 0 (by rw [hlen]; exact hfit), ?_, ?_⟩
  · rw [List.length_set, hlen]
  · have hspells := spells_set_nul hfront
      (by rw [within_length, hlen]; exact hfit)
    rw [within_length] at hspells
    exact hspells

theorem poke_truncate {b : Buffer} {p : CString}
    (hfront : b.take (within p).length = (within p).bytes)
    (hlt : p.length < b.length) :
    poke b p.length 0 = Except.ok (b.set p.length 0) ∧
      (b.set p.length 0).take p.length = p.bytes := by
  refine ⟨poke_ok 0 hlt, ?_⟩
  rw [List.take_set_of_le (Nat.le_refl _)]
  exact front_of_append hfront

theorem closedir_fields (w : Walk) (k : FileSystem) (dp : Nat) :
    (w.closedir k dp).fullpath = w.fullpath ∧
      (w.closedir k dp).calls = w.calls := by
  unfold Walk.closedir
  cases k.closedir dp with
  | true => exact ⟨rfl, rfl⟩
  | false => exact ⟨rfl, rfl⟩

theorem Walked.close {func : Myfunc} {k : FileSystem} {p : CString}
    {a : List Call} {w v u : Walk} {b : Buffer} {ret : Int}
    (hopened : v.opened = w.opened + 1) (hclosed : v.closed = w.closed)
    (hcalls : v.calls = w.calls)
    (hlen : v.fullpath.length = w.fullpath.length)
    (h : Walked func (within p) a v u ret)
    (hb : b.length = u.fullpath.length) (hfront : b.take p.length = p.bytes) :
    Walked func p a w (({ u with fullpath := b } : Walk).closedir k w.opened)
      ret := by
  rcases closedir_fields { u with fullpath := b } k w.opened with
    ⟨hpath, hcalls'⟩
  constructor
  · rw [← hcalls]
    exact h.ret_eq
  · rw [hcalls', ← hcalls]
    exact h.calls
  · rw [hpath, ← hlen, ← h.length]
    exact hb
  · rw [hpath]
    exact hfront
  · exact Balanced.stream hopened hclosed h.streams

theorem walked_directory (func : Myfunc) (st : Stat) {p : CString} {w : Walk}
    (hs : Spells w.fullpath p) :
    Walked func p
      [{ path := p.bytes, stat := some st, type := Typeflag.FTW_D }] w
      (w.report func (some st) Typeflag.FTW_D).2
      (w.report func (some st) Typeflag.FTW_D).1 :=
  walked_report func (some st) Typeflag.FTW_D hs

theorem dopath_stop {k : FileSystem} {func : Myfunc} {fuel : Nat} {p : CString}
    {w : Walk} {st : Stat} (hs : Spells w.fullpath p)
    (hlstat : k.lstat p.bytes = some st) (hdir : st.isDir = true)
    (hne : (w.report func (some st) Typeflag.FTW_D).1 ≠ 0) :
    dopath k func (fuel + 1) w =
      Except.ok (w.report func (some st) Typeflag.FTW_D) := by
  rw [dopath, show w.path = p.bytes from hs.str_eq, hlstat]
  simp only [hdir, Bool.true_eq_false, if_false]
  rw [if_pos hne]

theorem dopath_enter {k : FileSystem} {p : CString} {w : Walk} {st : Stat}
    (func : Myfunc) (fuel : Nat) (hs : Spells w.fullpath p)
    (hlstat : k.lstat p.bytes = some st) (hdir : st.isDir = true)
    (hzero : (w.report func (some st) Typeflag.FTW_D).1 = 0) :
    dopath k func (fuel + 1) w =
      (w.report func (some st) Typeflag.FTW_D).2.edit
          (poke w.fullpath p.length slash) fun w =>
        w.edit (poke w.fullpath (p.length + 1) 0) fun w =>
          match k.opendir w.path with
          | none => Except.ok (w.report func (some st) Typeflag.FTW_DNR)
          | some listing =>
              match readLoop (dopath k func fuel) (p.length + 1) listing 0
                  { w with opened := w.opened + 1 } with
              | Except.error fault => Except.error fault
              | Except.ok (ret, u) =>
                  u.edit (poke u.fullpath p.length 0) fun u =>
                    Except.ok (ret, u.closedir k w.opened) := by
  have hpath : w.path = p.bytes := hs.str_eq
  have hreport : (w.report func (some st) Typeflag.FTW_D).2.path = p.bytes :=
    hpath
  rw [dopath, hpath, hlstat]
  simp only [hdir, Bool.true_eq_false, if_false, hzero, ne_eq,
    not_true_eq_false]
  rw [hreport]
  rfl

theorem dopath_open {k : FileSystem} {p : CString} {w : Walk} {st : Stat}
    (func : Myfunc) (fuel : Nat) (hs : Spells w.fullpath p)
    (hlstat : k.lstat p.bytes = some st) (hdir : st.isDir = true)
    (hzero : (w.report func (some st) Typeflag.FTW_D).1 = 0)
    (hfit : (within p).length < w.fullpath.length) :
    exists b, b.length = w.fullpath.length ∧ Spells b (within p) ∧
      forall v : Walk,
        v = { (w.report func (some st) Typeflag.FTW_D).2 with fullpath := b } ->
        dopath k func (fuel + 1) w =
          match k.opendir (within p).bytes with
          | none => Except.ok (v.report func (some st) Typeflag.FTW_DNR)
          | some listing =>
              match readLoop (dopath k func fuel) (within p).length listing 0
                  { v with opened := v.opened + 1 } with
              | Except.error fault => Except.error fault
              | Except.ok (ret, u) =>
                  u.edit (poke u.fullpath p.length 0) fun u =>
                    Except.ok (ret, u.closedir k v.opened) := by
  rcases poke_slash hs hfit with ⟨b₁, b₂, hslash, hnul, hlen, hspells⟩
  refine ⟨b₂, hlen, hspells, ?_⟩
  intro v hv
  have hpath : v.path = (within p).bytes := by
    rw [hv]
    exact hspells.str_eq
  rw [dopath_enter func fuel hs hlstat hdir hzero, within_length]
  simp only [Walk.edit, hslash, hnul]
  rw [← hv, hpath, hv]

theorem dopath_walked_unreadable {k : FileSystem} {func : Myfunc} {fuel : Nat}
    {p : CString} {w : Walk} {st : Stat}
    (hdesc : Describes k p (Node.unreadable st))
    (hfit : Fits w.fullpath.length p (Node.unreadable st))
    (hs : Spells w.fullpath p) :
    exists ret w', dopath k func (fuel + 1) w = Except.ok (ret, w') ∧
      Walked func p (trace p (Node.unreadable st)) w w' ret := by
  rcases hdesc with ⟨hlstat, hdir, hopendir⟩
  have hfirst := walked_directory func st hs
  by_cases hzero : (w.report func (some st) Typeflag.FTW_D).1 = 0
  · rcases dopath_open func fuel hs hlstat hdir hzero hfit with
      ⟨b, hlen, hspells, hopen⟩
    have hrun := hopen _ rfl
    rw [hopendir] at hrun
    refine ⟨_, _, hrun, ?_⟩
    rw [hzero] at hfirst
    have hsecond := walked_report func (some st) Typeflag.FTW_DNR
      (w := { (w.report func (some st) Typeflag.FTW_D).2 with fullpath := b })
      hspells
    exact hfirst.trans (hsecond.shorten.after_edit hlen)
  · exact ⟨_, _, dopath_stop hs hlstat hdir hzero, hfirst.stop hzero _⟩

theorem dopath_walked_dir {k : FileSystem} {func : Myfunc} {fuel : Nat}
    {p : CString} {w : Walk} {st : Stat} {listing : List CString}
    {sub : CString -> Node}
    (hdesc : Describes k p (Node.dir st listing sub))
    (hfit : Fits w.fullpath.length p (Node.dir st listing sub))
    (hs : Spells w.fullpath p)
    (ih : forall name, name ∈ entries listing -> forall v : Walk,
      v.fullpath.length = w.fullpath.length ->
      Spells v.fullpath (child p name) ->
      exists ret v', dopath k func fuel v = Except.ok (ret, v') ∧
        Walked func (child p name) (trace (child p name) (sub name)) v v' ret) :
    exists ret w', dopath k func (fuel + 1) w = Except.ok (ret, w') ∧
      Walked func p (trace p (Node.dir st listing sub)) w w' ret := by
  rcases hdesc with ⟨hlstat, hdir, hopendir, _⟩
  have hfirst := walked_directory func st hs
  by_cases hzero : (w.report func (some st) Typeflag.FTW_D).1 = 0
  · rcases dopath_open func fuel hs hlstat hdir hzero hfit.1 with
      ⟨b, hlen, hspells, hopen⟩
    rw [hzero] at hfirst
    generalize (w.report func (some st) Typeflag.FTW_D).2 = r at hfirst hopen
    have hrun := hopen _ rfl
    rw [hopendir] at hrun
    have hroom : forall name, name ∈ entries listing ->
        (child p name).length < w.fullpath.length :=
      fun name hname => (hfit.2 name hname).length_lt
    rcases readLoop_walked hroom ih
        (w := { { r with fullpath := b } with opened := r.opened + 1 })
        hlen hspells.front with ⟨ret, u, hloop, hwalked⟩
    have hulen : u.fullpath.length = w.fullpath.length :=
      hwalked.length.trans hlen
    rcases poke_truncate hwalked.front
        (by rw [hulen]; exact hs.length_lt) with ⟨hcut, hfront⟩
    have hclose := Walked.close (k := k) (w := r)
      (v := { { r with fullpath := b } with opened := r.opened + 1 })
      rfl rfl rfl (hlen.trans hfirst.length.symm) hwalked List.length_set hfront
    refine ⟨ret, _, ?_, hfirst.trans hclose⟩
    simp only [hrun, hloop, hcut, Walk.edit]
  · exact ⟨_, _, dopath_stop hs hlstat hdir hzero, hfirst.stop hzero _⟩

/--
With enough fuel for the levels below it and room for every path below it,
`dopath` makes the reports of the reference traversal as far as the callback
lets it, and leaves the path it was called with in the buffer.
-/
theorem dopath_walked {k : FileSystem} {t : Node} {fuel : Nat} {p : CString}
    {w : Walk} (func : Myfunc) (hfuel : height t < fuel)
    (hdesc : Describes k p t) (hfit : Fits w.fullpath.length p t)
    (hs : Spells w.fullpath p) :
    exists ret w', dopath k func fuel w = Except.ok (ret, w') ∧
      Walked func p (trace p t) w w' ret := by
  induction t generalizing fuel p w with
  | noStat =>
      cases fuel with
      | zero => cases hfuel
      | succ fuel =>
          refine ⟨_, _, ?_, walked_report func none Typeflag.FTW_NS hs⟩
          change k.lstat p.bytes = none at hdesc
          rw [dopath, show w.path = p.bytes from hs.str_eq, hdesc]
  | file st =>
      cases fuel with
      | zero => cases hfuel
      | succ fuel =>
          refine ⟨_, _, ?_, walked_report func (some st) Typeflag.FTW_F hs⟩
          rcases hdesc with ⟨hlstat, hfile⟩
          rw [dopath, show w.path = p.bytes from hs.str_eq, hlstat]
          simp only [hfile, if_true]
  | unreadable st =>
      cases fuel with
      | zero => cases hfuel
      | succ fuel => exact dopath_walked_unreadable hdesc hfit hs
  | dir st listing sub ih =>
      cases fuel with
      | zero => cases hfuel
      | succ fuel =>
          apply dopath_walked_dir hdesc hfit hs
          intro name hname v hlen hspells
          apply ih name
          · have hlt := height_sub_lt st sub hname
            lia
          · exact hdesc.2.2.2 name hname
          · rw [hlen]
            exact hfit.2 name hname
          · exact hspells

/-!
# The whole traversal
-/

theorem myftw_walked {cfg : PathConfig} {k : FileSystem} {root : CString} {t : Node}
    {size fuel : Nat} (func : Myfunc) (halloc : path_alloc cfg = some size)
    (hdesc : Describes k root t) (hfit : Fits size root t) (hfuel : height t < fuel) :
    exists ret w w', myftw cfg k func fuel root = Except.ok (ret, w') ∧
      w.calls = [] ∧ w.opened = 0 ∧ w.closed = [] ∧
      Walked func root (trace root t) w w' ret := by
  have hlt : root.length < size := hfit.length_lt
  have hroot : root.take (size - 1) = root := CString.take_of_length_le (by lia)
  have hpos : 0 < size := by lia
  rcases spells_strncpy root hpos with
    ⟨hpoke, hlen, hspells⟩
  rw [hroot] at hspells
  let w : Walk :=
    { fullpath := (strncpy root.bytes size).set (size - 1) 0, calls := [],
      opened := 0, closed := [], messages := [] }
  have hfit' : Fits w.fullpath.length root t := by
    rw [hlen]
    exact hfit
  rcases dopath_walked (w := w) func hfuel hdesc hfit' hspells with
    ⟨ret, w', hrun, hwalked⟩
  refine ⟨ret, w, w', ?_, rfl, rfl, rfl, hwalked⟩
  unfold myftw
  rw [halloc]
  simp only [Walk.edit, hpoke]
  exact hrun

/--
`myftw` calls the function exactly as the reference traversal does, up to the
first nonzero answer, returns that answer, and closes every directory stream it
opened exactly once.
-/
theorem myftw_trace (cfg : PathConfig) (k : FileSystem) (func : Myfunc)
    (root : CString) (t : Node) (size fuel : Nat)
    (halloc : path_alloc cfg = some size) (hdesc : Describes k root t)
    (hfit : Fits size root t) (hfuel : height t < fuel) :
    exists ret w', myftw cfg k func fuel root = Except.ok (ret, w') ∧
      w'.calls = (cut func [] (trace root t)).1 ∧
      ret = (cut func [] (trace root t)).2 ∧
      w'.closed.Perm (List.range w'.opened) := by
  rcases myftw_walked func halloc hdesc hfit hfuel with
    ⟨ret, w, w', hrun, hcalls, hopened, hclosed, hwalked⟩
  have hmade := hwalked.calls
  have hret := hwalked.ret_eq
  rw [hcalls] at hmade hret
  refine ⟨ret, w', hrun, hmade, hret, ?_⟩
  rcases hwalked.streams with ⟨n, closed, hopened', hclosed', hperm⟩
  rw [hopened, Nat.zero_add] at hopened'
  rw [hclosed, List.nil_append] at hclosed'
  rw [hopened] at hperm
  rw [hopened', hclosed', List.range_eq_range']
  exact hperm

def dotName : CString :=
  CString.ofBytes [dot] rfl

/-- The name `a`. -/
def fileName : CString :=
  CString.ofBytes [97] rfl

/-- One directory `d` that holds one regular file `a`. -/
def smallTree : Node :=
  Node.dir { st_mode := FileType.S_IFDIR }
    [dotName, fileName] (fun _ => Node.file { st_mode := FileType.S_IFREG })

def smallRoot : CString :=
  CString.ofBytes [100] rfl

def smallSystem : FileSystem where
  lstat path :=
    if path = [100] then
      some { st_mode := FileType.S_IFDIR }
    else if path = [100, slash, 97] then
      some { st_mode := FileType.S_IFREG }
    else
      none
  opendir path :=
    if path = [100, slash] then
      some [dotName, fileName]
    else
      none
  closedir _ := true

def smallConfig : PathConfig where
  PATH_MAX := some 8
  posix_version := 200809
  pathconf := PathconfAnswer.error

def stopAtFile : Myfunc :=
  fun _ call => if call.type = Typeflag.FTW_F then 7 else 0

theorem smallSystem_describes : Describes smallSystem smallRoot smallTree := by
  refine ⟨by decide, by decide, by decide, ?_⟩
  intro name hname
  have heq : name = fileName := List.mem_singleton.mp hname
  rw [heq]
  exact ⟨by decide, by decide⟩

theorem smallTree_fits : Fits 9 smallRoot smallTree := by
  refine ⟨by decide, ?_⟩
  intro name hname
  have heq : name = fileName := List.mem_singleton.mp hname
  rw [heq]
  change 3 < 9
  decide

theorem myftw_trace_small :
    exists ret w',
      myftw smallConfig smallSystem stopAtFile 2 smallRoot =
          Except.ok (ret, w') ∧
        w'.calls =
          (cut stopAtFile [] (trace smallRoot smallTree)).1 ∧
        ret = (cut stopAtFile [] (trace smallRoot smallTree)).2 ∧
        w'.closed.Perm (List.range w'.opened) :=
  myftw_trace smallConfig smallSystem stopAtFile smallRoot smallTree 9 2
    (by decide) smallSystem_describes smallTree_fits (by decide)

end Ftw
end Apue
