import Apue.FileDir.Ftw.Walk

/-!
# Stores outside the path buffer

The kernel refuses paths that are too long, so a directory whose path it accepts
leaves room for the slash behind it.  Nothing checks the length of an entry's
name before it is copied behind that slash.  The walk stays inside its buffer
exactly when every name that it copies fits.
-/

namespace Apue
namespace Ftw

open Foundation Kernel

def PATH_MAX : Nat := 4096
def NAME_MAX : Nat := 255

/-- The kernel answers `ENAMETOOLONG` for a path argument that takes `PATH_MAX`
bytes or more with its terminator. -/
structure PathLimit (k : FileSystem) : Prop where
  lstat : forall path, PATH_MAX ≤ path.length + 1 -> k.lstat path = none
  opendir : forall path, PATH_MAX ≤ path.length + 1 -> k.opendir path = none

/-- Every name copied in a directory that can be opened has room, with its
terminator, in a buffer of `size` bytes. -/
def NamesFit (size : Nat) (p : CString) : Node -> Prop
  | Node.noStat => True
  | Node.file _ => True
  | Node.unreadable _ => True
  | Node.dir _ listing sub =>
      forall name, name ∈ entries listing ->
        (child p name).length < size ∧ NamesFit size (child p name) (sub name)

/-!
# Names that fit are enough
-/

theorem PathLimit.within_lt {k : FileSystem} {p : CString} {st : Stat}
    (h : PathLimit k) (hlstat : k.lstat p.bytes = some st) :
    (within p).length < PATH_MAX := by
  rw [within_length]
  rcases Nat.lt_or_ge (p.length + 1) PATH_MAX with hlt | hge
  · exact hlt
  · have hnone := h.lstat p.bytes hge
    rw [hlstat] at hnone
    cases hnone

theorem fits_of_namesFit {k : FileSystem} {size : Nat} {p : CString} {t : Node}
    (hlimit : PathLimit k) (hsize : PATH_MAX ≤ size) (hdesc : Describes k p t)
    (hp : p.length < size) (h : NamesFit size p t) : Fits size p t := by
  induction t generalizing p with
  | noStat => exact hp
  | file st => exact hp
  | unreadable st =>
      exact Nat.lt_of_lt_of_le (hlimit.within_lt hdesc.1) hsize
  | dir st listing sub ih =>
      constructor
      · exact Nat.lt_of_lt_of_le (hlimit.within_lt hdesc.1) hsize
      · intro name hname
        rcases h name hname with ⟨hchild, hsub⟩
        exact ih name (hdesc.2.2.2 name hname) hchild hsub

/-!
# A name that does not fit is copied outside
-/

def always : Myfunc :=
  fun _ _ => 0

theorem readLoop_overflow_or_fit {p : CString}
    {walk : Walk -> Except Fault (Int × Walk)} {good : CString -> Prop}
    {size : Nat} {listing : List CString}
    (hwalk : forall name, name ∈ entries listing -> forall w : Walk,
      w.fullpath.length = size -> Spells w.fullpath (child p name) ->
      (exists i, walk w = Except.error (Fault.overflow i)) ∨
        (good name ∧ exists w', walk w = Except.ok (0, w') ∧
          w'.fullpath.length = size ∧
          w'.fullpath.take (child p name).length = (child p name).bytes))
    {w : Walk} (hsize : w.fullpath.length = size)
    (hfront : w.fullpath.take (within p).length = (within p).bytes) :
    (exists i, readLoop walk (within p).length listing 0 w =
        Except.error (Fault.overflow i)) ∨
      forall name, name ∈ entries listing ->
        (child p name).length < size ∧ good name := by
  induction listing generalizing w with
  | nil =>
      right
      intro name hname
      cases hname
  | cons name rest ih =>
      cases hdots : isDots name with
      | true =>
          rw [entries_cons_of_dots hdots] at hwalk ⊢
          rw [readLoop, if_pos hdots]
          exact ih hwalk hsize hfront
      | false =>
          rw [entries_cons_of_not_dots hdots] at hwalk ⊢
          have hmem : name ∈ name :: entries rest := List.mem_cons_self
          rw [readLoop, if_neg (by simp [hdots])]
          rcases Nat.lt_or_ge (child p name).length size with hroom | hbig
          · have hfit := hroom
            rw [child, CString.append_length, ← hsize] at hfit
            rcases strcpy_ok (within p) name hfront hfit with
              ⟨b, hcopy, hlen, hspells⟩
            rw [hcopy]
            simp only [Walk.edit]
            rcases hwalk name hmem { w with fullpath := b }
                (hlen.trans hsize) hspells with ⟨i, hrun⟩ | ⟨hgood, v, hrun, hv⟩
            · left
              exact ⟨i, by rw [hrun]⟩
            · simp only [hrun, ne_eq, not_true_eq_false, if_false]
              rcases ih (fun n hn => hwalk n (List.mem_cons_of_mem _ hn))
                  hv.1 (front_of_append hv.2) with hover | hrest
              · left
                exact hover
              · right
                intro n hn
                rcases List.mem_cons.mp hn with heq | hn
                · rw [heq]
                  exact ⟨hroom, hgood⟩
                · exact hrest n hn
          · left
            rw [child, CString.append_length, ← hsize] at hbig
            rcases strcpy_error hbig with ⟨j, hcopy, _⟩
            rw [hcopy]
            exact ⟨j, rfl⟩

theorem dopath_always_ok {k : FileSystem} {t : Node} {fuel : Nat}
    {p : CString} {w : Walk} (hlimit : PathLimit k)
    (hsize : PATH_MAX ≤ w.fullpath.length) (hfuel : height t < fuel)
    (hdesc : Describes k p t) (hs : Spells w.fullpath p)
    (hfit : NamesFit w.fullpath.length p t) :
    exists w', dopath k always fuel w = Except.ok (0, w') ∧
      w'.fullpath.length = w.fullpath.length ∧
      w'.fullpath.take p.length = p.bytes := by
  have hfits := fits_of_namesFit hlimit hsize hdesc hs.length_lt hfit
  rcases dopath_walked always hfuel hdesc hfits hs with
    ⟨ret, w', hrun, hwalked⟩
  have hret : ret = 0 := by
    rw [hwalked.ret_eq]
    exact congrArg Prod.snd (cut_zero _ _)
  rw [hret] at hrun
  exact ⟨w', hrun, hwalked.length, hwalked.front⟩

theorem dopath_overflow_or_fit {k : FileSystem} {t : Node} {fuel : Nat}
    {p : CString} {w : Walk} (hlimit : PathLimit k)
    (hsize : PATH_MAX ≤ w.fullpath.length) (hfuel : height t < fuel)
    (hdesc : Describes k p t) (hs : Spells w.fullpath p) :
    (exists i, dopath k always fuel w = Except.error (Fault.overflow i)) ∨
      NamesFit w.fullpath.length p t := by
  induction t generalizing fuel p w with
  | noStat =>
      right
      trivial
  | file st =>
      right
      trivial
  | unreadable st =>
      right
      trivial
  | dir st listing sub ih =>
      cases fuel with
      | zero => cases hfuel
      | succ fuel =>
          rcases hdesc with ⟨hlstat, hdir, hopendir, hsub⟩
          have hwithin := Nat.lt_of_lt_of_le (hlimit.within_lt hlstat) hsize
          rcases dopath_open always fuel hs hlstat hdir rfl hwithin
            with ⟨b, hlen, hspells, hopen⟩
          have hrun := hopen _ rfl
          rw [hopendir] at hrun
          have hwalk : forall name, name ∈ entries listing -> forall v : Walk,
              v.fullpath.length = w.fullpath.length ->
              Spells v.fullpath (child p name) ->
              (exists i, dopath k always fuel v =
                  Except.error (Fault.overflow i)) ∨
                (NamesFit w.fullpath.length (child p name) (sub name) ∧
                  exists v', dopath k always fuel v = Except.ok (0, v') ∧
                    v'.fullpath.length = w.fullpath.length ∧
                    v'.fullpath.take (child p name).length =
                      (child p name).bytes) := by
            intro name hname v hvlen hvs
            have hheight : height (sub name) < fuel := by
              have hlt := height_sub_lt st sub hname
              lia
            rw [← hvlen] at hsize ⊢
            rcases ih name hsize hheight (hsub name hname) hvs with
              hover | hfit
            · left
              exact hover
            · right
              exact ⟨hfit, dopath_always_ok hlimit hsize hheight
                (hsub name hname) hvs hfit⟩
          rcases readLoop_overflow_or_fit hwalk
              (w := { { (w.report always (some st) Typeflag.FTW_D).2 with
                fullpath := b } with opened := w.opened + 1 })
              hlen hspells.front with ⟨i, hloop⟩ | hfit
          · left
            refine ⟨i, ?_⟩
            rw [hrun]
            have hopened :
                (w.report always (some st) Typeflag.FTW_D).2.opened =
                  w.opened := rfl
            simp only [hopened, hloop]
          · right
            exact hfit

/-!
# The whole traversal
-/

/-- The state in which `myftw` calls `dopath`. -/
def start (size : Nat) (root : CString) : Walk where
  fullpath := (strncpy root.bytes size).set (size - 1) 0
  calls := []
  opened := 0
  closed := []
  messages := []

theorem myftw_eq_dopath {cfg : PathConfig} {size : Nat} (k : FileSystem)
    (func : Myfunc) (fuel : Nat) (root : CString)
    (halloc : path_alloc cfg = some size) (hpos : 0 < size) :
    myftw cfg k func fuel root = dopath k func fuel (start size root) := by
  unfold myftw
  rw [halloc]
  simp only [Walk.edit, (spells_strncpy root hpos).1]
  rfl

theorem pathmax_le_alloc {cfg : PathConfig} {n size : Nat}
    (hmax : pathmax cfg = some n) (halloc : path_alloc cfg = some size) :
    n ≤ size := by
  unfold path_alloc at halloc
  rw [hmax] at halloc
  simp only at halloc
  split at halloc
  · cases halloc
    exact Nat.le_succ n
  · cases halloc
    exact Nat.le_refl n

theorem myftw_overflow_or_fit {cfg : PathConfig} {k : FileSystem} {root : CString}
    {t : Node} {size fuel : Nat} (hmax : pathmax cfg = some PATH_MAX)
    (halloc : path_alloc cfg = some size) (hlimit : PathLimit k)
    (hdesc : Describes k (root.take (size - 1)) t) (hfuel : height t < fuel) :
    (exists i, myftw cfg k always fuel root =
        Except.error (Fault.overflow i)) ∨
      NamesFit size (root.take (size - 1)) t := by
  have hsize : PATH_MAX ≤ size := pathmax_le_alloc hmax halloc
  have hpos : 0 < size := Nat.lt_of_lt_of_le (by decide) hsize
  rcases spells_strncpy root hpos with ⟨_, hlen, hspells⟩
  rw [myftw_eq_dopath k always fuel root halloc hpos]
  have hlen' : (start size root).fullpath.length = size := hlen
  have hor := dopath_overflow_or_fit (w := start size root) hlimit
    (by rw [hlen']; exact hsize) hfuel hdesc hspells
  rw [hlen'] at hor
  exact hor

/--
No store of the walk falls outside the allocated bytes, whatever the callback
answers, exactly when every entry name copied behind a directory's path fits.
-/
theorem myftw_inside_iff (cfg : PathConfig) (k : FileSystem) (root : CString)
    (t : Node) (size : Nat) (hmax : pathmax cfg = some PATH_MAX)
    (halloc : path_alloc cfg = some size) (hlimit : PathLimit k)
    (hdesc : Describes k (root.take (size - 1)) t) :
    (forall func fuel i, height t < fuel ->
        myftw cfg k func fuel root ≠ Except.error (Fault.overflow i)) ↔
      NamesFit size (root.take (size - 1)) t := by
  have hsize : PATH_MAX ≤ size := pathmax_le_alloc hmax halloc
  have hpos : 0 < size := Nat.lt_of_lt_of_le (by decide) hsize
  constructor
  · intro hinside
    rcases myftw_overflow_or_fit hmax halloc hlimit hdesc
        (Nat.lt_succ_self (height t)) with ⟨i, hover⟩ | hfit
    · exact absurd hover (hinside always _ i (Nat.lt_succ_self _))
    · exact hfit
  · intro hnames func fuel i hfuel hover
    rcases spells_strncpy root hpos with ⟨_, hlen, hspells⟩
    have hroot : (root.take (size - 1)).length < size := by
      have hlt := hspells.length_lt
      rw [hlen] at hlt
      exact hlt
    have hfit : Fits (start size root).fullpath.length
        (root.take (size - 1)) t := by
      rw [show (start size root).fullpath.length = size from hlen]
      exact fits_of_namesFit hlimit hsize hdesc hroot hnames
    rcases dopath_walked (w := start size root) func hfuel hdesc hfit hspells
      with ⟨ret, w', hrun, _⟩
    rw [myftw_eq_dopath k func fuel root halloc hpos, hrun] at hover
    cases hover

def linuxConfig : PathConfig where
  PATH_MAX := some PATH_MAX
  posix_version := 200809
  pathconf := PathconfAnswer.limit (PATH_MAX - 1)

theorem smallSystem_pathLimit : PathLimit smallSystem := by
  constructor
  · intro path hlong
    unfold smallSystem
    simp only
    split
    · next heq =>
        rw [heq] at hlong
        cases Nat.not_lt.mpr hlong (by decide)
    · split
      · next heq =>
          rw [heq] at hlong
          cases Nat.not_lt.mpr hlong (by decide)
      · rfl
  · intro path hlong
    unfold smallSystem
    simp only
    split
    · next heq =>
        rw [heq] at hlong
        cases Nat.not_lt.mpr hlong (by decide)
    · rfl

theorem myftw_inside_iff_small :
    (forall func fuel i, height smallTree < fuel ->
        myftw linuxConfig smallSystem func fuel smallRoot ≠
          Except.error (Fault.overflow i)) ↔
      NamesFit 4097 (smallRoot.take 4096) smallTree :=
  myftw_inside_iff linuxConfig smallSystem smallRoot smallTree 4097 rfl
    (by decide) smallSystem_pathLimit
    (by
      have htake : smallRoot.take 4096 = smallRoot :=
        CString.take_of_length_le (by decide)
      rw [htake]
      exact smallSystem_describes)

/-!
# A root path of slashes

Any number of slashes names the root directory.  With 4090 of them the kernel
still accepts the path, and with the one that is appended, but the name of an
entry of the root directory no longer fits.
-/

def slashes : CString where
  bytes := List.replicate 4090 slash
  nulFree := by
    intro b hb
    rw [List.eq_of_mem_replicate hb]
    decide

/-- The name `lost+found`. -/
def lostFound : CString :=
  CString.ofBytes [108, 111, 115, 116, 43, 102, 111, 117, 110, 100] rfl

def slashSystem : FileSystem where
  lstat path :=
    if path.length + 1 < PATH_MAX ∧ path.all (fun b => b = slash) then
      some { st_mode := FileType.S_IFDIR }
    else
      none
  opendir path :=
    if path.length + 1 < PATH_MAX ∧ path.all (fun b => b = slash) then
      some [lostFound]
    else
      none
  closedir _ := true

theorem slashSystem_pathLimit : PathLimit slashSystem := by
  constructor
  · intro path hlong
    exact if_neg (fun h => Nat.not_lt.mpr hlong h.1)
  · intro path hlong
    exact if_neg (fun h => Nat.not_lt.mpr hlong h.1)

def slashTree : Node :=
  Node.dir { st_mode := FileType.S_IFDIR } [lostFound] (fun _ => Node.noStat)

theorem child_slashes_length : (child slashes lostFound).length = 4101 := by
  have hlength : slashes.length = 4090 := List.length_replicate
  rw [child_length, hlength]
  rfl

theorem slashSystem_describes : Describes slashSystem slashes slashTree := by
  have hwithin : (within slashes).bytes = List.replicate 4091 slash := by
    change List.replicate 4090 slash ++ [slash] = _
    exact List.replicate_succ'.symm
  refine ⟨?_, rfl, ?_, ?_⟩
  · change slashSystem.lstat (List.replicate 4090 slash) = _
    unfold slashSystem
    simp only [List.length_replicate, List.all_replicate]
    rfl
  · rw [hwithin]
    unfold slashSystem
    simp only [List.length_replicate, List.all_replicate]
    rfl
  · intro name hname
    have heq : name = lostFound := List.mem_singleton.mp hname
    rw [heq]
    apply slashSystem_pathLimit.lstat
    change PATH_MAX ≤ (child slashes lostFound).length + 1
    rw [child_slashes_length]
    decide

theorem slashTree_not_namesFit : ¬ NamesFit 4097 slashes slashTree := by
  intro hfit
  have hmem : lostFound ∈ entries [lostFound] := by decide
  have hlt := (hfit lostFound hmem).1
  rw [child_slashes_length] at hlt
  exact absurd hlt (by decide)

/-- The walk of the root directory writes outside its 4097 bytes. -/
theorem myftw_slashes_overflow :
    PathLimit slashSystem ∧ lostFound.length ≤ NAME_MAX ∧
      Describes slashSystem slashes slashTree ∧
      path_alloc linuxConfig = some 4097 ∧
      exists i, myftw linuxConfig slashSystem always 2 slashes =
        Except.error (Fault.overflow i) := by
  have halloc : path_alloc linuxConfig = some 4097 := by decide
  have htake : slashes.take (4097 - 1) = slashes := by
    have hlength : slashes.length = 4090 := List.length_replicate
    exact CString.take_of_length_le (by rw [hlength]; decide)
  refine ⟨slashSystem_pathLimit, by decide, slashSystem_describes, halloc, ?_⟩
  have hheight : height slashTree < 2 := by decide
  have hor := myftw_overflow_or_fit rfl halloc slashSystem_pathLimit
    (by rw [htake]; exact slashSystem_describes) hheight
  rw [htake] at hor
  rcases hor with hover | hfit
  · exact hover
  · exact absurd hfit slashTree_not_namesFit

end Ftw
end Apue
