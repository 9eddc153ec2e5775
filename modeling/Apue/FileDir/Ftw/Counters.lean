import Apue.FileDir.Ftw.Walk
import Mathlib.Data.List.Basic

/-!
# myfunc and main

`myfunc` counts the files of each type that the traversal reports, and `main` adds
the counters up.  What they should say is stated of the tree: how many of its files
`lstat` shows to be of a type.
-/

namespace Apue
namespace Ftw

open Foundation Kernel

def Typeflag.code : Typeflag -> Int
  | Typeflag.FTW_F => 1
  | Typeflag.FTW_D => 2
  | Typeflag.FTW_DNR => 3
  | Typeflag.FTW_NS => 4

/-- What `err_ret` prints for `myfunc`. -/
inductive Warning where
  | cantReadDirectory (path : List Byte)
  | statError (path : List Byte)
  deriving Repr, DecidableEq

/-- Where `myfunc` leaves the program, or reads a status that `lstat` did not
fill in. -/
inductive Quit where
  | directory (path : List Byte)
  | unknownType (type : Int) (path : List Byte)
  | noStatus
  deriving Repr, DecidableEq

structure Counters where
  nreg : Nat
  ndir : Nat
  nblk : Nat
  nchr : Nat
  nfifo : Nat
  nslink : Nat
  nsock : Nat
  ntot : Nat
  warnings : List Warning
  deriving Repr, DecidableEq

def Counters.zero : Counters :=
  { nreg := 0, ndir := 0, nblk := 0, nchr := 0, nfifo := 0, nslink := 0,
    nsock := 0, ntot := 0, warnings := [] }

def countFile (c : Counters) (pathname : List Byte) :
    FileType -> Except Quit Counters
  | FileType.S_IFREG => Except.ok { c with nreg := c.nreg + 1 }
  | FileType.S_IFBLK => Except.ok { c with nblk := c.nblk + 1 }
  | FileType.S_IFCHR => Except.ok { c with nchr := c.nchr + 1 }
  | FileType.S_IFIFO => Except.ok { c with nfifo := c.nfifo + 1 }
  | FileType.S_IFLNK => Except.ok { c with nslink := c.nslink + 1 }
  | FileType.S_IFSOCK => Except.ok { c with nsock := c.nsock + 1 }
  | FileType.S_IFDIR => Except.error (Quit.directory pathname)

def myfunc (c : Counters) (pathname : List Byte) (statptr : Option Stat)
    (type : Int) : Except Quit Counters :=
  if type = Typeflag.FTW_F.code then
    match statptr with
    | none => Except.error Quit.noStatus
    | some st => countFile c pathname st.st_mode
  else if type = Typeflag.FTW_D.code then
    Except.ok { c with ndir := c.ndir + 1 }
  else if type = Typeflag.FTW_DNR.code then
    Except.ok
      { c with warnings := c.warnings ++ [Warning.cantReadDirectory pathname] }
  else if type = Typeflag.FTW_NS.code then
    Except.ok { c with warnings := c.warnings ++ [Warning.statError pathname] }
  else
    Except.error (Quit.unknownType type pathname)

def counted : Counters -> List Call -> Except Quit Counters
  | c, [] => Except.ok c
  | c, call :: rest =>
      match myfunc c call.path call.stat call.type.code with
      | Except.error quit => Except.error quit
      | Except.ok c => counted c rest

/-- `myfunc` as the traversal sees it.  The counters are those of the calls before;
once the program has ended there are no further calls. -/
def counting : Myfunc :=
  fun past call =>
    match counted Counters.zero (past ++ [call]) with
    | Except.error _ => 1
    | Except.ok _ => 0

def Counters.sum (c : Counters) : Nat :=
  c.nreg + c.nslink + c.nsock + c.ndir + c.nfifo + c.nchr + c.nblk

def total (c : Counters) : Counters :=
  { c with ntot := if c.sum = 0 then 1 else c.sum }

/-- How `main` ends before it prints. -/
inductive Stop where
  | usage
  | walk (fault : Fault)
  | quit (quit : Quit)
  deriving Repr, DecidableEq

/-- `main`: what `myftw` returned, and the counters that are printed. -/
def main (cfg : PathConfig) (k : FileSystem) (fuel : Nat) :
    List CString -> Except Stop (Int × Counters)
  | [_, pathname] =>
      match myftw cfg k counting fuel pathname with
      | Except.error fault => Except.error (Stop.walk fault)
      | Except.ok (ret, w) =>
          match counted Counters.zero w.calls with
          | Except.error quit => Except.error (Stop.quit quit)
          | Except.ok c => Except.ok (ret, total c)
  | _ => Except.error Stop.usage

/-!
# What is counted
-/

def Counters.of (c : Counters) : FileType -> Nat
  | FileType.S_IFREG => c.nreg
  | FileType.S_IFDIR => c.ndir
  | FileType.S_IFBLK => c.nblk
  | FileType.S_IFCHR => c.nchr
  | FileType.S_IFIFO => c.nfifo
  | FileType.S_IFLNK => c.nslink
  | FileType.S_IFSOCK => c.nsock

/-- The types of the files in the tree on which `lstat` succeeds; the names `.` and
`..` of a directory are not entries of it. -/
def types : Node -> List FileType
  | Node.noStat => []
  | Node.file st => [st.st_mode]
  | Node.unreadable st => [st.st_mode]
  | Node.dir st listing sub =>
      st.st_mode :: (entries listing).flatMap (fun name => types (sub name))

def Call.counts (call : Call) : List FileType :=
  match call.type with
  | Typeflag.FTW_F => (call.stat.map Stat.st_mode).toList
  | Typeflag.FTW_D => [FileType.S_IFDIR]
  | Typeflag.FTW_DNR => []
  | Typeflag.FTW_NS => []

def Call.Regular (call : Call) : Prop :=
  call.type = Typeflag.FTW_F ->
    exists st, call.stat = some st ∧ st.isDir = false

theorem isDir_iff {st : Stat} : st.isDir = true ↔ st.st_mode = FileType.S_IFDIR := by
  unfold Stat.isDir
  rw [decide_eq_true_iff]

theorem countFile_ok {st : Stat} (c : Counters) (pathname : List Byte)
    (h : st.isDir = false) :
    exists c', countFile c pathname st.st_mode = Except.ok c' ∧
      forall type, c'.of type = c.of type + [st.st_mode].count type := by
  rcases st with ⟨mode⟩
  cases mode with
  | S_IFDIR => cases h
  | _ =>
      refine ⟨_, rfl, ?_⟩
      intro type
      cases type <;> rfl

theorem myfunc_ok {call : Call} (c : Counters) (h : call.Regular) :
    exists c', myfunc c call.path call.stat call.type.code = Except.ok c' ∧
      forall type, c'.of type = c.of type + call.counts.count type := by
  rcases call with ⟨path, stat, type⟩
  cases type with
  | FTW_F =>
      rcases h rfl with ⟨st, hstat, hfile⟩
      cases hstat
      exact countFile_ok c path hfile
  | FTW_D =>
      refine ⟨_, rfl, ?_⟩
      intro type
      cases type <;> rfl
  | FTW_DNR =>
      refine ⟨_, rfl, ?_⟩
      intro type
      cases type <;> rfl
  | FTW_NS =>
      refine ⟨_, rfl, ?_⟩
      intro type
      cases type <;> rfl

theorem counted_ok {calls : List Call} (c : Counters)
    (h : forall call, call ∈ calls -> call.Regular) :
    exists c', counted c calls = Except.ok c' ∧
      forall type, c'.of type = c.of type + (calls.flatMap Call.counts).count type := by
  induction calls generalizing c with
  | nil =>
      refine ⟨c, rfl, ?_⟩
      intro type
      simp
  | cons call rest ih =>
      rcases myfunc_ok c (h call List.mem_cons_self) with ⟨c₁, hcall, hfirst⟩
      rcases ih c₁ (fun x hx => h x (List.mem_cons_of_mem call hx)) with
        ⟨c₂, hrest, hsecond⟩
      refine ⟨c₂, ?_, ?_⟩
      · rw [counted, hcall]
        exact hrest
      · intro type
        rw [hsecond, hfirst, List.flatMap_cons, List.count_append, Nat.add_assoc]

/-!
# The calls of a tree
-/

theorem trace_regular {k : FileSystem} {p : CString} {t : Node}
    (h : Describes k p t) {call : Call} (hcall : call ∈ trace p t) :
    call.Regular := by
  induction t generalizing p with
  | noStat =>
      rw [List.mem_singleton.mp hcall]
      intro htype
      cases htype
  | file st =>
      rw [List.mem_singleton.mp hcall]
      intro _
      exact ⟨st, rfl, h.2⟩
  | unreadable st =>
      intro htype
      rcases List.mem_cons.mp hcall with heq | hmem
      · rw [heq] at htype
        cases htype
      · rw [List.mem_singleton.mp hmem] at htype
        cases htype
  | dir st listing sub ih =>
      rcases List.mem_cons.mp hcall with heq | hmem
      · intro htype
        rw [heq] at htype
        cases htype
      · rcases List.mem_flatMap.mp hmem with ⟨name, hname, hbelow⟩
        exact ih name (h.2.2.2 name hname) hbelow

theorem trace_counts {k : FileSystem} {p : CString} {t : Node}
    (h : Describes k p t) : (trace p t).flatMap Call.counts = types t := by
  induction t generalizing p with
  | noStat => rfl
  | file st => rfl
  | unreadable st =>
      have hmode := isDir_iff.mp h.2.1
      change [FileType.S_IFDIR] = [st.st_mode]
      rw [hmode]
  | dir st listing sub ih =>
      have hmode := isDir_iff.mp h.2.1
      have hbelow :
          (entries listing).flatMap
              (fun name => (trace (child p name) (sub name)).flatMap Call.counts) =
            (entries listing).flatMap (fun name => types (sub name)) := by
        apply List.flatMap_congr
        intro name hname
        exact ih name (h.2.2.2 name hname)
      rw [trace, types, List.flatMap_cons, List.flatMap_assoc, hbelow, hmode]
      rfl

theorem cut_counting {k : FileSystem} {p : CString} {t : Node}
    (h : Describes k p t) : cut counting [] (trace p t) = (trace p t, 0) := by
  have hregular : forall call, call ∈ trace p t -> call.Regular :=
    fun call hcall => trace_regular h hcall
  refine cut_of_good ?_ hregular
  intro past call hpast
  rcases counted_ok Counters.zero hpast with ⟨c, hc, _⟩
  rw [counting, hc]

/-!
# The total
-/

theorem total_of (c : Counters) (type : FileType) :
    (total c).of type = c.of type := by
  cases type <;> rfl

theorem length_eq_counts (types : List FileType) :
    types.length =
      types.count FileType.S_IFREG + types.count FileType.S_IFLNK +
        types.count FileType.S_IFSOCK + types.count FileType.S_IFDIR +
        types.count FileType.S_IFIFO + types.count FileType.S_IFCHR +
        types.count FileType.S_IFBLK := by
  induction types with
  | nil => rfl
  | cons type rest ih =>
      rw [List.length_cons, ih]
      cases type <;> simp <;> lia

theorem sum_eq_length {c : Counters} {types : List FileType}
    (h : forall type, c.of type = types.count type) : c.sum = types.length := by
  rw [length_eq_counts, ← h, ← h, ← h, ← h, ← h, ← h, ← h]
  rfl

end Ftw
end Apue
