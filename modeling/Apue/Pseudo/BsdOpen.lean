import Apue.Foundation.CString
import Apue.Kernel.Descriptors

/-!
# Looking for a BSD pseudo terminal

The masters are called `/dev/ptyMN`.  `posix_openpt_l` tries one name after the
other until it can open one, and gives up at the first name that does not exist.
-/

namespace Apue
namespace BsdOpen

open Foundation Kernel

/-- What stands under a name: a free master, one that is in use, for which `open`
fails with `EIO`, or nothing, for which it fails with `ENOENT`. -/
inductive Status where
  | free
  | busy
  | absent
  deriving Repr, DecidableEq

def EAGAIN : Nat := 11
def ENOENT : Nat := 2

/-- "/dev/ptyXY" -/
def ptm_name : List Byte :=
  [47, 100, 101, 118, 47, 112, 116, 121, 88, 89]

def masterName (c1 c2 : Byte) : List Byte :=
  (ptm_name.set 8 c1).set 9 c2

/-- "pqrstuvwxyz" -/
def pToZ : List Byte :=
  [112, 113, 114, 115, 116, 117, 118, 119, 120, 121, 122]

/-- "PQRST" -/
def capitals : List Byte :=
  [80, 81, 82, 83, 84]

/-- "abcde" -/
def aToE : List Byte :=
  [97, 98, 99, 100, 101]

/-- "0123456789abcdef" -/
def digits : List Byte :=
  [48, 49, 50, 51, 52, 53, 54, 55, 56, 57, 97, 98, 99, 100, 101, 102]

inductive Found where
  | opened (name : List Byte)
  | failed (errno : Nat)
  deriving Repr, DecidableEq

/-- The inner loop over the rest of the digits; nothing when it comes to its
end. -/
def tryDigits (dev : List Byte -> Status) (c1 : Byte) :
    List Byte -> Option Found
  | [] => none
  | c2 :: ptr2 =>
      match dev (masterName c1 c2) with
      | Status.free => some (Found.opened (masterName c1 c2))
      | Status.absent => some (Found.failed ENOENT)
      | Status.busy => tryDigits dev c1 ptr2

def tryLetters (dev : List Byte -> Status) : List Byte -> Found
  | [] => Found.failed EAGAIN
  | c1 :: ptr1 =>
      match tryDigits dev c1 digits with
      | some found => found
      | none => tryLetters dev ptr1

/-- The returned value, `errno`, and the descriptors of the process, each with
the name of what it was opened for. -/
structure Result where
  ret : Int
  errno : Nat
  fds : FdTable (List Byte)
  deriving Repr, DecidableEq

def posix_openpt_l (dev : List Byte -> Status) (fds : FdTable (List Byte)) :
    Result :=
  match tryLetters dev (pToZ ++ capitals) with
  | Found.failed errno => { ret := -1, errno, fds }
  | Found.opened name =>
      let (fd, fds) := fds.install name
      { ret := fd, errno := 0, fds }

/-!
# The masters
-/

def names (letters : List Byte) : List (List Byte) :=
  letters.flatMap (fun c1 => digits.map (masterName c1))

def masters : List (List Byte) :=
  names pToZ ++ names aToE

/-- What stands under every name; behind a master that does not exist there is
no other. -/
structure Devices where
  dev : List Byte -> Status
  last : masters.Pairwise (fun a b => dev a = Status.absent -> dev b = Status.absent)

def Devices.isFree (d : Devices) (name : List Byte) : Bool :=
  d.dev name = Status.free

/-- The search gives the first free master, and fails only when no master is
free. -/
def Finds (d : Devices) (r : Result) : Prop :=
  (forall name, masters.find? d.isFree = some name ->
    exists fd : Fd, r.ret = fd ∧ r.fds.get fd = some name) ∧
  (r.ret = -1 -> forall name, name ∈ masters -> d.isFree name = false)

/-!
# The search is one pass over the names
-/

def search (dev : List Byte -> Status) : List (List Byte) -> Found
  | [] => Found.failed EAGAIN
  | name :: rest =>
      match dev name with
      | Status.free => Found.opened name
      | Status.absent => Found.failed ENOENT
      | Status.busy => search dev rest

theorem search_append_digits (dev : List Byte -> Status) (c1 : Byte)
    (ptr2 : List Byte) (rest : List (List Byte)) :
    search dev (ptr2.map (masterName c1) ++ rest) =
      match tryDigits dev c1 ptr2 with
      | some found => found
      | none => search dev rest := by
  induction ptr2 with
  | nil => rfl
  | cons c2 ptr2 ih =>
      rw [List.map_cons, List.cons_append, search, tryDigits]
      cases dev (masterName c1 c2) with
      | free => rfl
      | absent => rfl
      | busy => exact ih

theorem tryLetters_eq (dev : List Byte -> Status) (letters : List Byte) :
    tryLetters dev letters = search dev (names letters) := by
  induction letters with
  | nil => rfl
  | cons c1 letters ih =>
      unfold names at ih ⊢
      rw [List.flatMap_cons, search_append_digits]
      unfold tryLetters
      rw [ih]

theorem search_append_busy {dev : List Byte -> Status}
    {front : List (List Byte)}
    (h : forall name, name ∈ front -> dev name = Status.busy)
    (rest : List (List Byte)) : search dev (front ++ rest) = search dev rest := by
  induction front with
  | nil => rfl
  | cons name front ih =>
      rw [List.cons_append, search, h name List.mem_cons_self]
      exact ih (fun other hother => h other (List.mem_cons_of_mem name hother))

theorem search_opened_mem {dev : List Byte -> Status} {xs : List (List Byte)}
    {name : List Byte} (h : search dev xs = Found.opened name) : name ∈ xs := by
  induction xs with
  | nil => cases h
  | cons x xs ih =>
      unfold search at h
      cases hx : dev x with
      | free =>
          rw [hx] at h
          cases h
          exact List.mem_cons_self
      | absent =>
          rw [hx] at h
          cases h
      | busy =>
          rw [hx] at h
          exact List.mem_cons_of_mem x (ih h)

theorem search_of_free {dev : List Byte -> Status} {xs rest : List (List Byte)}
    {name : List Byte}
    (hlast : xs.Pairwise (fun a b => dev a = Status.absent -> dev b = Status.absent))
    (h : xs.find? (fun x => dev x = Status.free) = some name) :
    search dev (xs ++ rest) = Found.opened name := by
  induction xs with
  | nil => cases h
  | cons x xs ih =>
      rcases List.pairwise_cons.mp hlast with ⟨hx, hxs⟩
      rw [List.cons_append]
      unfold search
      cases hdev : dev x with
      | free =>
          rw [List.find?_cons_of_pos (by simp [hdev])] at h
          cases h
          rfl
      | absent =>
          rw [List.find?_cons_of_neg (by simp [hdev])] at h
          have habsent := hx name (List.mem_of_find?_eq_some h) hdev
          have hfree := List.find?_some h
          change decide (dev name = Status.free) = true at hfree
          rw [habsent] at hfree
          cases hfree
      | busy =>
          rw [List.find?_cons_of_neg (by simp [hdev])] at h
          exact ih hxs h

/-!
# Which masters are found
-/

theorem masterName_letter (c1 c2 : Byte) : (masterName c1 c2)[8]? = some c1 := rfl

theorem letter_of_mem_names {letters : List Byte} {name : List Byte}
    (h : name ∈ names letters) : exists c1, c1 ∈ letters ∧ name[8]? = some c1 := by
  rcases List.mem_flatMap.mp h with ⟨c1, hc1, hname⟩
  rcases List.mem_map.mp hname with ⟨c2, _, heq⟩
  rw [← heq]
  exact ⟨c1, hc1, masterName_letter c1 c2⟩

/-- The names that the program tries behind `/dev/ptyzf` are not those of the
masters there. -/
theorem not_mem_aToE_of_mem_capitals {name : List Byte}
    (h : name ∈ names capitals) : name ∉ names aToE := by
  intro h'
  rcases letter_of_mem_names h with ⟨c, hc, hname⟩
  rcases letter_of_mem_names h' with ⟨c', hc', hname'⟩
  rw [hname] at hname'
  cases hname'
  have hall : capitals.all (fun c => !aToE.contains c) = true := rfl
  have hnot := List.all_eq_true.mp hall c hc
  rw [List.contains_iff_mem.mpr hc'] at hnot
  cases hnot

theorem names_append (xs ys : List Byte) : names (xs ++ ys) = names xs ++ names ys :=
  List.flatMap_append

theorem posix_openpt_l_eq (dev : List Byte -> Status) (fds : FdTable (List Byte)) :
    posix_openpt_l dev fds =
      match search dev (names pToZ ++ names capitals) with
      | Found.failed errno => { ret := -1, errno, fds }
      | Found.opened name =>
          { ret := fds.lowestFree, errno := 0,
            fds := fds.set fds.lowestFree (some name) } := by
  unfold posix_openpt_l
  rw [tryLetters_eq, names_append]
  rfl

theorem finds_of_pToZ {d : Devices} (fds : FdTable (List Byte)) {name : List Byte}
    (h : (names pToZ).find? d.isFree = some name) :
    Finds d (posix_openpt_l d.dev fds) := by
  have hlast := (List.pairwise_append.mp d.last).1
  rw [posix_openpt_l_eq, search_of_free hlast h]
  constructor
  · intro first hfirst
    unfold masters at hfirst
    rw [List.find?_append, h] at hfirst
    cases hfirst
    exact ⟨fds.lowestFree, rfl, FdTable.get_set_self _ _ _⟩
  · intro hret
    have hpos : (0 : Int) ≤ fds.lowestFree := Int.natCast_nonneg _
    change (fds.lowestFree : Int) = -1 at hret
    lia

theorem finds_of_none {d : Devices} (fds : FdTable (List Byte))
    (h : forall name, name ∈ masters -> d.isFree name = false) :
    Finds d (posix_openpt_l d.dev fds) := by
  constructor
  · intro name hname
    have hfree := List.find?_some hname
    rw [h name (List.mem_of_find?_eq_some hname)] at hfree
    cases hfree
  · intro _
    exact h

theorem not_finds {d : Devices} (fds : FdTable (List Byte)) {name : List Byte}
    (hnone : (names pToZ).find? d.isFree = none)
    (hname : name ∈ names aToE) (hfree : d.isFree name = true) :
    ¬ Finds d (posix_openpt_l d.dev fds) := by
  -- a name that was absent before would make this one absent too
  have hbusy : forall x, x ∈ names pToZ -> d.dev x = Status.busy := by
    intro x hx
    have hx' := List.find?_eq_none.mp hnone x hx
    cases hdev : d.dev x with
    | free =>
        unfold Devices.isFree at hx'
        rw [hdev] at hx'
        exact absurd rfl hx'
    | absent =>
        have habsent := (List.pairwise_append.mp d.last).2.2 x hx name hname hdev
        unfold Devices.isFree at hfree
        rw [habsent] at hfree
        cases hfree
    | busy => rfl
  rw [posix_openpt_l_eq, search_append_busy hbusy]
  intro h
  have hsome : ((names aToE).find? d.isFree).isSome = true :=
    List.find?_isSome.mpr ⟨name, hname, hfree⟩
  rcases Option.isSome_iff_exists.mp hsome with ⟨first, hfirst⟩
  have hall : masters.find? d.isFree = some first := by
    unfold masters
    rw [List.find?_append, hnone, hfirst]
    rfl
  rcases h.1 first hall with ⟨fd, hret, hget⟩
  cases hsearch : search d.dev (names capitals) with
  | failed errno =>
      rw [hsearch] at hret
      change (-1 : Int) = fd at hret
      lia
  | opened other =>
      rw [hsearch] at hret hget
      change (fds.lowestFree : Int) = fd at hret
      rw [← Int.ofNat.inj hret] at hget
      change (fds.set fds.lowestFree (some other)).get fds.lowestFree = some first at hget
      rw [FdTable.get_set_self] at hget
      cases hget
      exact not_mem_aToE_of_mem_capitals (search_opened_mem hsearch)
        (List.mem_of_find?_eq_some hfirst)

/-- The first free master is found when one from p to z is free or none from a to
e is free, and only then. -/
theorem finds_iff (d : Devices) (fds : FdTable (List Byte)) :
    Finds d (posix_openpt_l d.dev fds) ↔
      (exists name, name ∈ names pToZ ∧ d.isFree name = true) ∨
        ¬ exists name, name ∈ names aToE ∧ d.isFree name = true := by
  cases hfind : (names pToZ).find? d.isFree with
  | some name =>
      exact iff_of_true (finds_of_pToZ fds hfind)
        (Or.inl ⟨name, List.mem_of_find?_eq_some hfind, List.find?_some hfind⟩)
  | none =>
      have hnone : forall name, name ∈ names pToZ -> d.isFree name = false := by
        intro name hname
        simpa using List.find?_eq_none.mp hfind name hname
      constructor
      · intro h
        right
        intro hfree
        rcases hfree with ⟨name, hname, hfree⟩
        exact not_finds fds hfind hname hfree h
      · intro h
        rcases h with ⟨name, hname, hfree⟩ | h
        · rw [hnone name hname] at hfree
          cases hfree
        · apply finds_of_none
          intro name hname
          rcases List.mem_append.mp hname with hname | hname
          · exact hnone name hname
          · cases hfree : d.isFree name with
            | false => rfl
            | true => exact absurd ⟨name, hname, hfree⟩ h

def pToZInUse (name : List Byte) : Status :=
  match name[8]? with
  | none => Status.absent
  | some c =>
      if c ∈ pToZ then
        Status.busy
      else if c ∈ aToE then
        Status.free
      else
        Status.absent

theorem pToZInUse_exists {name : List Byte} (h : name ∈ masters) :
    pToZInUse name ≠ Status.absent := by
  unfold masters at h
  rw [← names_append] at h
  rcases letter_of_mem_names h with ⟨c, hc, hname⟩
  unfold pToZInUse
  rw [hname]
  dsimp only
  rcases List.mem_append.mp hc with hc | hc
  · rw [if_pos hc]
    exact Status.noConfusion
  · by_cases hcp : c ∈ pToZ
    · rw [if_pos hcp]
      exact Status.noConfusion
    · rw [if_neg hcp, if_pos hc]
      exact Status.noConfusion

def inUse : Devices where
  dev := pToZInUse
  last := List.pairwise_of_forall_mem_list
    (fun _ ha _ _ habsent => absurd habsent (pToZInUse_exists ha))

theorem free_master_missed :
    masters.find? inUse.isFree = some (masterName 97 48) ∧
      (posix_openpt_l inUse.dev { slots := [] }).ret = -1 := by
  decide

end BsdOpen
end Apue
