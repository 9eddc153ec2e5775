import Apue.ThreadControl.Environ

/-!
# getenv_r_l

The thread-safe `getenv_r_l` searches the environment as `getenv_l` does, but it
does not leave its loop at an entry of the name, and what it returns is set after
the loop.
-/

namespace Apue
namespace Thrsafe

open Foundation
open Environ

def ENOENT : Int := 2

def ENOSPC : Int := 28

/-- A store outside of the buffer, with its index; a read outside of an entry; an
index that is no `int` any more. -/
inductive Fault where
  | store (i : Nat)
  | read
  | overflow
  deriving Repr, DecidableEq

/-- The loop of `getenv_l` from the entry `i` on: the value where it stops, nothing
at the end of the list. -/
def searchLoop (name : CString) :
    Nat -> List CString -> Except Fault (Option CString)
  | _, [] => Except.ok none
  | i, entry :: rest =>
      match test name entry with
      | none => Except.error Fault.read
      | some true => Except.ok (some (value name entry))
      | some false =>
          if i < INT_MAX.toNat then searchLoop name (i + 1) rest
          else Except.error Fault.overflow

/-- What `getenv_l` finds. -/
def found (environ : List CString) (name : CString) :
    Except Fault (Option CString) :=
  searchLoop name 0 environ

/-- `getenv_l`: the contents of `envbuf` when it is returned, nothing when `NULL`
is. -/
def getenv_l (name : CString) (envbuf : Buffer) (environ : List CString) :
    Except Fault (Option Buffer) :=
  match found environ name with
  | Except.error fault => Except.error fault
  | Except.ok none => Except.ok none
  | Except.ok (some v) =>
      match strcpy envbuf 0 v.bytes with
      | Except.error i => Except.error (Fault.store i)
      | Except.ok b => Except.ok (some b)

/-- What the loop of `getenv_r_l` changes: `ret`, unset at first, and the
caller's buffer. -/
structure Locals where
  ret : Option Int
  buf : Buffer
  deriving Repr, DecidableEq

/-- The body of the loop of `getenv_r_l`. -/
def body (name : CString) (buflen : Nat) (entry : CString) (l : Locals) :
    Except Fault Locals :=
  match test name entry with
  | none => Except.error Fault.read
  | some false => Except.ok l
  | some true =>
      let l := if buflen ≤ (value name entry).length then
          { l with ret := some ENOSPC }
        else l
      match strcpy l.buf 0 (value name entry).bytes with
      | Except.error i => Except.error (Fault.store i)
      | Except.ok b => Except.ok { l with buf := b, ret := some 0 }

def bodyLoop (name : CString) (buflen : Nat) :
    Nat -> List CString -> Locals -> Except Fault Locals
  | _, [], l => Except.ok l
  | i, entry :: rest, l =>
      match body name buflen entry l with
      | Except.error fault => Except.error fault
      | Except.ok l =>
          if i < INT_MAX.toNat then bodyLoop name buflen (i + 1) rest l
          else Except.error Fault.overflow

inductive MutexOp where
  | lock
  | unlock
  deriving Repr, DecidableEq

/-- What is returned, the caller's buffer and what was done to `envmutex`. -/
structure Return where
  ret : Int
  buf : Buffer
  envmutex : List MutexOp
  deriving Repr, DecidableEq

def getenv_r_l (environ : List CString) (name : CString) (buf : Buffer)
    (buflen : Nat) : Except Fault Return :=
  match bodyLoop name buflen 0 environ { ret := none, buf } with
  | Except.error fault => Except.error fault
  | Except.ok l =>
      let l := { l with ret := some ENOENT }
      Except.ok
        { ret := l.ret.getD ENOENT
          buf := l.buf
          envmutex := [MutexOp.lock, MutexOp.unlock] }

/-!
# Where nothing is found

The index counts every entry then, so that the list must not be longer than an `int`
can say.
-/

theorem searchLoop_none_iff {name : CString} (i : Nat) (environ : List CString)
    (hi : (i : Int) ≤ INT_MAX) :
    searchLoop name i environ = Except.ok none ↔
      ((i + environ.length : Nat) : Int) ≤ INT_MAX ∧
        forall e, e ∈ environ -> test name e = some false := by
  induction environ generalizing i with
  | nil => exact iff_of_true rfl ⟨hi, fun e he => nomatch he⟩
  | cons entry rest ih =>
      rw [searchLoop]
      cases htest : test name entry with
      | none =>
          refine iff_of_false (fun h => nomatch h) (fun h => ?_)
          rw [h.2 entry List.mem_cons_self] at htest
          cases htest
      | some b =>
          cases b with
          | true =>
              refine iff_of_false (fun h => nomatch h) (fun h => ?_)
              rw [h.2 entry List.mem_cons_self] at htest
              cases htest
          | false =>
              rw [List.forall_mem_cons, List.length_cons]
              dsimp only
              split
              · next hlt =>
                  rw [ih (i + 1) (by omega), and_iff_right htest]
                  have hlen : i + 1 + rest.length = i + (rest.length + 1) := by omega
                  rw [hlen]
              · next hge =>
                  refine iff_of_false (fun h => nomatch h) (fun h => ?_)
                  omega

/-- The list is as long as an `int` can say, and no entry is taken for one of the
name. -/
def NothingThere (environ : List CString) (name : CString) : Prop :=
  (environ.length : Int) ≤ INT_MAX ∧
    forall e, e ∈ environ -> test name e = some false

theorem INT_MAX_nonneg : ((0 : Nat) : Int) ≤ INT_MAX := by
  decide

theorem found_eq_none {environ : List CString} {name : CString} :
    found environ name = Except.ok none ↔ NothingThere environ name := by
  unfold found NothingThere
  rw [searchLoop_none_iff 0 environ INT_MAX_nonneg, Nat.zero_add]

theorem getenv_l_none {environ : List CString} {name : CString}
    (envbuf : Buffer) (h : found environ name = Except.ok none) :
    getenv_l name envbuf environ = Except.ok none := by
  unfold getenv_l
  rw [h]

theorem getenv_l_some {environ : List CString} {name v : CString}
    {envbuf : Buffer} (h : found environ name = Except.ok (some v))
    (hfits : v.length < envbuf.length) :
    exists b, getenv_l name envbuf environ = Except.ok (some b) ∧ Spells b v := by
  rcases strcpy_start v hfits with ⟨b, hcopy, _, hspells⟩
  refine ⟨b, ?_, hspells⟩
  unfold getenv_l
  rw [h]
  dsimp only
  rw [hcopy]

/-!
# What getenv_r_l does
-/

/-- What `getenv_r_l` should do, given what `getenv_l` finds. -/
def Agrees (environ : List CString) (name : CString) (buf : Buffer)
    (buflen : Nat) : Prop :=
  exists r, getenv_r_l environ name buf buflen = Except.ok r ∧
    match found environ name with
    | Except.error _ => False
    | Except.ok none => r.ret = ENOENT ∧ r.buf = buf
    | Except.ok (some v) =>
        if v.length < buflen then r.ret = 0 ∧ Spells r.buf v
        else r.ret = ENOSPC ∧ r.buf = buf

theorem bodyLoop_none {environ : List CString} {name : CString} {buflen i : Nat}
    {l : Locals} (hlen : ((i + environ.length : Nat) : Int) ≤ INT_MAX)
    (h : forall e, e ∈ environ -> test name e = some false) :
    bodyLoop name buflen i environ l = Except.ok l := by
  induction environ generalizing i with
  | nil => rfl
  | cons entry rest ih =>
      rw [List.length_cons] at hlen
      have hlt : i < INT_MAX.toNat := by omega
      rw [bodyLoop, body, h entry List.mem_cons_self]
      dsimp only
      rw [if_pos hlt]
      apply ih
      · omega
      · exact fun e he => h e (List.mem_cons_of_mem entry he)

theorem ret_eq_ENOENT {environ : List CString} {name : CString} {buf : Buffer}
    {buflen : Nat} {r : Return}
    (h : getenv_r_l environ name buf buflen = Except.ok r) : r.ret = ENOENT := by
  unfold getenv_r_l at h
  split at h
  · cases h
  · cases h
    rfl

/-- The two functions agree only where there is nothing to find. -/
theorem agrees_iff (environ : List CString) (name : CString) (buf : Buffer)
    (buflen : Nat) :
    Agrees environ name buf buflen ↔ NothingThere environ name := by
  constructor
  · rintro ⟨r, hr, hspec⟩
    have hret := ret_eq_ENOENT hr
    rw [← found_eq_none]
    cases hfound : found environ name with
    | error fault =>
        rw [hfound] at hspec
        exact hspec.elim
    | ok v =>
        cases v with
        | none => rfl
        | some v =>
            rw [hfound] at hspec
            dsimp only at hspec
            split at hspec
            · rw [hspec.left] at hret
              cases hret
            · rw [hspec.left] at hret
              cases hret
  · intro h
    have hfound := found_eq_none.mpr h
    unfold Agrees getenv_r_l
    rw [hfound, bodyLoop_none (by rw [Nat.zero_add]; exact h.1) h.2]
    exact ⟨_, rfl, rfl, rfl⟩

/-- `U=x` is found and fits, the buffer is changed, and `ENOENT` is returned. -/
theorem found_not_reported :
    let name := CString.ofBytes [85] rfl
    let environ := [CString.ofBytes [85, 61, 120] rfl]
    found environ name = Except.ok (some (CString.ofBytes [120] rfl)) ∧
      getenv_r_l environ name [0, 0, 0, 0] 4 =
        Except.ok
          { ret := ENOENT
            buf := [120, 0, 0, 0]
            envmutex := [MutexOp.lock, MutexOp.unlock] } ∧
      ¬ Agrees environ name [0, 0, 0, 0] 4 := by
  refine ⟨rfl, rfl, ?_⟩
  rintro ⟨r, hr, hret, -⟩
  rw [ret_eq_ENOENT hr] at hret
  cases hret

/-!
# The buffer of the caller
-/

/-- What a caller relies on whose buffer has `buflen` bytes: nothing is stored
outside of them, and `envmutex` is released once. -/
def Confined (environ : List CString) (name : CString) (buf : Buffer) : Prop :=
  exists r, getenv_r_l environ name buf buf.length = Except.ok r ∧
    r.buf.length = buf.length ∧ r.envmutex.count MutexOp.unlock = 1

/-- The entry is not taken for one of the name, or its value has room in the
buffer. -/
def Fits (name : CString) (room : Nat) (e : CString) : Prop :=
  test name e = some false ∨
    (test name e = some true ∧ (value name e).length < room)

/-- The test of the length decides nothing: what it sets is overwritten behind the
copy. -/
theorem body_taken {name entry : CString} {buflen : Nat} {l : Locals}
    (h : test name entry = some true) :
    body name buflen entry l =
      match strcpy l.buf 0 (value name entry).bytes with
      | Except.error i => Except.error (Fault.store i)
      | Except.ok b => Except.ok { ret := some 0, buf := b } := by
  unfold body
  rw [h]
  by_cases hbig : buflen ≤ (value name entry).length
  · simp only [if_pos hbig]
  · simp only [if_neg hbig]

theorem body_ok_iff {name entry : CString} {buflen : Nat} {l : Locals} :
    (exists l', body name buflen entry l = Except.ok l') ↔
      Fits name l.buf.length entry := by
  unfold Fits
  cases htest : test name entry with
  | none => simp [body, htest]
  | some b =>
      cases b with
      | false => simp [body, htest]
      | true =>
          rw [body_taken htest]
          rcases Nat.lt_or_ge (value name entry).length l.buf.length with hfit | hbig
          · rcases strcpy_start (value name entry) hfit with ⟨b, hcopy, _, _⟩
            rw [hcopy]
            exact iff_of_true ⟨_, rfl⟩ (Or.inr ⟨rfl, hfit⟩)
          · have hover : l.buf.length ≤ 0 + (value name entry).length := by
              rw [Nat.zero_add]
              exact hbig
            rcases strcpy_error hover with ⟨i, hcopy, _⟩
            rw [hcopy]
            refine iff_of_false (fun ⟨l', h⟩ => nomatch h) ?_
            rintro (h | ⟨_, hlt⟩)
            · cases h
            · omega

theorem body_length {name entry : CString} {buflen : Nat} {l l' : Locals}
    (h : body name buflen entry l = Except.ok l') :
    l'.buf.length = l.buf.length := by
  cases htest : test name entry with
  | none =>
      simp only [body, htest] at h
      cases h
  | some b =>
      cases b with
      | false =>
          simp only [body, htest] at h
          cases h
          rfl
      | true =>
          rw [body_taken htest] at h
          split at h
          · cases h
          · next b hcopy =>
              cases h
              exact strcpy_length hcopy

theorem bodyLoop_ok_iff {name : CString} {buflen i : Nat} {environ : List CString}
    {l : Locals} (hi : (i : Int) ≤ INT_MAX) :
    (exists l', bodyLoop name buflen i environ l = Except.ok l' ∧
        l'.buf.length = l.buf.length) ↔
      ((i + environ.length : Nat) : Int) ≤ INT_MAX ∧
        forall e, e ∈ environ -> Fits name l.buf.length e := by
  induction environ generalizing i l with
  | nil => exact iff_of_true ⟨l, rfl, rfl⟩ ⟨hi, fun e he => nomatch he⟩
  | cons entry rest ih =>
      have hbody := @body_ok_iff name entry buflen l
      rw [bodyLoop, List.forall_mem_cons, List.length_cons, ← hbody]
      cases hnext : body name buflen entry l with
      | error fault =>
          refine iff_of_false (fun ⟨l', h, _⟩ => nomatch h) ?_
          rintro ⟨_, ⟨l', h⟩, _⟩
          cases h
      | ok l₁ =>
          have hlen := body_length hnext
          have hfirst : exists l', (Except.ok l₁ : Except Fault Locals) = Except.ok l' :=
            ⟨l₁, rfl⟩
          dsimp only
          rw [and_iff_right hfirst]
          split
          · next hlt =>
              have hrest := @ih (i + 1) l₁ (by omega)
              have hsum : i + 1 + rest.length = i + (rest.length + 1) := by omega
              rw [hlen, hsum] at hrest
              exact hrest
          · next hge =>
              refine iff_of_false (fun ⟨l', h, _⟩ => nomatch h) (fun h => ?_)
              omega

/-- The buffer is respected exactly when it has room for every value that is taken
for one of the name, and the list is as long as an `int` can say. -/
theorem confined_iff (environ : List CString) (name : CString) (buf : Buffer) :
    Confined environ name buf ↔
      (environ.length : Int) ≤ INT_MAX ∧
        forall e, e ∈ environ -> Fits name buf.length e := by
  have hloop := @bodyLoop_ok_iff name buf.length 0 environ { ret := none, buf }
    INT_MAX_nonneg
  rw [Nat.zero_add] at hloop
  rw [← hloop]
  unfold Confined getenv_r_l
  constructor
  · rintro ⟨r, hr, hlen, _⟩
    split at hr
    · cases hr
    · next l hl =>
        cases hr
        exact ⟨l, hl, hlen⟩
  · rintro ⟨l, hl, hlen⟩
    rw [hl]
    exact ⟨_, rfl, hlen, rfl⟩

/-- `U=xyz` is copied into a buffer of two bytes, although the test has found that
it does not fit. -/
theorem value_overflows :
    let name := CString.ofBytes [85] rfl
    let entry := CString.ofBytes [85, 61, 120, 121, 122] rfl
    2 ≤ (value name entry).length ∧
      getenv_r_l [entry] name [0, 0] 2 = Except.error (Fault.store 2) ∧
      ¬ Confined [entry] name [0, 0] := by
  refine ⟨Nat.le_succ 2, rfl, ?_⟩
  rintro ⟨r, hr, -⟩
  cases hr

end Thrsafe
end Apue
