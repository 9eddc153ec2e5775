import Apue.AdvancedIo.Filelock

/-!
# The record locks on a file

The locks on a file are a list.  A process that sets or gives up a lock first
loses what it holds in the region; of a lock that reaches beyond the region the
parts outside stay.  What the list says about a single byte is all that matters.
-/

namespace Apue
namespace Filelock

abbrev Pid := { n : Nat // 0 < n }

def lockOf (p : Pid) (type : LockType) (r : Region) : Lock where
  pid := p.1
  pid_pos := p.2
  type := type
  region := r

def Region.Covers (r : Region) (b : Int) : Prop :=
  r.start ≤ b ∧ b ≤ r.last

instance (r : Region) (b : Int) : Decidable (r.Covers b) :=
  inferInstanceAs (Decidable (_ ∧ _))

def Lock.front (l : Lock) (r : Region) : List Lock :=
  if l.region.start < r.start then
    [{ l with
      region := { start := l.region.start, last := min l.region.last (r.start - 1) } }]
  else
    []

def Lock.back (l : Lock) (r : Region) : List Lock :=
  if r.last < l.region.last then
    [{ l with
      region := { start := max l.region.start (r.last + 1), last := l.region.last } }]
  else
    []

/-- `F_UNLCK` -/
def unlock (locks : List Lock) (pid : Nat) (r : Region) : List Lock :=
  locks.flatMap (fun l => if l.pid = pid then l.front r ++ l.back r else [l])

/-- `F_RDLCK` or `F_WRLCK`; a new lock takes the place of the old ones of the same
process. -/
def addLock (locks : List Lock) (l : Lock) : List Lock :=
  l :: unlock locks l.pid l.region

def release (locks : List Lock) (pid : Nat) : List Lock :=
  locks.filter (fun l => l.pid ≠ pid)

def Free (locks : List Lock) (pid : Nat) (type : LockType) (r : Region) : Prop :=
  locks.find? (fun l => l.conflicts pid type r) = none

instance (locks : List Lock) (pid : Nat) (type : LockType) (r : Region) :
    Decidable (Free locks pid type r) :=
  inferInstanceAs (Decidable (_ = none))

/-- `lock_reg` with `F_SETLK`: what `fcntl` answers, and the locks after it. -/
def setLock (locks : List Lock) (p : Pid) (f : OpenFile) (type : Option LockType)
    (offset whence len : Int) : Int × List Lock :=
  match type, regionOf f offset whence len with
  | _, none => (-1, locks)
  | none, some r => (0, unlock locks p.1 r)
  | some type, some r =>
      if f.allows type ∧ Free locks p.1 type r then
        (0, addLock locks (lockOf p type r))
      else
        (-1, locks)

/-!
# One byte
-/

def Holds (locks : List Lock) (pid : Nat) (b : Int) (type : LockType) : Prop :=
  exists l, l ∈ locks ∧ l.pid = pid ∧ l.region.Covers b ∧ l.type = type

/-- A byte that one process may write is locked by no other process. -/
def Exclusive (locks : List Lock) : Prop :=
  forall p q b t u, Holds locks p b t -> Holds locks q b u -> p ≠ q ->
    t = LockType.F_RDLCK ∧ u = LockType.F_RDLCK

section

variable {locks : List Lock} {pid p q : Nat} {b : Int} {t type : LockType}
  {r : Region}

@[simp] theorem holds_nil : Holds [] p b t ↔ False := by
  simp [Holds]

theorem holds_cons {l : Lock} :
    Holds (l :: locks) p b t ↔
      (l.pid = p ∧ l.region.Covers b ∧ l.type = t) ∨ Holds locks p b t := by
  constructor
  · rintro ⟨m, hm, hrest⟩
    rcases List.mem_cons.mp hm with heq | hmem
    · rw [heq] at hrest
      exact Or.inl hrest
    · exact Or.inr ⟨m, hmem, hrest⟩
  · rintro (hl | ⟨m, hm, hrest⟩)
    · exact ⟨l, List.mem_cons_self, hl⟩
    · exact ⟨m, List.mem_cons_of_mem l hm, hrest⟩

theorem holds_append {locks' : List Lock} :
    Holds (locks ++ locks') p b t ↔ Holds locks p b t ∨ Holds locks' p b t := by
  induction locks with
  | nil => simp
  | cons l rest ih =>
      rw [List.cons_append, holds_cons, holds_cons, ih, or_assoc]

theorem holds_front {l : Lock} :
    Holds (l.front r) p b t ↔
      l.pid = p ∧ l.region.Covers b ∧ l.type = t ∧ b < r.start := by
  unfold Lock.front
  split
  · rw [holds_cons, holds_nil, or_false]
    unfold Region.Covers
    dsimp only
    constructor
    · rintro ⟨hpid, hcovers, htype⟩
      exact ⟨hpid, by lia, htype, by lia⟩
    · rintro ⟨hpid, hcovers, htype, hlt⟩
      exact ⟨hpid, by lia, htype⟩
  · rw [holds_nil, false_iff]
    rintro ⟨_, hcovers, _, hlt⟩
    unfold Region.Covers at hcovers
    lia

theorem holds_back {l : Lock} :
    Holds (l.back r) p b t ↔
      l.pid = p ∧ l.region.Covers b ∧ l.type = t ∧ r.last < b := by
  unfold Lock.back
  split
  · rw [holds_cons, holds_nil, or_false]
    unfold Region.Covers
    dsimp only
    constructor
    · rintro ⟨hpid, hcovers, htype⟩
      exact ⟨hpid, by lia, htype, by lia⟩
    · rintro ⟨hpid, hcovers, htype, hlt⟩
      exact ⟨hpid, by lia, htype⟩
  · rw [holds_nil, false_iff]
    rintro ⟨_, hcovers, _, hlt⟩
    unfold Region.Covers at hcovers
    lia

theorem holds_unlock :
    Holds (unlock locks pid r) p b t ↔
      Holds locks p b t ∧ ¬ (p = pid ∧ r.Covers b) := by
  induction locks with
  | nil => simp [unlock]
  | cons l rest ih =>
      have hcons : unlock (l :: rest) pid r =
          (if l.pid = pid then l.front r ++ l.back r else [l]) ++
            unlock rest pid r := rfl
      rw [hcons, holds_append, ih, holds_cons]
      by_cases hl : l.pid = pid
      · rw [if_pos hl, holds_append, holds_front, holds_back]
        unfold Region.Covers
        constructor
        · rintro ((⟨hpid, hcovers, htype, hlt⟩ | ⟨hpid, hcovers, htype, hlt⟩) | ⟨hrest, hout⟩)
          · exact ⟨Or.inl ⟨hpid, hcovers, htype⟩, fun hin => by lia⟩
          · exact ⟨Or.inl ⟨hpid, hcovers, htype⟩, fun hin => by lia⟩
          · exact ⟨Or.inr hrest, hout⟩
        · rintro ⟨⟨hpid, hcovers, htype⟩ | hrest, hout⟩
          · by_cases hfront : b < r.start
            · exact Or.inl (Or.inl ⟨hpid, hcovers, htype, hfront⟩)
            · by_cases hback : r.last < b
              · exact Or.inl (Or.inr ⟨hpid, hcovers, htype, hback⟩)
              · exact absurd ⟨hpid.symm.trans hl, Int.not_lt.mp hfront,
                  Int.not_lt.mp hback⟩ hout
          · exact Or.inr ⟨hrest, hout⟩
      · rw [if_neg hl, holds_cons, holds_nil, or_false]
        constructor
        · rintro (⟨hpid, hrest⟩ | ⟨hrest, hout⟩)
          · exact ⟨Or.inl ⟨hpid, hrest⟩, fun hin => hl (hpid.trans hin.1)⟩
          · exact ⟨Or.inr hrest, hout⟩
        · rintro ⟨hl' | hrest, hout⟩
          · exact Or.inl hl'
          · exact Or.inr ⟨hrest, hout⟩

theorem holds_addLock {l : Lock} :
    Holds (addLock locks l) p b t ↔
      (l.pid = p ∧ l.region.Covers b ∧ l.type = t) ∨
        (Holds locks p b t ∧ ¬ (p = l.pid ∧ l.region.Covers b)) := by
  unfold addLock
  rw [holds_cons, holds_unlock]

theorem mem_release {l : Lock} :
    l ∈ release locks pid ↔ l ∈ locks ∧ l.pid ≠ pid := by
  unfold release
  rw [List.mem_filter, decide_eq_true_iff]

theorem holds_release :
    Holds (release locks pid) p b t ↔ Holds locks p b t ∧ p ≠ pid := by
  constructor
  · rintro ⟨l, hl, hpid, hrest⟩
    rcases mem_release.mp hl with ⟨hmem, hne⟩
    rw [hpid] at hne
    exact ⟨⟨l, hmem, hpid, hrest⟩, hne⟩
  · rintro ⟨⟨l, hl, hpid, hrest⟩, hne⟩
    rw [← hpid] at hne
    exact ⟨l, mem_release.mpr ⟨hl, hne⟩, hpid, hrest⟩

theorem mem_unlock_other {l : Lock} (h : l ∈ unlock locks pid r) (hne : l.pid ≠ pid) :
    l ∈ locks := by
  rcases List.mem_flatMap.mp h with ⟨m, hm, hl⟩
  split at hl
  · next hpid =>
      have heq : l.pid = m.pid := by
        rcases List.mem_append.mp hl with hfront | hback
        · unfold Lock.front at hfront
          split at hfront
          · rw [List.mem_singleton.mp hfront]
          · cases hfront
        · unfold Lock.back at hback
          split at hback
          · rw [List.mem_singleton.mp hback]
          · cases hback
      exact absurd (heq.trans hpid) hne
  · rw [List.mem_singleton.mp hl]
    exact hm

theorem mem_addLock_other {l m : Lock} (h : l ∈ addLock locks m)
    (hne : l.pid ≠ m.pid) : l ∈ locks := by
  rcases List.mem_cons.mp h with heq | hrest
  · rw [heq] at hne
    exact absurd rfl hne
  · exact mem_unlock_other hrest hne

/-!
# Locks in the way
-/

theorem conflicts_iff {l : Lock} :
    l.conflicts pid type r = true ↔
      l.pid ≠ pid ∧ (l.region.start ≤ r.last ∧ r.start ≤ l.region.last) ∧
        (l.type = LockType.F_WRLCK ∨ type = LockType.F_WRLCK) := by
  unfold Lock.conflicts Region.overlaps
  simp only [Bool.and_eq_true, Bool.or_eq_true, decide_eq_true_eq, and_assoc]

theorem Free.of_holds (h : Free locks pid type r) (hne : p ≠ pid)
    (hb : r.Covers b) (hold : Holds locks p b t) :
    t = LockType.F_RDLCK ∧ type = LockType.F_RDLCK := by
  rcases hold with ⟨l, hl, hpid, hcovers, htype⟩
  have hnone := List.find?_eq_none.mp h l hl
  rw [conflicts_iff, hpid, htype] at hnone
  unfold Region.Covers at hb hcovers
  cases t with
  | F_RDLCK =>
      cases type with
      | F_RDLCK => exact ⟨rfl, rfl⟩
      | F_WRLCK => exact absurd ⟨hne, by lia, Or.inr rfl⟩ hnone
  | F_WRLCK => exact absurd ⟨hne, by lia, Or.inl rfl⟩ hnone

theorem exists_holds_of_not_free (hr : r.start ≤ r.last)
    (hproper : forall l, l ∈ locks -> l.region.start ≤ l.region.last)
    (h : ¬ Free locks pid type r) :
    exists p b t, p ≠ pid ∧ r.Covers b ∧ Holds locks p b t ∧
      (t = LockType.F_WRLCK ∨ type = LockType.F_WRLCK) := by
  rcases Option.ne_none_iff_exists'.mp h with ⟨l, hl⟩
  have hmem := List.mem_of_find?_eq_some hl
  have hconflicts := List.find?_some hl
  rcases conflicts_iff.mp hconflicts with ⟨hne, hoverlap, htype⟩
  have hle := hproper l hmem
  exact ⟨l.pid, max l.region.start r.start, l.type, hne,
    ⟨by lia, by lia⟩, ⟨l, hmem, rfl, ⟨by lia, by lia⟩, rfl⟩, htype⟩

def Proper (locks : List Lock) : Prop :=
  forall l, l ∈ locks -> l.region.start ≤ l.region.last

theorem Proper.unlock (h : Proper locks) : Proper (unlock locks pid r) := by
  intro l hl
  rcases List.mem_flatMap.mp hl with ⟨m, hm, hl⟩
  have hle := h m hm
  split at hl
  · rcases List.mem_append.mp hl with hfront | hback
    · unfold Lock.front at hfront
      split at hfront
      · rw [List.mem_singleton.mp hfront]
        show m.region.start ≤ min m.region.last (r.start - 1)
        lia
      · cases hfront
    · unfold Lock.back at hback
      split at hback
      · rw [List.mem_singleton.mp hback]
        show max m.region.start (r.last + 1) ≤ m.region.last
        lia
      · cases hback
  · rw [List.mem_singleton.mp hl]
    exact hle

theorem Proper.addLock {l : Lock} (h : Proper locks)
    (hl : l.region.start ≤ l.region.last) : Proper (addLock locks l) := by
  intro m hm
  rcases List.mem_cons.mp hm with heq | hrest
  · rw [heq]
    exact hl
  · exact h.unlock m hrest

theorem free_writing_iff (hr : r.start ≤ r.last) (hproper : Proper locks) :
    Free locks pid LockType.F_WRLCK r ↔
      forall p b t, p ≠ pid -> r.Covers b -> ¬ Holds locks p b t := by
  constructor
  · intro h p b t hne hb hold
    have hread := (h.of_holds hne hb hold).2
    cases hread
  · intro h
    apply Classical.not_not.mp
    intro hnot
    rcases exists_holds_of_not_free hr hproper hnot with ⟨p, b, t, hne, hb, hold, _⟩
    exact h p b t hne hb hold

theorem Exclusive.nil : Exclusive [] := by
  intro p q b t u hp
  exact (holds_nil.mp hp).elim

theorem Exclusive.mono {locks' : List Lock} (h : Exclusive locks)
    (hsub : forall p b t, Holds locks' p b t -> Holds locks p b t) :
    Exclusive locks' :=
  fun p q b t u hp hq hne => h p q b t u (hsub p b t hp) (hsub q b u hq) hne

theorem Exclusive.unlock (h : Exclusive locks) : Exclusive (unlock locks pid r) :=
  h.mono (fun _ _ _ hold => (holds_unlock.mp hold).1)

theorem Exclusive.release (h : Exclusive locks) : Exclusive (release locks pid) :=
  h.mono (fun _ _ _ hold => (holds_release.mp hold).1)

theorem Exclusive.addLock {l : Lock} (h : Exclusive locks)
    (hfree : Free locks l.pid l.type l.region) : Exclusive (addLock locks l) := by
  intro p q b t u hp hq hne
  rcases holds_addLock.mp hp with ⟨hpid, hb, ht⟩ | ⟨hp, _⟩
  · rcases holds_addLock.mp hq with ⟨hqid, _, _⟩ | ⟨hq, _⟩
    · exact absurd (hpid.symm.trans hqid) hne
    · rw [← ht]
      rw [← hpid] at hne
      exact (hfree.of_holds hne.symm hb hq).symm
  · rcases holds_addLock.mp hq with ⟨hqid, hb, hu⟩ | ⟨hq, _⟩
    · rw [← hu]
      rw [← hqid] at hne
      exact hfree.of_holds hne hb hp
    · exact h p q b t u hp hq hne

theorem Proper.release (h : Proper locks) : Proper (release locks pid) :=
  fun l hl => h l (mem_release.mp hl).1

theorem regionOf_proper {f : OpenFile} {offset whence len : Int}
    (h : regionOf f offset whence len = some r) : r.start ≤ r.last := by
  unfold regionOf region flock at h
  split at h
  · cases h
  · dsimp only at h
    split at h
    · cases h
    · split at h
      · split at h
        · cases h
        · cases h
          dsimp only
          lia
      · split at h
        · split at h
          · cases h
          · cases h
            dsimp only
            lia
        · cases h
          dsimp only
          lia

/-!
# What lock_reg leaves alone
-/

/-- A call of `lock_reg` changes nothing, or takes a lock away, or sets one that
nothing is in the way of. -/
theorem setLock_cases (locks : List Lock) (p : Pid) (f : OpenFile)
    (type : Option LockType) (offset whence len : Int) :
    setLock locks p f type offset whence len = (-1, locks) ∨
      (exists r, type = none ∧ regionOf f offset whence len = some r ∧
        setLock locks p f type offset whence len = (0, Filelock.unlock locks p.1 r)) ∨
      exists r u, type = some u ∧ regionOf f offset whence len = some r ∧
        Free locks p.1 u r ∧
        setLock locks p f type offset whence len =
          (0, Filelock.addLock locks (lockOf p u r)) := by
  unfold setLock
  cases hr : regionOf f offset whence len with
  | none => exact Or.inl rfl
  | some r =>
      cases type with
      | none => exact Or.inr (Or.inl ⟨r, rfl, rfl, rfl⟩)
      | some u =>
          dsimp only
          split
          · next hfree => exact Or.inr (Or.inr ⟨r, u, rfl, rfl, hfree.2, rfl⟩)
          · exact Or.inl rfl

theorem Exclusive.setLock {p : Pid} {f : OpenFile} {type : Option LockType}
    {offset whence len : Int} (h : Exclusive locks) :
    Exclusive (setLock locks p f type offset whence len).2 := by
  rcases setLock_cases locks p f type offset whence len with
    heq | ⟨r, _, _, heq⟩ | ⟨r, u, _, _, hfree, heq⟩
  · rw [heq]
    exact h
  · rw [heq]
    exact h.unlock
  · rw [heq]
    exact Exclusive.addLock (l := lockOf p u r) h hfree

theorem Proper.setLock {p : Pid} {f : OpenFile} {type : Option LockType}
    {offset whence len : Int} (h : Proper locks) :
    Proper (setLock locks p f type offset whence len).2 := by
  rcases setLock_cases locks p f type offset whence len with
    heq | ⟨r, _, _, heq⟩ | ⟨r, u, _, hr, _, heq⟩
  · rw [heq]
    exact h
  · rw [heq]
    exact h.unlock
  · rw [heq]
    exact Proper.addLock (l := lockOf p u r) h (regionOf_proper hr)

theorem holds_setLock_other {q : Pid} {f : OpenFile} {type : Option LockType}
    {offset whence len : Int} (hne : p ≠ q.1) :
    Holds (setLock locks q f type offset whence len).2 p b t ↔ Holds locks p b t := by
  rcases setLock_cases locks q f type offset whence len with
    heq | ⟨r, _, _, heq⟩ | ⟨r, u, _, _, _, heq⟩
  · rw [heq]
  · rw [heq, holds_unlock]
    exact ⟨fun h => h.1, fun h => ⟨h, fun hin => hne hin.1⟩⟩
  · rw [heq, holds_addLock]
    constructor
    · rintro (⟨hpid, _⟩ | ⟨hold, _⟩)
      · exact absurd hpid.symm hne
      · exact hold
    · intro hold
      exact Or.inr ⟨hold, fun hin => hne hin.1⟩

theorem holds_setLock_self {q : Pid} {f : OpenFile} {offset whence len : Int}
    (hregion : regionOf f offset whence len = some r)
    (hbefore : forall b t, ¬ Holds locks q.1 b t)
    (hret : (setLock locks q f (some type) offset whence len).1 = 0) :
    Holds (setLock locks q f (some type) offset whence len).2 q.1 b t ↔
      r.Covers b ∧ t = type := by
  rcases setLock_cases locks q f (some type) offset whence len with
    heq | ⟨r', hnone, _⟩ | ⟨r', u, hu, hr', _, heq⟩
  · rw [heq] at hret
    cases hret
  · cases hnone
  · cases hu
    rw [hregion] at hr'
    cases hr'
    rw [heq, holds_addLock]
    constructor
    · rintro (⟨_, hb, ht⟩ | ⟨hold, _⟩)
      · exact ⟨hb, ht.symm⟩
      · exact absurd hold (hbefore b t)
    · rintro ⟨hb, ht⟩
      exact Or.inl ⟨rfl, hb, ht.symm⟩

def whole : Region where
  start := 0
  last := OFFSET_MAX

theorem regionOf_whole (f : OpenFile) : regionOf f 0 0 0 = some whole := rfl

end

end Filelock
end Apue
