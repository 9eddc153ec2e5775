/-!
# Runs of guarded machines

A machine is a set of initial states together with an executable step function:
the step function answers `none` when a label is not enabled.  Nondeterminism
(the scheduler, the outcome of a system call) is carried by the labels, so the
same definition replays a concrete run and supports induction over all runs.

Reachability is parameterized by a condition on steps.  With the trivial
condition it is ordinary reachability; with another one it is reachability by
runs all of whose steps meet that condition.
-/

namespace Apue
namespace Foundation

universe u v w

structure Machine (state : Type u) (label : Type v) where
  init : state -> Prop
  step : state -> label -> Option state

namespace Machine

variable {state : Type u} {label : Type v}

inductive ReachableUnder (M : Machine state label)
    (C : state -> label -> Prop) : state -> Prop where
  | init {s : state} : M.init s -> ReachableUnder M C s
  | step {s t : state} {l : label} :
      ReachableUnder M C s -> C s l -> M.step s l = some t ->
      ReachableUnder M C t

def Reachable (M : Machine state label) : state -> Prop :=
  ReachableUnder M (fun _ _ => True)

/-!
# Invariants

A predicate that holds initially and is kept by every step meeting the
condition holds in every state reached under that condition.
-/

theorem invariant_under {M : Machine state label}
    {C : state -> label -> Prop} {I : state -> Prop}
    (hinit : forall s, M.init s -> I s)
    (hstep : forall s l t, I s -> C s l -> M.step s l = some t -> I t)
    {s : state} (hs : M.ReachableUnder C s) : I s := by
  induction hs with
  | init h =>
      exact hinit _ h
  | step _ hC hst ih =>
      exact hstep _ _ _ ih hC hst

theorem invariant {M : Machine state label} {I : state -> Prop}
    (hinit : forall s, M.init s -> I s)
    (hstep : forall s l t, I s -> M.step s l = some t -> I t)
    {s : state} (hs : M.Reachable s) : I s :=
  invariant_under hinit (fun s l t hI _ hst => hstep s l t hI hst) hs

/-!
# Replaying a run

A list of labels is replayed from a state.  A replay that succeeds from an
initial state ends in a reachable state, which is how concrete runs are used.
-/

def run (M : Machine state label) : state -> List label -> Option state
  | s, [] => some s
  | s, l :: rest =>
      match M.step s l with
      | none => none
      | some t => run M t rest

@[simp] theorem run_nil (M : Machine state label) (s : state) :
    M.run s [] = some s := rfl

theorem run_cons (M : Machine state label) (s : state) (l : label)
    (rest : List label) :
    M.run s (l :: rest) =
      match M.step s l with
      | none => none
      | some t => M.run t rest := rfl

theorem run_of_step {M : Machine state label} {s t : state} {l : label}
    (hstep : M.step s l = some t) (rest : List label) :
    M.run s (l :: rest) = M.run t rest := by
  rw [run_cons, hstep]

theorem run_append {M : Machine state label} {s t : state} {ls : List label}
    (h : M.run s ls = some t) (rest : List label) :
    M.run s (ls ++ rest) = M.run t rest := by
  induction ls generalizing s with
  | nil =>
      rw [run_nil] at h
      cases h
      rfl
  | cons l ls ih =>
      rw [run_cons] at h
      rw [List.cons_append, run_cons]
      cases hstep : M.step s l with
      | none =>
          rw [hstep] at h
          cases h
      | some next =>
          rw [hstep] at h
          exact ih h

theorem run_map {M : Machine state label} {state' label' : Type w}
    {N : Machine state' label'} {f : state -> state'} {g : label -> label'}
    (h : forall s l, N.step (f s) (g l) = (M.step s l).map f) (s : state) (ls : List label) :
    N.run (f s) (ls.map g) = (M.run s ls).map f := by
  induction ls generalizing s with
  | nil => rfl
  | cons l rest ih =>
      rw [List.map_cons, run_cons, run_cons, h]
      cases M.step s l with
      | none => rfl
      | some next => exact ih next

def RunMeets (M : Machine state label) (C : state -> label -> Prop) :
    state -> List label -> Prop
  | _, [] => True
  | s, l :: rest =>
      C s l ∧
        match M.step s l with
        | none => False
        | some t => RunMeets M C t rest

/-- Every step that is tried in a replay meets `P`; the replay ends with a step
that is not enabled. -/
def Along (M : Machine state label) (P : state -> label -> Prop) :
    state -> List label -> Prop
  | _, [] => True
  | s, l :: rest =>
      P s l ∧
        match M.step s l with
        | none => True
        | some t => Along M P t rest

/-- Conditions that are the same wherever an invariant holds are the same along
whole runs. -/
theorem along_congr {M : Machine state label} {I : state -> Prop}
    {P Q : state -> label -> Prop}
    (hstep : forall s l t, I s -> M.step s l = some t -> I t)
    (hPQ : forall s l, I s -> (P s l ↔ Q s l))
    {s : state} (hs : I s) (ls : List label) :
    M.Along P s ls ↔ M.Along Q s ls := by
  induction ls generalizing s with
  | nil => exact Iff.rfl
  | cons l rest ih =>
      unfold Along
      rw [hPQ s l hs]
      cases hnext : M.step s l with
      | none => exact Iff.rfl
      | some t =>
          have ht := ih (hstep s l t hs hnext)
          constructor
          · rintro ⟨hQ, hrest⟩
            exact ⟨hQ, ht.mp hrest⟩
          · rintro ⟨hQ, hrest⟩
            exact ⟨hQ, ht.mpr hrest⟩

instance decidableRunMeets (M : Machine state label)
    (C : state -> label -> Prop) [forall s l, Decidable (C s l)] :
    forall (s : state) (ls : List label), Decidable (M.RunMeets C s ls)
  | _, [] => inferInstanceAs (Decidable True)
  | s, l :: rest =>
      match hstep : M.step s l with
      | none => isFalse (by simp [RunMeets, hstep])
      | some t =>
          have := decidableRunMeets M C t rest
          decidable_of_iff (C s l ∧ M.RunMeets C t rest)
            (by simp [RunMeets, hstep])

theorem reachableUnder_of_run {M : Machine state label}
    {C : state -> label -> Prop} {s t : state} {ls : List label}
    (hs : M.ReachableUnder C s) (hmeets : M.RunMeets C s ls)
    (hrun : M.run s ls = some t) : M.ReachableUnder C t := by
  induction ls generalizing s with
  | nil =>
      rw [run_nil] at hrun
      cases hrun
      exact hs
  | cons l rest ih =>
      rw [run_cons] at hrun
      rcases hmeets with ⟨hC, hrest⟩
      cases hstep : M.step s l with
      | none =>
          rw [hstep] at hrun
          cases hrun
      | some next =>
          rw [hstep] at hrun hrest
          exact ih (ReachableUnder.step hs hC hstep) hrest hrun

theorem reachable_of_run {M : Machine state label} {s t : state}
    {ls : List label} (hs : M.Reachable s) (hrun : M.run s ls = some t) :
    M.Reachable t := by
  induction ls generalizing s with
  | nil =>
      rw [run_nil] at hrun
      cases hrun
      exact hs
  | cons l rest ih =>
      rw [run_cons] at hrun
      cases hstep : M.step s l with
      | none =>
          rw [hstep] at hrun
          cases hrun
      | some next =>
          rw [hstep] at hrun
          exact ih (ReachableUnder.step hs trivial hstep) hrun

theorem exists_reachable_of_run {M : Machine state label} {part : Type w}
    {look : state -> part} {x : part} {s : state} {ls : List label}
    (hs : M.init s) (hrun : (M.run s ls).map look = some x) :
    exists t, M.Reachable t ∧ look t = x := by
  rcases Option.map_eq_some_iff.mp hrun with ⟨t, ht, hlook⟩
  exact ⟨t, reachable_of_run (ReachableUnder.init hs) ht, hlook⟩

/-- What the steps with labels in `C` keep holds at the end of a replay of such
labels. -/
theorem invariant_of_run {M : Machine state label} {I : state -> Prop}
    {C : label -> Prop}
    (hstep : forall s l t, I s -> C l -> M.step s l = some t -> I t)
    {s t : state} {ls : List label} (hs : I s) (hC : forall l, l ∈ ls -> C l)
    (hrun : M.run s ls = some t) : I t := by
  induction ls generalizing s with
  | nil =>
      rw [run_nil] at hrun
      cases hrun
      exact hs
  | cons l rest ih =>
      rw [run_cons] at hrun
      cases hnext : M.step s l with
      | none =>
          rw [hnext] at hrun
          cases hrun
      | some next =>
          rw [hnext] at hrun
          have hI := hstep s l next hs (hC l List.mem_cons_self) hnext
          exact ih hI (fun m hm => hC m (List.mem_cons_of_mem l hm)) hrun

/-!
# The states along a run
-/

/-- `u` is one of the states that a replay passes through, its first and last
state included. -/
def Visits (M : Machine state label) : state -> List label -> state -> Prop
  | s, [], u => u = s
  | s, l :: rest, u =>
      u = s ∨
        match M.step s l with
        | none => False
        | some t => Visits M t rest u

theorem visits_start (M : Machine state label) (s : state) (ls : List label) :
    M.Visits s ls s := by
  cases ls with
  | nil => rfl
  | cons l rest => exact Or.inl rfl

theorem visits_of_run {M : Machine state label} {s t : state}
    {ls : List label} (hrun : M.run s ls = some t) : M.Visits s ls t := by
  induction ls generalizing s with
  | nil =>
      rw [run_nil] at hrun
      cases hrun
      rfl
  | cons l rest ih =>
      rw [run_cons] at hrun
      unfold Visits
      cases hstep : M.step s l with
      | none =>
          rw [hstep] at hrun
          cases hrun
      | some next =>
          rw [hstep] at hrun
          exact Or.inr (ih hrun)

theorem reachableUnder_of_visits {M : Machine state label} {C : state -> Prop}
    {s t : state} {ls : List label}
    (hs : M.ReachableUnder (fun s _ => C s) s)
    (hall : forall u, M.Visits s ls u -> C u) (ht : M.Visits s ls t) :
    M.ReachableUnder (fun s _ => C s) t := by
  induction ls generalizing s with
  | nil =>
      cases ht
      exact hs
  | cons l rest ih =>
      have hC := hall s (visits_start M s (l :: rest))
      unfold Visits at hall ht
      rcases ht with heq | ht
      · rw [heq]
        exact hs
      · cases hstep : M.step s l with
        | none =>
            rw [hstep] at ht
            cases ht
        | some next =>
            rw [hstep] at hall ht
            exact ih (hs.step hC hstep) (fun u hu => hall u (Or.inr hu)) ht

/-- When a step keeps `P` exactly if it meets `C`, a run stays in `P` exactly if
its steps all meet `C`. -/
theorem visits_iff_runMeets {M : Machine state label} {I P : state -> Prop}
    {C : state -> label -> Prop}
    (hI : forall s l t, I s -> M.step s l = some t -> I t)
    (hP : forall s l t, I s -> P s -> M.step s l = some t -> (P t ↔ C s l))
    {s t : state} {ls : List label} (hs : I s) (hPs : P s)
    (hrun : M.run s ls = some t) :
    (forall u, M.Visits s ls u -> P u) ↔ M.RunMeets C s ls := by
  induction ls generalizing s with
  | nil =>
      constructor
      · intro _
        trivial
      · intro _ u hu
        cases hu
        exact hPs
  | cons l rest ih =>
      rw [run_cons] at hrun
      unfold Visits RunMeets
      cases hstep : M.step s l with
      | none =>
          rw [hstep] at hrun
          cases hrun
      | some next =>
          rw [hstep] at hrun
          have hnext := hP s l next hs hPs hstep
          constructor
          · intro h
            have hPn := h next (Or.inr (visits_start M next rest))
            exact ⟨hnext.mp hPn, (ih (hI s l next hs hstep) hPn hrun).mp
              (fun u hu => h u (Or.inr hu))⟩
          · intro h u hu
            rcases h with ⟨hC, hrest⟩
            rcases hu with heq | hu
            · rw [heq]
              exact hPs
            · exact (ih (hI s l next hs hstep) (hnext.mpr hC) hrun).mpr hrest u hu

theorem visits_invariant {M : Machine state label} {I : state -> Prop}
    {C : state -> label -> Prop}
    (hstep : forall s l t, I s -> C s l -> M.step s l = some t -> I t)
    {s u : state} {ls : List label} (hs : I s) (hmeets : M.RunMeets C s ls)
    (hu : M.Visits s ls u) : I u := by
  induction ls generalizing s with
  | nil =>
      cases hu
      exact hs
  | cons l rest ih =>
      unfold Visits at hu
      unfold RunMeets at hmeets
      rcases hmeets with ⟨hC, hrest⟩
      rcases hu with heq | hu
      · rw [heq]
        exact hs
      · cases hnext : M.step s l with
        | none =>
            rw [hnext] at hu
            cases hu
        | some next =>
            rw [hnext] at hu hrest
            exact ih (hstep s l next hs hC hnext) hrest hu

theorem reachable_of_visits {M : Machine state label} {s t : state}
    {ls : List label} (hs : M.Reachable s) (ht : M.Visits s ls t) :
    M.Reachable t :=
  reachableUnder_of_visits (C := fun _ => True) hs (fun _ _ => trivial) ht

/-!
# Runs that come to an end

When every step lowers a measure, no run is longer than the measure of its
first state, and so every run comes to a state without a next step.
-/

def Halted (M : Machine state label) (s : state) : Prop :=
  forall l, M.step s l = none

theorem run_length_le_of {M : Machine state label} {I : state -> Prop}
    {C : label -> Prop} {measure : state -> Nat}
    (hstep : forall s l t, I s -> C l -> M.step s l = some t ->
      I t ∧ measure t < measure s)
    {s t : state} {ls : List label} (hs : I s) (hC : forall l, l ∈ ls -> C l)
    (hrun : M.run s ls = some t) : ls.length + measure t ≤ measure s := by
  induction ls generalizing s with
  | nil =>
      rw [run_nil] at hrun
      cases hrun
      exact Nat.le_of_eq (Nat.zero_add _)
  | cons l rest ih =>
      rw [run_cons] at hrun
      cases hnext : M.step s l with
      | none =>
          rw [hnext] at hrun
          cases hrun
      | some next =>
          rw [hnext] at hrun
          rcases hstep s l next hs (hC l List.mem_cons_self) hnext with ⟨hI, hlt⟩
          have hle := ih hI (fun m hm => hC m (List.mem_cons_of_mem l hm)) hrun
          rw [List.length_cons]
          lia

theorem run_length_le {M : Machine state label} {I : state -> Prop}
    {measure : state -> Nat}
    (hstep : forall s l t, I s -> M.step s l = some t ->
      I t ∧ measure t < measure s)
    {s t : state} {ls : List label} (hs : I s) (hrun : M.run s ls = some t) :
    ls.length + measure t ≤ measure s :=
  run_length_le_of (C := fun _ => True) (fun s l t hI _ => hstep s l t hI) hs
    (fun _ _ => trivial) hrun

theorem own_length_le_add {M : Machine state label} {I : state -> Prop}
    {own : label -> Bool} {measure : state -> Nat} {c : Nat}
    (hstep : forall s l t, I s -> M.step s l = some t -> I t)
    (hown : forall s l t, I s -> own l = true -> M.step s l = some t ->
      measure t < measure s)
    (hother : forall s l t, I s -> own l = false -> M.step s l = some t ->
      measure t ≤ measure s + c)
    {s t : state} {ls : List label} (hs : I s) (hrun : M.run s ls = some t) :
    (ls.filter own).length + measure t ≤
      measure s + c * (ls.filter (fun l => !own l)).length := by
  induction ls generalizing s with
  | nil =>
      rw [run_nil] at hrun
      cases hrun
      exact Nat.le_of_eq (Nat.zero_add _)
  | cons l rest ih =>
      rw [run_cons] at hrun
      cases hnext : M.step s l with
      | none =>
          rw [hnext] at hrun
          cases hrun
      | some next =>
          rw [hnext] at hrun
          have hle := ih (hstep s l next hs hnext) hrun
          cases hl : own l with
          | true =>
              have hlt := hown s l next hs hl hnext
              rw [List.filter_cons_of_pos hl, List.filter_cons_of_neg (by simp [hl]),
                List.length_cons]
              lia
          | false =>
              have hle' := hother s l next hs hl hnext
              rw [List.filter_cons_of_neg (by simp [hl]), List.filter_cons_of_pos (by simp [hl]),
                List.length_cons, Nat.mul_succ]
              lia

theorem own_length_le {M : Machine state label} {I : state -> Prop}
    {own : label -> Bool} {measure : state -> Nat}
    (hstep : forall s l t, I s -> M.step s l = some t -> I t)
    (hown : forall s l t, I s -> own l = true -> M.step s l = some t ->
      measure t < measure s)
    (hother : forall s l t, I s -> own l = false -> M.step s l = some t ->
      measure t ≤ measure s)
    {s t : state} {ls : List label} (hs : I s) (hrun : M.run s ls = some t) :
    (ls.filter own).length + measure t ≤ measure s := by
  have hle := own_length_le_add (c := 0) hstep hown hother hs hrun
  rw [Nat.zero_mul] at hle
  exact hle

/-!
# What can still happen

A state can reach a goal when some run leads from it to the goal.
-/

def CanReach (M : Machine state label) (P : state -> Prop) (s : state) : Prop :=
  exists ls t, M.run s ls = some t ∧ P t

theorem CanReach.here {M : Machine state label} {P : state -> Prop}
    {s : state} (h : P s) : M.CanReach P s :=
  ⟨[], s, rfl, h⟩

theorem CanReach.of_step {M : Machine state label} {P : state -> Prop}
    {s t : state} (l : label) (hstep : M.step s l = some t)
    (ht : M.CanReach P t) : M.CanReach P s := by
  rcases ht with ⟨ls, u, hrun, hu⟩
  refine ⟨l :: ls, u, ?_, hu⟩
  rw [run_cons, hstep]
  exact hrun

theorem CanReach.trans {M : Machine state label} {P Q : state -> Prop}
    {s : state} (hs : M.CanReach P s) (h : forall t, P t -> M.CanReach Q t) :
    M.CanReach Q s := by
  rcases hs with ⟨ls, t, hrun, ht⟩
  rcases h t ht with ⟨ls', u, hrun', hu⟩
  exact ⟨ls ++ ls', u, by rw [run_append hrun, hrun'], hu⟩

/-- When every state short of the goal has a step that lowers a measure, the goal
can be reached. -/
theorem CanReach.of_measure {M : Machine state label} {I P : state -> Prop}
    (measure : state -> Nat)
    (hstep : forall s, I s -> ¬ P s ->
      exists l t, M.step s l = some t ∧ I t ∧ measure t < measure s)
    {s : state} (hs : I s) : M.CanReach P s := by
  induction hn : measure s using Nat.strongRecOn generalizing s with
  | _ n ih =>
      by_cases hP : P s
      · exact CanReach.here hP
      · rcases hstep s hs hP with ⟨l, t, hst, hI, hlt⟩
        exact CanReach.of_step l hst (ih (measure t) (hn ▸ hlt) hI rfl)

end Machine

end Foundation
end Apue
