import Apue.Foundation.Block
import Apue.Foundation.Fgets
import Apue.Foundation.Transition

/-!
# A filter behind popen

`filter` opens `./myuclc` with `popen`, shows a prompt, and copies the lines that
come out of the pipe.  `myuclc` reads the same terminal, changes uppercase letters
and hands each line on with `fflush`; standard output of a pipe is kept in a
buffer otherwise.  Bytes go through five places on their way: the terminal, the
buffer of `myuclc`, the pipe, the buffer of `fpin` and that of the standard output
of `filter`.  A signal may end `myuclc` at any time.
-/

namespace Apue
namespace Myuclc

open Foundation

def isupper (c : Byte) : Bool :=
  65 ≤ c && c ≤ 90

def tolower (c : Byte) : Byte :=
  if isupper c then c + 32 else c

def convert (c : Byte) : Byte :=
  if isupper c then tolower c else c

/-- The loop of `myuclc`: in `getchar`, in `putchar`, in the write that makes room
for a byte, in `fflush`, and in the flush at exit. -/
inductive MyuclcPc where
  | getchar
  | putchar (c : Byte)
  | full (c : Byte)
  | fflush
  | exit
  | exited
  deriving Repr, DecidableEq

/-- `exit(0)` and `exit(1)` come last. -/
inductive FilterPc where
  | prompt
  | fgets
  | fputs (line : List Byte)
  | pclose
  | putchar
  | exited
  | failed
  deriving Repr, DecidableEq

/-- The bytes on their way, and what the user sees; besides, all that has been
typed and the pieces that `fgets` delivered. -/
structure State where
  typed : List Byte
  eof : Bool
  myuclc : MyuclcPc
  buf : List Byte
  pipe : List Byte
  fpin : List Byte
  filter : FilterPc
  stdout : List Byte
  out : List Byte
  input : List Byte
  pieces : List (List Byte)
  deriving Repr, DecidableEq

/-- The user types a byte or the end of the file, or `myuclc` is killed; all other
labels are steps of the two processes.  Of the bytes that can be moved at once `n`
are, and `w` is the answer of the write to what the user sees. -/
inductive Label where
  | type (c : Byte)
  | typeEof
  | kill
  | getchar
  | putchar
  | write (n : Nat)
  | flushed
  | prompt (w : WriteAnswer)
  | read (n : Nat)
  | fgets
  | fputs (ok : Bool)
  | pclose (ok : Bool)
  | newline (w : WriteAnswer)
  deriving Repr, DecidableEq

structure Setting where
  bufsiz : Nat
  capacity : Nat
  bufsiz_pos : 0 < bufsiz
  capacity_pos : 0 < capacity

def LINE : Nat := 1024

/-- `"prompt> "` -/
def promptText : List Byte := [112, 114, 111, 109, 112, 116, 62, 32]

/-!
# myuclc
-/

def getchar (s : State) : Option State :=
  match s.myuclc, s.typed with
  | MyuclcPc.getchar, c :: rest =>
      some { s with typed := rest, myuclc := MyuclcPc.putchar (convert c) }
  | MyuclcPc.getchar, [] =>
      if s.eof then some { s with myuclc := MyuclcPc.exit } else none
  | _, _ => none

def putchar (k : Setting) (s : State) : Option State :=
  match s.myuclc with
  | MyuclcPc.putchar c =>
      if s.buf.length < k.bufsiz then
        some
          { s with
            buf := s.buf ++ [c]
            myuclc := if c = newline then MyuclcPc.fflush else MyuclcPc.getchar }
      else
        some { s with myuclc := MyuclcPc.full c }
  | _ => none

def MyuclcPc.writes : MyuclcPc -> Bool
  | MyuclcPc.full _ => true
  | MyuclcPc.fflush => true
  | MyuclcPc.exit => true
  | _ => false

/-- When `filter` has given up there is no reader, and `SIGPIPE` ends the process. -/
def write (k : Setting) (s : State) (n : Nat) : Option State :=
  if s.myuclc.writes = true ∧ 0 < n ∧ n ≤ s.buf.length then
    if s.filter = FilterPc.failed then
      some { s with buf := [], myuclc := MyuclcPc.exited }
    else if s.pipe.length + n ≤ k.capacity then
      some { s with buf := s.buf.drop n, pipe := s.pipe ++ s.buf.take n }
    else
      none
  else
    none

def flushed (s : State) : Option State :=
  match s.myuclc, s.buf with
  | MyuclcPc.full c, [] => some { s with myuclc := MyuclcPc.putchar c }
  | MyuclcPc.fflush, [] => some { s with myuclc := MyuclcPc.getchar }
  | MyuclcPc.exit, [] => some { s with myuclc := MyuclcPc.exited }
  | _, _ => none

def kill (s : State) : Option State :=
  match s.myuclc with
  | MyuclcPc.exited => none
  | _ => some { s with buf := [], myuclc := MyuclcPc.exited }

/-!
# filter
-/

/-- The prompt and the `fflush` behind it, of which the results are not used; what
the write does not take is lost. -/
def prompt (s : State) (w : WriteAnswer) : Option State :=
  match s.filter with
  | FilterPc.prompt =>
      some
        { s with
          out := s.out ++ w.taken (s.stdout ++ promptText)
          stdout := []
          filter := FilterPc.fgets }
  | _ => none

def Ready (s : State) : Prop :=
  newline ∈ s.fpin ∨ LINE - 1 ≤ s.fpin.length

instance (s : State) : Decidable (Ready s) :=
  inferInstanceAs (Decidable (_ ∨ _))

def read (s : State) (n : Nat) : Option State :=
  if s.filter = FilterPc.fgets ∧ ¬ Ready s ∧ 0 < n ∧ n ≤ s.pipe.length then
    some { s with pipe := s.pipe.drop n, fpin := s.fpin ++ s.pipe.take n }
  else
    none

def fgets (s : State) : Option State :=
  if s.filter = FilterPc.fgets ∧
      (Ready s ∨ (s.pipe = [] ∧ s.myuclc = MyuclcPc.exited)) then
    match Foundation.fgets LINE s.fpin with
    | some (line, rest) =>
        some
          { s with
            fpin := rest
            filter := FilterPc.fputs line
            pieces := s.pieces ++ [line] }
    | none => some { s with filter := FilterPc.pclose }
  else
    none

/-- What `fputs` puts into the buffer of a piece ends at a zero byte; on a terminal
it is shown at once. -/
def fputs (s : State) (ok : Bool) : Option State :=
  match s.filter with
  | FilterPc.fputs line =>
      if ok then
        some { s with stdout := s.stdout ++ str line, filter := FilterPc.prompt }
      else
        some { s with filter := FilterPc.failed }
  | _ => none

/-- `pclose` waits for `myuclc`, and does not look at how that has ended. -/
def pclose (s : State) (ok : Bool) : Option State :=
  match s.filter, s.myuclc with
  | FilterPc.pclose, MyuclcPc.exited =>
      if ok then
        some { s with filter := FilterPc.putchar }
      else
        some { s with filter := FilterPc.failed }
  | _, _ => none

/-- `putchar('\n')`, and the write of `exit(0)`. -/
def lastNewline (s : State) (w : WriteAnswer) : Option State :=
  match s.filter with
  | FilterPc.putchar =>
      some
        { s with
          out := s.out ++ w.taken (s.stdout ++ [newline])
          stdout := []
          filter := FilterPc.exited }
  | _ => none

/-!
# The two processes and their user
-/

def type (s : State) (c : Byte) : Option State :=
  if s.eof then
    none
  else
    some { s with typed := s.typed ++ [c], input := s.input ++ [c] }

def typeEof (s : State) : Option State :=
  if s.eof then none else some { s with eof := true }

def step (k : Setting) (s : State) : Label -> Option State
  | Label.type c => type s c
  | Label.typeEof => typeEof s
  | Label.kill => kill s
  | Label.getchar => getchar s
  | Label.putchar => putchar k s
  | Label.write n => write k s n
  | Label.flushed => flushed s
  | Label.prompt w => prompt s w
  | Label.read n => read s n
  | Label.fgets => fgets s
  | Label.fputs ok => fputs s ok
  | Label.pclose ok => pclose s ok
  | Label.newline w => lastNewline s w

def start : State where
  typed := []
  eof := false
  myuclc := MyuclcPc.getchar
  buf := []
  pipe := []
  fpin := []
  filter := FilterPc.prompt
  stdout := []
  out := []
  input := []
  pieces := []

def machine (k : Setting) : Machine State Label where
  init s := s = start
  step := step k

/-!
# What the user should see
-/

def shown (pieces : List (List Byte)) : List Byte :=
  pieces.flatMap (fun line => promptText ++ str line)

/-- `myuclc` is not killed, and the writes of `filter` take all they are given. -/
def NoLoss (s : State) (l : Label) : Prop :=
  match l with
  | Label.kill => False
  | Label.prompt w => w.full (s.stdout ++ promptText) = true
  | Label.newline w => w.full (s.stdout ++ [newline]) = true
  | _ => True

instance (s : State) (l : Label) : Decidable (NoLoss s l) := by
  unfold NoLoss
  cases l <;> infer_instance

def session (input : List Byte) : List Byte :=
  shown (chunks LINE (input.map convert)) ++ promptText ++ [newline]

theorem shown_append (ls ms : List (List Byte)) :
    shown (ls ++ ms) = shown ls ++ shown ms :=
  List.flatMap_append

theorem shown_singleton (line : List Byte) :
    shown [line] = promptText ++ str line :=
  List.flatMap_singleton _ _

/-!
# The invariant
-/

def MyuclcPc.hand : MyuclcPc -> List Byte
  | MyuclcPc.putchar c => [c]
  | MyuclcPc.full c => [c]
  | _ => []

def ahead (s : State) : List Byte :=
  s.fpin ++ (s.pipe ++ (s.buf ++ (s.myuclc.hand ++ s.typed.map convert)))

def More (s : State) (more : List Byte) : Prop :=
  s.eof = true -> more = []

def Written (s : State) : Prop :=
  match s.filter with
  | FilterPc.prompt => s.out ++ s.stdout = shown s.pieces
  | FilterPc.fgets => s.out = shown s.pieces ++ promptText ∧ s.stdout = []
  | FilterPc.fputs line =>
      exists ls, s.pieces = ls ++ [line] ∧ s.out = shown ls ++ promptText ∧ s.stdout = []
  | FilterPc.pclose => s.out = shown s.pieces ++ promptText ∧ s.stdout = []
  | FilterPc.putchar => s.out = shown s.pieces ++ promptText ∧ s.stdout = []
  | FilterPc.exited => s.out = shown s.pieces ++ promptText ++ [newline]
  | FilterPc.failed => True

def FilterPc.ended : FilterPc -> Bool
  | FilterPc.pclose => true
  | FilterPc.putchar => true
  | FilterPc.exited => true
  | _ => false

/-- Nothing is said of the stream after `filter` has given up. -/
structure Inv (s : State) : Prop where
  written : Written s
  stream : s.filter ≠ FilterPc.failed -> forall more, More s more ->
    chunks LINE (s.input.map convert ++ more) = s.pieces ++ chunks LINE (ahead s ++ more)
  exits : s.filter ≠ FilterPc.failed ->
    s.myuclc = MyuclcPc.exit ∨ s.myuclc = MyuclcPc.exited -> s.eof = true ∧ s.typed = []
  exited : s.myuclc = MyuclcPc.exited -> s.buf = []
  ended : s.filter.ended = true -> s.myuclc = MyuclcPc.exited ∧ s.pipe = [] ∧ s.fpin = []
  flushed : s.myuclc ≠ MyuclcPc.fflush -> newline ∉ s.buf

theorem start_inv : Inv start where
  written := rfl
  stream _ _ _ := rfl
  exits _ h := by rcases h with h | h <;> cases h
  exited _ := rfl
  ended h := by cases h
  flushed _ := List.not_mem_nil

section

variable {k : Setting} {s t : State}

theorem Inv.of_myuclc {pc : MyuclcPc} {typed buf pipe : List Byte} (h : Inv s)
    (hpc : s.myuclc ≠ MyuclcPc.exited)
    (hahead : pipe ++ (buf ++ (pc.hand ++ typed.map convert)) =
      s.pipe ++ (s.buf ++ (s.myuclc.hand ++ s.typed.map convert)))
    (hexits : s.filter ≠ FilterPc.failed -> pc = MyuclcPc.exit ∨ pc = MyuclcPc.exited ->
      s.eof = true ∧ typed = [])
    (hexited : pc = MyuclcPc.exited -> buf = [])
    (hflushed : pc ≠ MyuclcPc.fflush -> newline ∉ buf) :
    Inv { s with typed := typed, buf := buf, pipe := pipe, myuclc := pc } where
  written := h.written
  stream hfilter more hmore := by
    have hsame : ahead { s with typed := typed, buf := buf, pipe := pipe, myuclc := pc } =
        ahead s := congrArg (fun later => s.fpin ++ later) hahead
    rw [hsame]
    exact h.stream hfilter more hmore
  exits := hexits
  exited := hexited
  ended hended := absurd (h.ended hended).1 hpc
  flushed := hflushed

theorem Inv.getchar (h : Inv s) (hstep : getchar s = some t) : Inv t := by
  unfold Myuclc.getchar at hstep
  split at hstep
  · next c rest hpc htyped =>
      cases hstep
      apply h.of_myuclc
      · rw [hpc]
        nofun
      · rw [hpc, htyped]
        rfl
      · rintro _ (hexit | hexit) <;> cases hexit
      · nofun
      · intro _
        exact h.flushed (by rw [hpc]; nofun)
  · next hpc htyped =>
      split at hstep
      · next heof =>
          cases hstep
          apply h.of_myuclc
          · rw [hpc]
            nofun
          · rw [hpc]
            rfl
          · exact fun _ _ => ⟨heof, htyped⟩
          · nofun
          · intro _
            exact h.flushed (by rw [hpc]; nofun)
      · cases hstep
  · cases hstep

theorem Inv.putchar (h : Inv s) (hstep : putchar k s = some t) : Inv t := by
  unfold Myuclc.putchar at hstep
  split at hstep
  · next c hpc =>
      have hbuf := h.flushed (by rw [hpc]; nofun)
      split at hstep
      · cases hstep
        by_cases hc : c = newline
        · rw [if_pos hc]
          apply h.of_myuclc
          · rw [hpc]
            nofun
          · rw [hpc]
            simp [MyuclcPc.hand]
          · rintro _ (hexit | hexit) <;> cases hexit
          · nofun
          · exact fun hne => absurd rfl hne
        · rw [if_neg hc]
          apply h.of_myuclc
          · rw [hpc]
            nofun
          · rw [hpc]
            simp [MyuclcPc.hand]
          · rintro _ (hexit | hexit) <;> cases hexit
          · nofun
          · intro _ hmem
            rcases List.mem_append.mp hmem with hmem | hmem
            · exact hbuf hmem
            · exact hc (List.mem_singleton.mp hmem).symm
      · cases hstep
        apply h.of_myuclc
        · rw [hpc]
          nofun
        · rw [hpc]
          rfl
        · rintro _ (hexit | hexit) <;> cases hexit
        · nofun
        · exact fun _ => hbuf
  · cases hstep

theorem Inv.write {n : Nat} (h : Inv s) (hstep : write k s n = some t) : Inv t := by
  unfold Myuclc.write at hstep
  split at hstep
  · next hwrites =>
      have hpc : s.myuclc ≠ MyuclcPc.exited := by
        intro hexited
        rw [hexited] at hwrites
        cases hwrites.1
      split at hstep
      · next hfailed =>
          cases hstep
          refine ⟨?_, fun hne => absurd hfailed hne, fun hne => absurd hfailed hne,
            fun _ => rfl, ?_, fun _ => List.not_mem_nil⟩
          · show Written { s with buf := [], myuclc := MyuclcPc.exited }
            unfold Written
            rw [hfailed]
            trivial
          · intro hended
            rw [show s.filter.ended = false by rw [hfailed]; rfl] at hended
            cases hended
      · split at hstep
        · cases hstep
          apply h.of_myuclc hpc
          · rw [List.append_assoc]
            congr 1
            rw [← List.append_assoc, List.take_append_drop]
          · exact h.exits
          · exact fun hexited => absurd hexited hpc
          · intro hne hmem
            exact h.flushed hne (List.mem_of_mem_drop hmem)
        · cases hstep
  · cases hstep

theorem flushed_moves (h : Myuclc.flushed s = some t) :
    s.buf = [] ∧
      ((exists c, s.myuclc = MyuclcPc.full c ∧ t = { s with myuclc := MyuclcPc.putchar c }) ∨
        (s.myuclc = MyuclcPc.fflush ∧ t = { s with myuclc := MyuclcPc.getchar }) ∨
        (s.myuclc = MyuclcPc.exit ∧ t = { s with myuclc := MyuclcPc.exited })) := by
  unfold Myuclc.flushed at h
  cases hpc : s.myuclc with
  | full c =>
      cases hbuf : s.buf with
      | nil =>
          rw [hpc, hbuf] at h
          cases h
          exact ⟨rfl, Or.inl ⟨c, rfl, rfl⟩⟩
      | cons b rest =>
          rw [hpc, hbuf] at h
          cases h
  | fflush =>
      cases hbuf : s.buf with
      | nil =>
          rw [hpc, hbuf] at h
          cases h
          exact ⟨rfl, Or.inr (Or.inl ⟨rfl, rfl⟩)⟩
      | cons b rest =>
          rw [hpc, hbuf] at h
          cases h
  | exit =>
      cases hbuf : s.buf with
      | nil =>
          rw [hpc, hbuf] at h
          cases h
          exact ⟨rfl, Or.inr (Or.inr ⟨rfl, rfl⟩)⟩
      | cons b rest =>
          rw [hpc, hbuf] at h
          cases h
  | _ =>
      rw [hpc] at h
      cases h

theorem Inv.flushed_step (h : Inv s) (hstep : Myuclc.flushed s = some t) : Inv t := by
  rcases flushed_moves hstep with
    ⟨hbuf, ⟨c, hpc, heq⟩ | ⟨hpc, heq⟩ | ⟨hpc, heq⟩⟩
  · cases heq
    apply h.of_myuclc
    · rw [hpc]
      nofun
    · rw [hpc]
      rfl
    · rintro _ (hexit | hexit) <;> cases hexit
    · nofun
    · intro _
      rw [hbuf]
      exact List.not_mem_nil
  · cases heq
    apply h.of_myuclc
    · rw [hpc]
      nofun
    · rw [hpc]
      rfl
    · rintro _ (hexit | hexit) <;> cases hexit
    · nofun
    · intro _
      rw [hbuf]
      exact List.not_mem_nil
  · cases heq
    apply h.of_myuclc
    · rw [hpc]
      nofun
    · rw [hpc]
      rfl
    · exact fun hfilter _ => h.exits hfilter (Or.inl hpc)
    · exact fun _ => hbuf
    · intro _
      rw [hbuf]
      exact List.not_mem_nil

theorem Inv.prompt {w : WriteAnswer} (h : Inv s)
    (hfull : w.full (s.stdout ++ promptText) = true) (hstep : prompt s w = some t) :
    Inv t := by
  unfold Myuclc.prompt at hstep
  split at hstep
  · next hfilter =>
      cases hstep
      have hne : s.filter ≠ FilterPc.failed := by
        rw [hfilter]
        nofun
      refine ⟨?_, fun _ => h.stream hne, fun _ => h.exits hne, h.exited, nofun, h.flushed⟩
      have hwritten := h.written
      unfold Written at hwritten
      rw [hfilter] at hwritten
      refine ⟨?_, rfl⟩
      show s.out ++ w.taken (s.stdout ++ promptText) = shown s.pieces ++ promptText
      rw [WriteAnswer.taken_of_full hfull, ← List.append_assoc,
        show s.out ++ s.stdout = shown s.pieces from hwritten]
  · cases hstep

theorem Inv.read {n : Nat} (h : Inv s) (hstep : read s n = some t) : Inv t := by
  unfold Myuclc.read at hstep
  split at hstep
  · next hread =>
      cases hstep
      refine ⟨h.written, ?_, h.exits, h.exited, ?_, h.flushed⟩
      · intro hfilter more hmore
        have hsame : ahead { s with
            pipe := s.pipe.drop n
            fpin := s.fpin ++ s.pipe.take n } = ahead s := by
          unfold ahead
          dsimp only
          rw [List.append_assoc]
          congr 1
          rw [← List.append_assoc, List.take_append_drop]
        rw [hsame]
        exact h.stream hfilter more hmore
      · intro hended
        rw [show s.filter.ended = false by rw [hread.1]; rfl] at hended
        cases hended
  · cases hstep

theorem fgets_ready (hready : Ready s) :
    exists line rest, Foundation.fgets LINE s.fpin = some (line, rest) ∧
      forall more, chunks LINE (s.fpin ++ more) = line :: chunks LINE (rest ++ more) := by
  rcases fgets_append_of (by decide : 2 ≤ LINE) hready with ⟨line, rest, hget, hmore⟩
  exact ⟨line, rest, hget, fun more => chunks_of_fgets (by decide) (hmore more)⟩

theorem chunks_rest (hready : ¬ Ready s) (hne : s.fpin ≠ []) :
    Foundation.fgets LINE s.fpin = some (s.fpin, []) := by
  have hnewline : newline ∉ s.fpin := fun hmem => hready (Or.inl hmem)
  have hlen : s.fpin.length ≤ LINE - 1 :=
    Nat.le_of_not_le (fun hle => hready (Or.inr hle))
  cases hget : Foundation.fgets LINE s.fpin with
  | none => exact absurd (fgets_eq_none.mp hget) hne
  | some piece =>
      rcases piece with ⟨line, rest⟩
      have hrest : rest = [] := (fgets_last_iff hget).mpr
        ⟨hlen, fun hmem => hnewline (List.dropLast_subset _ hmem)⟩
      have happend := (fgets_some (by decide) hget).1
      rw [hrest, List.append_nil] at happend
      rw [hrest, happend]

theorem not_ready_nil (h : s.fpin = []) : ¬ Ready s := by
  unfold Ready
  rw [h]
  rintro (hmem | hle)
  · cases hmem
  · exact absurd hle (by decide)

theorem Inv.ahead_eq (h : Inv s) (hfilter : s.filter ≠ FilterPc.failed)
    (hpipe : s.pipe = []) (hexited : s.myuclc = MyuclcPc.exited) :
    s.eof = true ∧ ahead s = s.fpin := by
  rcases h.exits hfilter (Or.inr hexited) with ⟨heof, htyped⟩
  refine ⟨heof, ?_⟩
  unfold ahead
  rw [hpipe, h.exited hexited, hexited, htyped]
  exact List.append_nil _

theorem Inv.fgets (h : Inv s) (hstep : fgets s = some t) : Inv t := by
  unfold Myuclc.fgets at hstep
  split at hstep
  · next hcond =>
      rcases hcond with ⟨hfilter, hcond⟩
      have hne : s.filter ≠ FilterPc.failed := by
        rw [hfilter]
        nofun
      have hwritten : s.out = shown s.pieces ++ promptText ∧ s.stdout = [] := by
        have hwritten := h.written
        unfold Written at hwritten
        rw [hfilter] at hwritten
        exact hwritten
      split at hstep
      · next line rest hget =>
          cases hstep
          refine ⟨⟨s.pieces, rfl, hwritten⟩, ?_, fun _ => h.exits hne, h.exited, nofun,
            h.flushed⟩
          intro _ more hmore
          show _ = (s.pieces ++ [line]) ++ chunks LINE
            ((rest ++ (s.pipe ++ (s.buf ++ (s.myuclc.hand ++ s.typed.map convert)))) ++ more)
          rw [h.stream hne more hmore, List.append_assoc]
          congr 1
          by_cases hready : Ready s
          · rcases fgets_ready hready with ⟨line', rest', hget', hchunks⟩
            rw [hget] at hget'
            cases hget'
            unfold ahead
            rw [List.append_assoc s.fpin, hchunks, ← List.append_assoc rest]
            rfl
          · -- the last piece has no newline
            rcases hcond with hready' | ⟨hpipe, hexited⟩
            · exact absurd hready' hready
            · rcases h.ahead_eq hne hpipe hexited with ⟨heof, hahead⟩
              have hfpin : s.fpin ≠ [] := by
                intro hnil
                rw [hnil] at hget
                cases hget
              rw [chunks_rest hready hfpin] at hget
              cases hget
              rw [hahead, hmore heof, List.append_nil,
                chunks_of_fgets (by decide) (chunks_rest hready hfpin)]
              rcases h.exits hne (Or.inr hexited) with ⟨_, htyped⟩
              rw [hpipe, h.exited hexited, hexited, htyped]
              rfl
      · next hget =>
          cases hstep
          have hfpin : s.fpin = [] := fgets_eq_none.mp hget
          refine ⟨hwritten, fun _ => h.stream hne, fun _ => h.exits hne, h.exited, ?_,
            h.flushed⟩
          intro _
          rcases hcond with hready | ⟨hpipe, hexited⟩
          · exact absurd hready (not_ready_nil hfpin)
          · exact ⟨hexited, hpipe, hfpin⟩
  · cases hstep

theorem Inv.fputs {ok : Bool} (h : Inv s) (hstep : fputs s ok = some t) : Inv t := by
  unfold Myuclc.fputs at hstep
  split at hstep
  · next line hfilter =>
      have hne : s.filter ≠ FilterPc.failed := by
        rw [hfilter]
        nofun
      have hwritten := h.written
      unfold Written at hwritten
      rw [hfilter] at hwritten
      rcases hwritten with ⟨ls, hpieces, hout, hstdout⟩
      split at hstep
      · cases hstep
        refine ⟨?_, fun _ => h.stream hne, fun _ => h.exits hne, h.exited, nofun, h.flushed⟩
        show s.out ++ (s.stdout ++ str line) = shown s.pieces
        rw [hpieces, hout, hstdout, shown_append, shown_singleton, List.append_assoc]
        rfl
      · cases hstep
        exact ⟨trivial, fun hfailed => absurd rfl hfailed,
          fun hfailed => absurd rfl hfailed, h.exited, nofun, h.flushed⟩
  · cases hstep

theorem Inv.pclose {ok : Bool} (h : Inv s) (hstep : pclose s ok = some t) : Inv t := by
  unfold Myuclc.pclose at hstep
  split at hstep
  · next hfilter hpc =>
      have hne : s.filter ≠ FilterPc.failed := by
        rw [hfilter]
        nofun
      have hwritten := h.written
      unfold Written at hwritten
      rw [hfilter] at hwritten
      split at hstep
      · cases hstep
        exact ⟨hwritten, fun _ => h.stream hne, fun _ => h.exits hne, h.exited,
          fun _ => h.ended (by rw [hfilter]; rfl), h.flushed⟩
      · cases hstep
        exact ⟨trivial, fun hfailed => absurd rfl hfailed,
          fun hfailed => absurd rfl hfailed, h.exited, nofun, h.flushed⟩
  · cases hstep

theorem Inv.lastNewline {w : WriteAnswer} (h : Inv s)
    (hfull : w.full (s.stdout ++ [newline]) = true)
    (hstep : lastNewline s w = some t) : Inv t := by
  unfold Myuclc.lastNewline at hstep
  split at hstep
  · next hfilter =>
      have hne : s.filter ≠ FilterPc.failed := by
        rw [hfilter]
        nofun
      have hwritten := h.written
      unfold Written at hwritten
      rw [hfilter] at hwritten
      cases hstep
      refine ⟨?_, fun _ => h.stream hne, fun _ => h.exits hne, h.exited, ?_, h.flushed⟩
      · show s.out ++ w.taken (s.stdout ++ [newline]) =
          shown s.pieces ++ promptText ++ [newline]
        rw [WriteAnswer.taken_of_full hfull, hwritten.1, hwritten.2]
        rfl
      · exact fun _ => h.ended (by rw [hfilter]; rfl)
  · cases hstep

theorem Inv.type {c : Byte} (h : Inv s) (hstep : type s c = some t) : Inv t := by
  unfold Myuclc.type at hstep
  split at hstep
  · cases hstep
  · next heof =>
      cases hstep
      have hmyuclc : s.filter ≠ FilterPc.failed ->
          ¬ (s.myuclc = MyuclcPc.exit ∨ s.myuclc = MyuclcPc.exited) :=
        fun hne hexit => heof (h.exits hne hexit).1
      refine ⟨h.written, ?_, fun hne hexit => absurd hexit (hmyuclc hne), h.exited, h.ended,
        h.flushed⟩
      intro hne more hmore
      have hstream := h.stream hne (convert c :: more) (fun htrue => absurd htrue heof)
      have hahead : ahead { s with typed := s.typed ++ [c], input := s.input ++ [c] } =
          ahead s ++ [convert c] := by
        unfold ahead
        simp
      rw [hahead, List.map_append, List.append_assoc, List.append_assoc]
      exact hstream

theorem Inv.typeEof (h : Inv s) (hstep : typeEof s = some t) : Inv t := by
  unfold Myuclc.typeEof at hstep
  split at hstep
  · cases hstep
  · next heof =>
      cases hstep
      refine ⟨h.written, ?_, ?_, h.exited, h.ended, h.flushed⟩
      · intro hne more _
        exact h.stream hne more (fun htrue => absurd htrue heof)
      · intro hne hexit
        exact ⟨rfl, (h.exits hne hexit).2⟩

theorem Inv.after {l : Label} (h : Inv s) (hC : NoLoss s l)
    (hstep : step k s l = some t) : Inv t := by
  cases l with
  | type c => exact h.type hstep
  | typeEof => exact h.typeEof hstep
  | kill => exact hC.elim
  | getchar => exact h.getchar hstep
  | putchar => exact h.putchar hstep
  | write n => exact h.write hstep
  | flushed => exact h.flushed_step hstep
  | prompt w => exact h.prompt hC hstep
  | read n => exact h.read hstep
  | fgets => exact h.fgets hstep
  | fputs ok => exact h.fputs hstep
  | pclose ok => exact h.pclose hstep
  | newline w => exact h.lastNewline hC hstep

theorem reachable_inv (h : (machine k).ReachableUnder NoLoss s) : Inv s :=
  Machine.invariant_under (fun _ hs => hs ▸ start_inv)
    (fun _ _ _ hs hC hst => hs.after hC hst) h

theorem Inv.session (h : Inv s) (hexited : s.filter = FilterPc.exited) :
    s.eof = true ∧ s.out = session s.input := by
  have hne : s.filter ≠ FilterPc.failed := by
    rw [hexited]
    nofun
  rcases h.ended (by rw [hexited]; rfl) with ⟨hmyuclc, hpipe, hfpin⟩
  rcases h.ahead_eq hne hpipe hmyuclc with ⟨heof, hahead⟩
  refine ⟨heof, ?_⟩
  have hstream := h.stream hne [] (fun _ => rfl)
  have hwritten := h.written
  unfold Written at hwritten
  rw [hexited] at hwritten
  rw [hahead, hfpin, List.append_nil] at hstream
  have hpieces : chunks LINE (s.input.map convert) = s.pieces :=
    hstream.trans (List.append_nil s.pieces)
  unfold Myuclc.session
  rw [hpieces]
  exact hwritten

end

/-- When `filter` exits with 0 and nothing was lost, the user has seen the session for
the input, in whatever pieces the bytes came through the buffers and the pipe. -/
theorem session_shown {k : Setting} {s : State}
    (h : (machine k).ReachableUnder NoLoss s) (hexited : s.filter = FilterPc.exited) :
    s.out = session s.input :=
  ((reachable_inv h).session hexited).2

def dialogue : List Label :=
  [Label.prompt (WriteAnswer.wrote 8), Label.type 65, Label.getchar, Label.type 98,
    Label.putchar, Label.type 10, Label.getchar, Label.putchar, Label.getchar,
    Label.putchar, Label.write 1, Label.read 1, Label.write 2, Label.read 2, Label.fgets,
    Label.flushed, Label.fputs true, Label.prompt (WriteAnswer.wrote 11)]

def goodbye : List Label :=
  [Label.typeEof, Label.getchar, Label.flushed, Label.fgets, Label.pclose true,
    Label.newline (WriteAnswer.wrote 1)]

def small : Setting where
  bufsiz := 4
  capacity := 2
  bufsiz_pos := by decide
  capacity_pos := by decide

theorem session_shown_dialogue :
    exists s, (machine small).run start (dialogue ++ goodbye) = some s ∧
      s.out = session [65, 98, 10] := by
  have hrun : exists s, (machine small).run start (dialogue ++ goodbye) = some s ∧
      s.filter = FilterPc.exited ∧ s.input = [65, 98, 10] := ⟨_, rfl, rfl, rfl⟩
  have hmeets : (machine small).RunMeets NoLoss start (dialogue ++ goodbye) := by decide
  rcases hrun with ⟨s, hrun, hexited, hinput⟩
  refine ⟨s, hrun, ?_⟩
  have hreachable :=
    Machine.reachableUnder_of_run (Machine.ReachableUnder.init rfl) hmeets hrun
  rw [← hinput]
  exact session_shown hreachable hexited

/-!
# When both processes wait for the user

The steps of the processes come to an end.  Then everything up to the last newline
has been shown, with a prompt behind it, or the session is over.
-/

def Label.own : Label -> Bool
  | Label.type _ => false
  | Label.typeEof => false
  | Label.kill => false
  | _ => true

def Quiet (k : Setting) (s : State) : Prop :=
  forall l, l.own = true -> step k s l = none

/-- A byte in the hand weighs more when there is no room for it. -/
def MyuclcPc.weight (buf : List Byte) : MyuclcPc -> Nat
  | MyuclcPc.getchar => 2
  | MyuclcPc.putchar _ => if buf = [] then 9 else 11
  | MyuclcPc.full _ => 10
  | MyuclcPc.fflush => 3
  | MyuclcPc.exit => 1
  | MyuclcPc.exited => 0

def FilterPc.weight : FilterPc -> Nat
  | FilterPc.fputs _ => 5
  | FilterPc.prompt => 4
  | FilterPc.fgets => 3
  | FilterPc.pclose => 2
  | FilterPc.putchar => 1
  | FilterPc.exited => 0
  | FilterPc.failed => 0

def weight (s : State) : Nat :=
  10 * s.typed.length + s.myuclc.weight s.buf + 5 * s.buf.length + 4 * s.pipe.length +
    3 * s.fpin.length + s.filter.weight

section

variable {k : Setting} {s t : State}

theorem putchar_full_weight {c : Byte} {buf : List Byte} (h : buf ≠ []) :
    (MyuclcPc.putchar c).weight buf = 11 :=
  if_neg h

theorem putchar_weight (c : Byte) (buf : List Byte) :
    9 ≤ (MyuclcPc.putchar c).weight buf ∧ (MyuclcPc.putchar c).weight buf ≤ 11 := by
  by_cases h : buf = []
  · rw [show (MyuclcPc.putchar c).weight buf = 9 from if_pos h]
    exact ⟨Nat.le_refl 9, by decide⟩
  · rw [putchar_full_weight h]
    exact ⟨by decide, Nat.le_refl 11⟩

theorem getchar_lt (h : getchar s = some t) : weight t < weight s := by
  unfold getchar at h
  split at h
  · next c rest hpc htyped =>
      cases h
      have hle := (putchar_weight (convert c) s.buf).2
      unfold weight
      rw [hpc, htyped, List.length_cons]
      show _ + (MyuclcPc.putchar (convert c)).weight s.buf + _ + _ + _ + _ <
        _ + 2 + _ + _ + _ + _
      lia
  · next hpc htyped =>
      split at h
      · cases h
        unfold weight
        rw [hpc]
        show _ + 1 + _ + _ + _ + _ < _ + 2 + _ + _ + _ + _
        lia
      · cases h
  · cases h

theorem putchar_lt (h : putchar k s = some t) : weight t < weight s := by
  unfold putchar at h
  split at h
  · next c hpc =>
      split at h
      · cases h
        unfold weight
        rw [hpc]
        dsimp only
        rw [List.length_append, List.length_singleton]
        have hhand := (putchar_weight c s.buf).1
        split
        · show _ + 3 + _ + _ + _ + _ < _
          lia
        · show _ + 2 + _ + _ + _ + _ < _
          lia
      · next hfull =>
          cases h
          have hne : s.buf ≠ [] := by
            intro hnil
            rw [hnil] at hfull
            exact hfull k.bufsiz_pos
          unfold weight
          rw [hpc, putchar_full_weight hne]
          show _ + 10 + _ + _ + _ + _ < _
          lia
  · cases h

theorem write_lt {n : Nat} (h : write k s n = some t) : weight t < weight s := by
  unfold write at h
  split at h
  · next hwrites =>
      rcases hwrites with ⟨hwrites, hpos, hle⟩
      have hpc : s.myuclc.weight (s.buf.drop n) = s.myuclc.weight s.buf := by
        cases hpc : s.myuclc with
        | putchar c =>
            rw [hpc] at hwrites
            cases hwrites
        | _ => rfl
      split at h
      · cases h
        unfold weight
        show _ + 0 + 5 * 0 + _ + _ + _ < _
        lia
      · split at h
        · cases h
          unfold weight
          dsimp only
          rw [hpc, List.length_drop, List.length_append, List.length_take,
            Nat.min_eq_left hle]
          lia
        · cases h
  · cases h

theorem flushed_lt (h : flushed s = some t) : weight t < weight s := by
  rcases flushed_moves h with ⟨hbuf, ⟨c, hpc, heq⟩ | ⟨hpc, heq⟩ | ⟨hpc, heq⟩⟩
  · cases heq
    unfold weight
    rw [hpc, hbuf]
    show _ + 9 + _ + _ + _ + _ < _ + 10 + _ + _ + _ + _
    lia
  · cases heq
    unfold weight
    rw [hpc, hbuf]
    show _ + 2 + _ + _ + _ + _ < _ + 3 + _ + _ + _ + _
    lia
  · cases heq
    unfold weight
    rw [hpc, hbuf]
    show _ + 0 + _ + _ + _ + _ < _ + 1 + _ + _ + _ + _
    lia

theorem read_lt {n : Nat} (h : read s n = some t) : weight t < weight s := by
  unfold read at h
  split at h
  · next hread =>
      rcases hread with ⟨_, _, hpos, hle⟩
      cases h
      unfold weight
      dsimp only
      rw [List.length_drop, List.length_append, List.length_take, Nat.min_eq_left hle]
      lia
  · cases h

theorem fgets_lt (h : fgets s = some t) : weight t < weight s := by
  unfold fgets at h
  split at h
  · next hcond =>
      split at h
      · next line rest hget =>
          cases h
          rcases fgets_some (by decide) hget with ⟨happend, hne, _⟩
          have hlen := congrArg List.length happend
          rw [List.length_append] at hlen
          have hpos := List.length_pos_iff.mpr hne
          unfold weight
          rw [hcond.1]
          show _ + _ + _ + _ + 3 * rest.length + 5 < _ + _ + _ + _ + _ + 3
          lia
      · cases h
        unfold weight
        rw [hcond.1]
        show _ + _ + _ + _ + _ + 2 < _ + _ + _ + _ + _ + 3
        lia
  · cases h

theorem filter_lt {pc : FilterPc} {out stdout : List Byte}
    (h : pc.weight < s.filter.weight) :
    weight { s with filter := pc, stdout := stdout, out := out } < weight s :=
  Nat.add_lt_add_left h _

theorem own_lt {l : Label} (hown : l.own = true) (h : step k s l = some t) :
    weight t < weight s := by
  cases l with
  | type c => cases hown
  | typeEof => cases hown
  | kill => cases hown
  | getchar => exact getchar_lt h
  | putchar => exact putchar_lt h
  | write n => exact write_lt h
  | flushed => exact flushed_lt h
  | prompt w =>
      have hprompt : prompt s w = some t := h
      unfold prompt at hprompt
      split at hprompt
      · next hfilter =>
          cases hprompt
          exact filter_lt (by rw [hfilter]; decide)
      · cases hprompt
  | read n => exact read_lt h
  | fgets => exact fgets_lt h
  | fputs ok =>
      have hfputs : fputs s ok = some t := h
      unfold fputs at hfputs
      split at hfputs
      · next line hfilter =>
          split at hfputs
          · cases hfputs
            exact filter_lt (by rw [hfilter]; show 4 < 5; decide)
          · cases hfputs
            exact filter_lt (by rw [hfilter]; show 0 < 5; decide)
      · cases hfputs
  | pclose ok =>
      have hpclose : pclose s ok = some t := h
      unfold pclose at hpclose
      split at hpclose
      · next hfilter _ =>
          split at hpclose
          · cases hpclose
            exact filter_lt (by rw [hfilter]; decide)
          · cases hpclose
            exact filter_lt (by rw [hfilter]; decide)
      · cases hpclose
  | newline w =>
      have hnewline : lastNewline s w = some t := h
      unfold lastNewline at hnewline
      split at hnewline
      · next hfilter =>
          cases hnewline
          exact filter_lt (by rw [hfilter]; decide)
      · cases hnewline

theorem Quiet.myuclc (hquiet : Quiet k s) (hpipe : s.pipe = [])
    (hfilter : s.filter ≠ FilterPc.failed) :
    s.myuclc = MyuclcPc.exited ∨
      (s.myuclc = MyuclcPc.getchar ∧ s.typed = [] ∧ s.eof = false) := by
  have hwrite : s.myuclc.writes = true -> s.buf ≠ [] -> False := by
    intro hwrites hbuf
    have hnone : write k s 1 = none := hquiet (Label.write 1) rfl
    have hpos := List.length_pos_iff.mpr hbuf
    unfold write at hnone
    rw [if_pos ⟨hwrites, Nat.one_pos, hpos⟩, if_neg hfilter, hpipe,
      if_pos (show ([] : List Byte).length + 1 ≤ k.capacity from k.capacity_pos)] at hnone
    cases hnone
  have hflushed : flushed s = none := hquiet Label.flushed rfl
  unfold flushed at hflushed
  cases hpc : s.myuclc with
  | exited => exact Or.inl rfl
  | putchar c =>
      have hnone : putchar k s = none := hquiet Label.putchar rfl
      unfold putchar at hnone
      rw [hpc] at hnone
      dsimp only at hnone
      split at hnone
      · cases hnone
      · cases hnone
  | getchar =>
      have hnone : getchar s = none := hquiet Label.getchar rfl
      unfold getchar at hnone
      rw [hpc] at hnone
      cases htyped : s.typed with
      | cons c rest =>
          rw [htyped] at hnone
          cases hnone
      | nil =>
          rw [htyped] at hnone
          dsimp only at hnone
          split at hnone
          · cases hnone
          · next heof => exact Or.inr ⟨rfl, rfl, Bool.eq_false_iff.mpr heof⟩
  | _ =>
      rw [hpc] at hwrite hflushed
      cases hbuf : s.buf with
      | nil =>
          rw [hbuf] at hflushed
          cases hflushed
      | cons c rest =>
          exact (hwrite rfl (by rw [hbuf]; exact List.cons_ne_nil c rest)).elim

theorem Quiet.filter (h : Inv s) (hquiet : Quiet k s) :
    s.filter = FilterPc.failed ∨ s.filter = FilterPc.exited ∨
      (s.filter = FilterPc.fgets ∧ ¬ Ready s ∧ s.pipe = [] ∧
        s.myuclc ≠ MyuclcPc.exited) := by
  cases hfilter : s.filter with
  | failed => exact Or.inl rfl
  | exited => exact Or.inr (Or.inl rfl)
  | prompt =>
      have hnone : prompt s (WriteAnswer.wrote 0) = none := hquiet (Label.prompt _) rfl
      unfold prompt at hnone
      rw [hfilter] at hnone
      cases hnone
  | putchar =>
      have hnone : lastNewline s (WriteAnswer.wrote 0) = none :=
        hquiet (Label.newline _) rfl
      unfold lastNewline at hnone
      rw [hfilter] at hnone
      cases hnone
  | fputs line =>
      have hnone : fputs s true = none := hquiet (Label.fputs true) rfl
      unfold fputs at hnone
      rw [hfilter] at hnone
      cases hnone
  | pclose =>
      have hnone : pclose s true = none := hquiet (Label.pclose true) rfl
      unfold pclose at hnone
      rw [hfilter, (h.ended (by rw [hfilter]; rfl)).1] at hnone
      cases hnone
  | fgets =>
      have hget : ¬ (Ready s ∨ (s.pipe = [] ∧ s.myuclc = MyuclcPc.exited)) := by
        intro hcond
        have hnone : fgets s = none := hquiet Label.fgets rfl
        unfold fgets at hnone
        rw [if_pos ⟨hfilter, hcond⟩] at hnone
        split at hnone
        · cases hnone
        · cases hnone
      have hready : ¬ Ready s := fun hready => hget (Or.inl hready)
      have hpipe : s.pipe = [] := by
        apply Classical.not_not.mp
        intro hpipe
        have hnone : read s 1 = none := hquiet (Label.read 1) rfl
        unfold read at hnone
        rw [if_pos ⟨hfilter, hready, Nat.one_pos, List.length_pos_iff.mpr hpipe⟩] at hnone
        cases hnone
      exact Or.inr (Or.inr ⟨rfl, hready, hpipe,
        fun hexited => hget (Or.inr ⟨hpipe, hexited⟩)⟩)

end

/-- What the user sees when both processes wait: the rest of the input has no
newline. -/
def Shown (s : State) : Prop :=
  (s.filter = FilterPc.exited ∧ s.eof = true ∧ s.out = session s.input) ∨
    (s.eof = false ∧ exists text rest, s.input.map convert = text ++ rest ∧
      newline ∉ rest ∧ s.out = shown (chunks LINE text) ++ promptText)

/-- From any state of a run the two processes stop after so many steps.  If nothing
has been lost and no call has failed, the user has then seen everything up to the last
newline. -/
theorem quiet_shown {k : Setting} {s : State} {ls : List Label} {t : State}
    (hown : forall l, l ∈ ls -> l.own = true) (hrun : (machine k).run s ls = some t) :
    ls.length ≤ weight s ∧
      ((machine k).ReachableUnder NoLoss t -> Quiet k t ->
        t.filter ≠ FilterPc.failed -> Shown t) := by
  constructor
  · have hle := Machine.run_length_le_of (M := machine k) (I := fun _ => True)
      (C := fun l => l.own = true) (fun _ _ _ _ hC hst => ⟨trivial, own_lt hC hst⟩)
      trivial hown hrun
    exact Nat.le_trans (Nat.le_add_right _ _) hle
  · intro hreachable hquiet hne
    have hinv := reachable_inv hreachable
    rcases hquiet.filter hinv with hfailed | hexited | ⟨hfilter, hready, hpipe, hpc⟩
    · exact absurd hfailed hne
    · exact Or.inl ⟨hexited, hinv.session hexited⟩
    · rcases hquiet.myuclc hpipe hne with hexited | ⟨hgetchar, htyped, heof⟩
      · exact absurd hexited hpc
      · right
        have hahead : ahead t = t.fpin ++ t.buf := by
          unfold ahead
          rw [hpipe, hgetchar, htyped]
          show t.fpin ++ (t.buf ++ []) = _
          rw [List.append_nil]
        have hstream := hinv.stream hne [] (fun _ => rfl)
        rw [List.append_nil, List.append_nil, hahead] at hstream
        have hwritten := hinv.written
        unfold Written at hwritten
        rw [hfilter] at hwritten
        refine ⟨heof, t.pieces.flatten, t.fpin ++ t.buf, ?_, ?_, ?_⟩
        · have hall := congrArg List.flatten hstream
          rw [List.flatten_append, chunks_flatten (by decide), chunks_flatten (by decide)]
            at hall
          exact hall
        · intro hmem
          rcases List.mem_append.mp hmem with hmem | hmem
          · exact hready (Or.inl hmem)
          · exact hinv.flushed (by rw [hgetchar]; nofun) hmem
        · rw [chunks_flatten_front (by decide) hstream]
          exact hwritten.1

def lineShown : State where
  typed := [67]
  eof := false
  myuclc := MyuclcPc.getchar
  buf := []
  pipe := []
  fpin := []
  filter := FilterPc.fgets
  stdout := []
  out := promptText ++ [97, 98, 10] ++ promptText
  input := [65, 98, 10, 67]
  pieces := [[97, 98, 10]]

/-- The "c" stays in the buffer of `myuclc`. -/
def waiting : State :=
  { lineShown with typed := [], buf := [99] }

theorem waiting_quiet : Quiet small waiting := by
  intro l hl
  cases l with
  | type c => cases hl
  | typeEof => cases hl
  | kill => cases hl
  | write n =>
      show write small waiting n = none
      unfold write
      exact if_neg (fun h => by cases h.1)
  | read n =>
      show read waiting n = none
      unfold read
      exact if_neg (fun h => absurd (Nat.lt_of_lt_of_le h.2.2.1 h.2.2.2) (Nat.lt_irrefl 0))
  | _ => rfl

theorem quiet_shown_dialogue :
    (machine small).run start (dialogue ++ [Label.type 67]) = some lineShown ∧
      (machine small).run lineShown [Label.getchar, Label.putchar] = some waiting ∧
      [Label.getchar, Label.putchar].length ≤ weight lineShown ∧ Shown waiting := by
  have hmeets : (machine small).RunMeets NoLoss start
      (dialogue ++ [Label.type 67] ++ [Label.getchar, Label.putchar]) := by decide
  have hreachable : (machine small).ReachableUnder NoLoss waiting :=
    Machine.reachableUnder_of_run (Machine.ReachableUnder.init rfl) hmeets rfl
  have hown : forall l, l ∈ [Label.getchar, Label.putchar] -> l.own = true := by decide
  have hboth := quiet_shown hown
    (show (machine small).run lineShown _ = some waiting from rfl)
  exact ⟨rfl, rfl, hboth.1, hboth.2 hreachable waiting_quiet nofun⟩

end Myuclc
end Apue
