import Apue.Foundation.Block
import Apue.Foundation.Fgets

/-!
# Error messages

`err_doit` puts a message together in a buffer of `MAXLINE` bytes: the formatted
message, the error text behind it, and a newline behind both.
-/

namespace Apue
namespace ErrDoit

open Foundation

def MAXLINE : Nat := 4096

/-- `snprintf(b + i, size, ...)` of the text `s`, one store after another. -/
def snprintfAt (b : Buffer) (i size : Nat) (s : List Byte) : Except Nat Buffer :=
  if size = 0 then Except.ok b else strcpy b i (s.take (size - 1))

def strcat (b : Buffer) (s : List Byte) : Except Nat Buffer :=
  strcpy b (str b).length s

/-- ": " -/
def colon : CString :=
  CString.ofBytes [58, 32] (by decide)

def appendError (strerror : CString) (b : Buffer) : Except Nat Buffer :=
  snprintfAt b (str b).length (MAXLINE - (str b).length)
    (colon.append strerror).bytes

/-- What is printed for a formatted message; a store outside of the buffer fails
with its index. -/
def err_doit (errnoflag : Bool) (strerror message : CString)
    (buf : Block MAXLINE) : Except Nat (List Byte) :=
  match snprintfAt buf.bytes 0 MAXLINE message.bytes with
  | Except.error i => Except.error i
  | Except.ok b =>
      match if errnoflag then appendError strerror b else Except.ok b with
      | Except.error i => Except.error i
      | Except.ok b =>
          match strcat b [newline] with
          | Except.error i => Except.error i
          | Except.ok b => Except.ok (str b)

def err_sys (strerror message : CString) (buf : Block MAXLINE) :
    Except Nat (List Byte × Nat) :=
  match err_doit true strerror message buf with
  | Except.error i => Except.error i
  | Except.ok text => Except.ok (text, 1)

def err_ret (strerror message : CString) (buf : Block MAXLINE) :
    Except Nat (List Byte) :=
  err_doit true strerror message buf

def err_quit (strerror message : CString) (buf : Block MAXLINE) :
    Except Nat (List Byte × Nat) :=
  match err_doit false strerror message buf with
  | Except.error i => Except.error i
  | Except.ok text => Except.ok (text, 1)

/-!
# What is to be printed
-/

def fullText (errnoflag : Bool) (strerror message : CString) : CString :=
  if errnoflag then message.append (colon.append strerror) else message

/-- Nothing is stored outside of the buffer, and what is printed is the front of
the text with a single newline at its end. -/
def Prints (text : CString) (r : Except Nat (List Byte)) : Prop :=
  exists p, r = Except.ok (p ++ [newline]) ∧ p <+: text.bytes ∧
    p.getLast? ≠ some newline

/-!
# The buffer
-/

/-- The buffer of `MAXLINE` bytes holds as much of the text as there is room
for. -/
structure Holds (b : Buffer) (text : CString) : Prop where
  length : b.length = MAXLINE
  spells : Spells b (text.take (MAXLINE - 1))

theorem snprintf_message (buf : Block MAXLINE) (message : CString) :
    exists b, snprintfAt buf.bytes 0 MAXLINE message.bytes = Except.ok b ∧
      Holds b message := by
  have hfit : (message.take (MAXLINE - 1)).length < buf.bytes.length := by
    rw [buf.length_eq]
    show (message.bytes.take (MAXLINE - 1)).length < MAXLINE
    rw [List.length_take]
    unfold MAXLINE
    lia
  rcases strcpy_start _ hfit with ⟨b, hcopy, hlen, hspells⟩
  refine ⟨b, ?_, hlen.trans buf.length_eq, hspells⟩
  unfold snprintfAt
  rw [if_neg (by decide)]
  exact hcopy

theorem snprintf_behind {b : Buffer} {text : CString} (h : Holds b text)
    (s : CString) :
    exists b', snprintfAt b (str b).length (MAXLINE - (str b).length) s.bytes =
        Except.ok b' ∧ Holds b' (text.append s) := by
  have hstr : (str b).length = (text.take (MAXLINE - 1)).length :=
    congrArg List.length h.spells.str_eq
  have hlt : (text.take (MAXLINE - 1)).length < MAXLINE := by
    have hlt := h.spells.length_lt
    rw [h.length] at hlt
    exact hlt
  let room := MAXLINE - (text.take (MAXLINE - 1)).length - 1
  have hroom : room = MAXLINE - 1 - text.bytes.length := by
    show MAXLINE - (text.bytes.take (MAXLINE - 1)).length - 1 = _
    rw [List.length_take]
    lia
  have hfit : (text.take (MAXLINE - 1)).length + (s.take room).length < b.length := by
    rw [h.length]
    have hle : (s.take room).length ≤ room := List.length_take_le _ _
    lia
  rcases strcpy_ok _ _ h.spells.front hfit with ⟨b', hcopy, hlen, hspells⟩
  have htext : (text.take (MAXLINE - 1)).append (s.take room) =
      (text.append s).take (MAXLINE - 1) := by
    apply CString.eq_of_bytes
    show text.bytes.take (MAXLINE - 1) ++ s.bytes.take room =
      (text.bytes ++ s.bytes).take (MAXLINE - 1)
    rw [List.take_append, hroom]
  refine ⟨b', ?_, hlen.trans h.length, htext ▸ hspells⟩
  unfold snprintfAt
  rw [hstr, if_neg (by lia)]
  exact hcopy

theorem strcat_newline {b : Buffer} {text : CString} (h : Holds b text)
    (hlen : text.length ≤ MAXLINE - 2) :
    exists b', strcat b [newline] = Except.ok b' ∧ str b' = text.bytes ++ [newline] := by
  let nl : CString := CString.ofBytes [newline] rfl
  have htext : text.take (MAXLINE - 1) = text :=
    CString.take_of_length_le (by lia)
  have hspells := h.spells
  rw [htext] at hspells
  have hfit : text.length + nl.length < b.length := by
    rw [h.length]
    show text.length + 1 < MAXLINE
    unfold MAXLINE at hlen ⊢
    lia
  rcases strcpy_ok text nl hspells.front hfit with ⟨b', hcopy, _, hspells'⟩
  refine ⟨b', ?_, hspells'.str_eq⟩
  unfold strcat
  rw [hspells.str_eq]
  exact hcopy

theorem strcat_outside {b : Buffer} {text : CString} (h : Holds b text)
    (hlen : MAXLINE - 1 ≤ text.length) :
    exists i, strcat b [newline] = Except.error i ∧ MAXLINE ≤ i := by
  have hfull : (str b).length = MAXLINE - 1 := by
    rw [h.spells.str_eq]
    show (text.bytes.take (MAXLINE - 1)).length = MAXLINE - 1
    rw [List.length_take]
    exact Nat.min_eq_left hlen
  have hbig : b.length ≤ (str b).length + [newline].length := by
    rw [hfull, h.length]
    decide
  rcases strcpy_error hbig with ⟨i, hcopy, hle⟩
  rw [h.length] at hle
  exact ⟨i, hcopy, hle⟩

/-!
# err_doit
-/

theorem err_doit_eq (errnoflag : Bool) (strerror message : CString)
    (buf : Block MAXLINE) :
    exists b, Holds b (fullText errnoflag strerror message) ∧
      err_doit errnoflag strerror message buf =
        match strcat b [newline] with
        | Except.error i => Except.error i
        | Except.ok b => Except.ok (str b) := by
  rcases snprintf_message buf message with ⟨b, hmessage, hb⟩
  unfold err_doit
  rw [hmessage]
  cases errnoflag with
  | false => exact ⟨b, hb, rfl⟩
  | true =>
      rcases snprintf_behind hb (colon.append strerror) with ⟨b', happend, hb'⟩
      refine ⟨b', hb', ?_⟩
      dsimp only
      unfold appendError
      rw [if_pos rfl, happend]

theorem err_doit_short {errnoflag : Bool} {strerror message : CString}
    (buf : Block MAXLINE)
    (hlen : (fullText errnoflag strerror message).length ≤ MAXLINE - 2) :
    err_doit errnoflag strerror message buf =
      Except.ok ((fullText errnoflag strerror message).bytes ++ [newline]) := by
  rcases err_doit_eq errnoflag strerror message buf with ⟨b, hb, heq⟩
  rcases strcat_newline hb hlen with ⟨b', hcat, hstr⟩
  rw [heq, hcat]
  dsimp only
  rw [hstr]

theorem err_doit_long {errnoflag : Bool} {strerror message : CString}
    (buf : Block MAXLINE)
    (hlen : MAXLINE - 1 ≤ (fullText errnoflag strerror message).length) :
    exists i, err_doit errnoflag strerror message buf = Except.error i ∧
      MAXLINE ≤ i := by
  rcases err_doit_eq errnoflag strerror message buf with ⟨b, hb, heq⟩
  rcases strcat_outside hb hlen with ⟨i, hcat, hle⟩
  rw [heq, hcat]
  exact ⟨i, rfl, hle⟩

/-- A message is printed as it should be when it leaves room for the newline and
its terminator and has no newline at its end, and only then. -/
theorem err_doit_prints_iff (errnoflag : Bool) (strerror message : CString)
    (buf : Block MAXLINE) :
    Prints (fullText errnoflag strerror message)
        (err_doit errnoflag strerror message buf) ↔
      (fullText errnoflag strerror message).length ≤ MAXLINE - 2 ∧
        (fullText errnoflag strerror message).bytes.getLast? ≠ some newline := by
  constructor
  · intro h
    rcases h with ⟨p, hp, _, hlast⟩
    have hlen : (fullText errnoflag strerror message).length ≤ MAXLINE - 2 := by
      apply Nat.le_of_not_lt
      intro hbig
      have hge : MAXLINE - 1 ≤ (fullText errnoflag strerror message).length := hbig
      rcases err_doit_long buf hge with ⟨i, herror, _⟩
      rw [herror] at hp
      cases hp
    rw [err_doit_short buf hlen] at hp
    have heq := List.append_cancel_right (Except.ok.inj hp)
    rw [heq]
    exact ⟨hlen, hlast⟩
  · intro h
    exact ⟨_, err_doit_short buf h.1, List.prefix_rfl, h.2⟩

/-- "myshell: couldn't execute: " -/
def couldntExecute : CString :=
  CString.ofBytes [109, 121, 115, 104, 101, 108, 108, 58, 32, 99, 111, 117, 108,
    100, 110, 39, 116, 32, 101, 120, 101, 99, 117, 116, 101, 58, 32] rfl

def letters (n : Nat) : CString :=
  CString.replicate n 97 letter_ne_nul

/-- The longest line that `myshell` takes whole cannot be reported. -/
theorem long_name_outside :
    exists i, err_ret (CString.ofBytes [63] rfl)
        (couldntExecute.append (letters (MAXLINE - 2))) (Block.zeros MAXLINE) =
          Except.error i ∧
      MAXLINE ≤ i := by
  apply err_doit_long
  show MAXLINE - 1 ≤ ((couldntExecute.append (letters (MAXLINE - 2))).append _).length
  rw [CString.append_length, CString.append_length]
  have hletters : (letters (MAXLINE - 2)).length = MAXLINE - 2 :=
    CString.replicate_length _ _
  have hpos : 1 ≤ couldntExecute.length := by decide
  lia

end ErrDoit
end Apue
