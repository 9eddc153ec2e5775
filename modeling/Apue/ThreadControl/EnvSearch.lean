import Apue.ThreadControl.Thrsafe

/-!
# The search in the environment

The search loop of `getenv_l` is the same in the two programs.  Here it runs over
the memory of the strings, so that reading past a terminator is a result of its own,
and it is compared with a search for the text before the first equals sign.
-/

namespace Apue
namespace EnvSearch

open Foundation Environ Thrsafe

/-- A string in memory: its bytes and the terminator, and nothing to read behind. -/
def memory (s : CString) : List Byte :=
  s.bytes ++ [0]

/-- `strncmp` in memory; nothing when it reads past the end of a string. -/
def strncmp : List Byte -> List Byte -> Nat -> Option Int
  | _, _, 0 => some 0
  | [], _, _ + 1 => none
  | _ :: _, [], _ + 1 => none
  | x :: xs, y :: ys, n + 1 =>
      if x ≠ y then some ((x.toNat : Int) - y.toNat)
      else if x = 0 then some 0
      else strncmp xs ys n

/-- The string that `strcpy` reads, up to the terminator. -/
def readString : List Byte -> Option (List Byte)
  | [] => none
  | x :: rest => if x = 0 then some [] else (readString rest).map (fun s => x :: s)

/-- `strncmp(name, environ[i], len) == 0 && environ[i][len] == '='`. -/
def test (name entry : CString) (len : Int) : Option Bool :=
  match strncmp (memory name) (memory entry) (size len) with
  | none => none
  | some order =>
      if order = 0 then
        (byteAt (memory entry) len).map (fun c => c == '='.toUInt8)
      else
        some false

/-- The text at `&environ[i][len+1]` where the loop stops, and `some none` when it
comes to the end of the list; the index is an `int`. -/
def searchLoop (name : CString) (len : Int) :
    Nat -> List CString -> Option (Option (List Byte))
  | _, [] => some none
  | i, entry :: rest =>
      match test name entry len with
      | none => none
      | some true =>
          (readString ((memory entry).drop (len.toNat + 1))).map some
      | some false =>
          if i < INT_MAX.toNat then searchLoop name len (i + 1) rest else none

/-- `getenv_l` with `len = strlen(name)`. -/
def search (name : CString) (environ : List CString) : Option (Option (List Byte)) :=
  searchLoop name (len name) 0 environ

/-!
# Keys

What the environment means: an entry has a key when it has an equals sign, and then
the key is what comes before the first one.
-/

def isEquals (b : Byte) : Bool :=
  b == '='.toUInt8

def key (entry : CString) : Option (List Byte) :=
  if entry.bytes.any isEquals then
    some (entry.bytes.takeWhile (fun b => !isEquals b))
  else none

def text (entry : CString) : List Byte :=
  (entry.bytes.dropWhile (fun b => !isEquals b)).tail

def lookup (environ : List CString) (name : CString) : Option (List Byte) :=
  (environ.find? (fun entry => key entry == some name.bytes)).map text

def isEntry (name entry : CString) : Bool :=
  (name.bytes ++ ['='.toUInt8]).isPrefixOf entry.bytes

theorem isEntry_iff {name entry : CString} :
    isEntry name entry = true ↔
      exists v, entry.bytes = name.bytes ++ '='.toUInt8 :: v := by
  unfold isEntry
  rw [List.isPrefixOf_iff_prefix]
  constructor
  · rintro ⟨v, hv⟩
    exact ⟨v, by rw [← hv, List.append_assoc]; rfl⟩
  · rintro ⟨v, hv⟩
    exact ⟨v, by rw [hv, List.append_assoc]; rfl⟩

/-!
# The reads
-/

theorem strncmp_memory {s t : List Byte} (n : Nat) (hs : forall b, b ∈ s -> b ≠ 0)
    (ht : forall b, b ∈ t -> b ≠ 0) :
    strncmp (s ++ [0]) (t ++ [0]) n = some (Foundation.strncmp s t n) := by
  induction s generalizing t n with
  | nil =>
      cases n with
      | zero => cases t <;> rfl
      | succ n =>
          cases t with
          | nil => rfl
          | cons y ys =>
              have hy : 0 ≠ y := (ht y List.mem_cons_self).symm
              change (if 0 ≠ y then some ((0 : Int) - y.toNat) else _) = _
              rw [if_pos hy, Int.zero_sub]
              rfl
  | cons x xs ih =>
      cases n with
      | zero => cases t <;> rfl
      | succ n =>
          have hx : x ≠ 0 := hs x List.mem_cons_self
          have hxs := fun b hb => hs b (List.mem_cons_of_mem x hb)
          cases t with
          | nil =>
              change (if x ≠ 0 then _ else _) = some (x.toNat : Int)
              rw [if_pos hx]
              simp
          | cons y ys =>
              have hys := fun b hb => ht b (List.mem_cons_of_mem y hb)
              simp only [List.cons_append, strncmp, Foundation.strncmp]
              by_cases heq : x = y
              · rw [if_neg (not_not_intro heq), if_neg hx, if_pos heq]
                exact ih n hxs hys
              · rw [if_pos heq, if_neg heq]

theorem readString_memory {s : List Byte} (hs : forall b, b ∈ s -> b ≠ 0) :
    readString (s ++ [0]) = some s := by
  induction s with
  | nil => rfl
  | cons x xs ih =>
      have hx : x ≠ 0 := hs x List.mem_cons_self
      rw [List.cons_append, readString, if_neg hx,
        ih (fun b hb => hs b (List.mem_cons_of_mem x hb))]
      rfl

theorem test_memory (name entry : CString) :
    test name entry (len name) = Environ.test name entry := by
  unfold test Environ.test
  have hreads : strncmp (memory name) (memory entry) (size (len name)) =
      some (Foundation.strncmp name.bytes entry.bytes (size (len name))) :=
    strncmp_memory _ name.nulFree entry.nulFree
  rw [hreads]
  rfl

theorem equals_inside {name entry : CString}
    (h : Environ.test name entry = some true) :
    (len name).toNat < entry.bytes.length := by
  unfold Environ.test byteAt at h
  split at h
  · split at h
    · cases h
    · rcases Option.map_eq_some_iff.mp h with ⟨c, hc, hequals⟩
      rw [beq_iff_eq] at hequals
      rcases Nat.lt_trichotomy (len name).toNat entry.bytes.length with
        hlt | heq | hgt
      · exact hlt
      · rw [heq, List.getElem?_concat_length] at hc
        cases hc
        exact absurd hequals (by decide)
      · rw [List.getElem?_eq_none (by rw [List.length_append]; exact hgt)] at hc
        cases hc
  · cases h

theorem readString_value {name entry : CString}
    (h : Environ.test name entry = some true) :
    readString ((memory entry).drop ((len name).toNat + 1)) =
      some (value name entry).bytes := by
  have hinside := equals_inside h
  rw [memory, List.drop_append_of_le_length hinside, ← Environ.value_bytes]
  exact readString_memory (value name entry).nulFree

theorem searchLoop_memory (name : CString) (i : Nat) (environ : List CString) :
    searchLoop name (len name) i environ =
      match Thrsafe.searchLoop name i environ with
      | Except.error _ => none
      | Except.ok v => some (v.map CString.bytes) := by
  induction environ generalizing i with
  | nil => rfl
  | cons entry rest ih =>
      rw [searchLoop, Thrsafe.searchLoop, test_memory]
      cases htest : Environ.test name entry with
      | none => rfl
      | some b =>
          cases b with
          | true =>
              dsimp only
              rw [readString_value htest]
              rfl
          | false =>
              by_cases hlt : i < INT_MAX.toNat
              · simp only [if_pos hlt]
                exact ih (i + 1)
              · simp only [if_neg hlt]

theorem search_of_found {name : CString} {environ : List CString}
    {v : Option CString} (h : found environ name = Except.ok v) :
    search name environ = some (v.map CString.bytes) := by
  unfold found at h
  unfold search
  rw [searchLoop_memory, h]

/-!
# Names of any length but the longest
-/

theorem value_bytes_eq {name entry : CString} {v : List Byte}
    (hname : (name.length : Int) ≤ INT_MAX)
    (h : entry.bytes = name.bytes ++ '='.toUInt8 :: v) :
    (value name entry).bytes = v := by
  rw [Environ.value_bytes, len_of_le hname, Int.toNat_natCast, h]
  change (name.bytes ++ _).drop (name.bytes.length + 1) = v
  rw [← List.drop_drop, List.drop_left]
  rfl

theorem byteAt_behind {name entry : CString} {rest : List Byte}
    (h : name.bytes ++ rest = entry.bytes) :
    byteAt (entry.bytes ++ [0]) name.length = (rest ++ [0])[0]? := by
  unfold byteAt CString.length
  rw [if_neg (by omega), Int.toNat_natCast, ← h, List.append_assoc,
    List.getElem?_append_right (Nat.le_refl _), Nat.sub_self]

/-- The test reads no further than the terminator, and decides what belongs to the
name. -/
theorem test_eq_isEntry {name : CString} (hname : (name.length : Int) ≤ INT_MAX)
    (entry : CString) : Environ.test name entry = some (isEntry name entry) := by
  have hcmp := strncmp_length_eq_zero_iff (t := entry.bytes) name.nulFree
  unfold Environ.test
  rw [size_of_le hname, len_of_le hname]
  change (if Foundation.strncmp name.bytes entry.bytes name.bytes.length = 0 then _
    else _) = _
  split
  · next hzero =>
      rcases hcmp.mp hzero with ⟨rest, hrest⟩
      rw [byteAt_behind hrest]
      cases rest with
      | nil =>
          have hnot : isEntry name entry = false := by
            apply Bool.eq_false_iff.mpr
            intro hentry
            rcases isEntry_iff.mp hentry with ⟨v, hv⟩
            rw [← hrest] at hv
            cases List.append_cancel_left hv
          rw [hnot]
          rfl
      | cons c v =>
          have hiff : isEntry name entry = (c == '='.toUInt8) := by
            rw [Bool.eq_iff_iff, isEntry_iff, beq_iff_eq, ← hrest]
            constructor
            · rintro ⟨w, hw⟩
              cases List.append_cancel_left hw
              rfl
            · intro hc
              exact ⟨v, by rw [hc]⟩
          rw [hiff]
          rfl
  · next hne =>
      have hnot : isEntry name entry = false := by
        apply Bool.eq_false_iff.mpr
        intro hentry
        rcases isEntry_iff.mp hentry with ⟨v, hv⟩
        exact hne (hcmp.mpr ⟨_, hv.symm⟩)
      rw [hnot]

theorem searchLoop_find {name : CString} (hname : (name.length : Int) ≤ INT_MAX)
    {i : Nat} {environ : List CString}
    (h : ((i + environ.findIdx (isEntry name) : Nat) : Int) ≤ INT_MAX) :
    Thrsafe.searchLoop name i environ =
      Except.ok ((environ.find? (isEntry name)).map (value name)) := by
  induction environ generalizing i with
  | nil => rfl
  | cons entry rest ih =>
      rw [Thrsafe.searchLoop, test_eq_isEntry hname]
      cases hentry : isEntry name entry with
      | true =>
          rw [List.find?_cons_of_pos hentry]
          rfl
      | false =>
          have hidx : (entry :: rest).findIdx (isEntry name) =
              rest.findIdx (isEntry name) + 1 := by
            rw [List.findIdx_cons, hentry]
            rfl
          rw [hidx] at h
          have hlt : i < INT_MAX.toNat := by omega
          rw [List.find?_cons_of_neg (by rw [hentry]; exact Bool.false_ne_true)]
          dsimp only
          rw [if_pos hlt]
          apply ih
          omega

/-!
# What is found
-/

theorem cut_at_equals {k v : List Byte} (hk : '='.toUInt8 ∉ k) :
    (k ++ '='.toUInt8 :: v).takeWhile (fun b => !isEquals b) = k ∧
      (k ++ '='.toUInt8 :: v).dropWhile (fun b => !isEquals b) =
        '='.toUInt8 :: v := by
  induction k with
  | nil => exact ⟨rfl, rfl⟩
  | cons b k ih =>
      have hb : isEquals b = false := by
        simpa [isEquals] using fun heq => hk (List.mem_cons.mpr (Or.inl (Eq.symm heq)))
      rcases ih (fun hmem => hk (List.mem_cons_of_mem b hmem)) with ⟨htake, hdrop⟩
      simp [hb, htake, hdrop]

theorem dropWhile_equals {bytes : List Byte} (h : bytes.any isEquals = true) :
    exists v, bytes.dropWhile (fun b => !isEquals b) = '='.toUInt8 :: v := by
  induction bytes with
  | nil => cases h
  | cons b rest ih =>
      cases hb : isEquals b with
      | true =>
          rw [List.dropWhile_cons_of_neg (by simp [hb])]
          exact ⟨rest, by rw [eq_of_beq hb]⟩
      | false =>
          rw [List.dropWhile_cons_of_pos (by simp [hb])]
          apply ih
          simpa [hb] using h

theorem key_eq_some_iff {name entry : CString} (h : '='.toUInt8 ∉ name.bytes) :
    key entry = some name.bytes ↔ isEntry name entry = true := by
  rw [isEntry_iff]
  constructor
  · intro hkey
    unfold key at hkey
    split at hkey
    · next hany =>
        rcases dropWhile_equals hany with ⟨v, hv⟩
        refine ⟨v, ?_⟩
        rw [← Option.some.inj hkey, ← hv]
        exact List.takeWhile_append_dropWhile.symm
    · cases hkey
  · rintro ⟨v, hv⟩
    unfold key
    rw [hv, (cut_at_equals h).1]
    simp [isEquals]

theorem text_eq_value {name entry : CString} (h : '='.toUInt8 ∉ name.bytes)
    (hname : (name.length : Int) ≤ INT_MAX) (hentry : isEntry name entry = true) :
    text entry = (value name entry).bytes := by
  rcases isEntry_iff.mp hentry with ⟨v, hv⟩
  unfold text
  rw [value_bytes_eq hname hv, hv, (cut_at_equals h).2]
  rfl

theorem lookup_eq_find {name : CString} (environ : List CString)
    (h : '='.toUInt8 ∉ name.bytes) :
    lookup environ name = (environ.find? (isEntry name)).map text := by
  have htest : (fun entry => key entry == some name.bytes) = isEntry name := by
    funext entry
    rw [Bool.eq_iff_iff, beq_iff_eq]
    exact key_eq_some_iff h
  unfold lookup
  rw [htest]

theorem found_eq_lookup {name : CString} {environ : List CString}
    (h : '='.toUInt8 ∉ name.bytes) (hname : (name.length : Int) ≤ INT_MAX)
    (hidx : (environ.findIdx (isEntry name) : Int) ≤ INT_MAX) :
    exists v, found environ name = Except.ok v ∧
      v.map CString.bytes = lookup environ name := by
  have hfound : found environ name = _ :=
    searchLoop_find hname (i := 0) (by rw [Nat.zero_add]; exact hidx)
  refine ⟨_, hfound, ?_⟩
  rw [lookup_eq_find environ h, Option.map_map]
  cases hfind : environ.find? (isEntry name) with
  | none => rfl
  | some entry =>
      exact congrArg some (text_eq_value h hname (List.find?_some hfind)).symm

/-- What is looked up comes from an entry of just this name, neither a longer nor a
shorter one. -/
theorem lookup_entry {environ : List CString} {name : CString} {v : List Byte}
    (h : lookup environ name = some v) (hname : '='.toUInt8 ∉ name.bytes) :
    exists entry, entry ∈ environ ∧ entry.bytes = name.bytes ++ '='.toUInt8 :: v := by
  rw [lookup_eq_find environ hname] at h
  rcases Option.map_eq_some_iff.mp h with ⟨entry, hfind, hv⟩
  rcases isEntry_iff.mp (List.find?_some hfind) with ⟨w, hw⟩
  have htext : text entry = w := by
    unfold text
    rw [hw, (cut_at_equals hname).2]
    rfl
  rw [← hv, htext]
  exact ⟨entry, List.mem_of_find?_eq_some hfind, hw⟩

theorem getenv_l_lookup {environ : List CString} {name : CString} {v : List Byte}
    {envbuf : Buffer} (h : lookup environ name = some v)
    (hequals : '='.toUInt8 ∉ name.bytes) (hname : (name.length : Int) ≤ INT_MAX)
    (hidx : (environ.findIdx (isEntry name) : Int) ≤ INT_MAX)
    (hfits : v.length < envbuf.length) :
    exists b, getenv_l name envbuf environ = Except.ok (some b) ∧ str b = v := by
  rcases found_eq_lookup hequals hname hidx with ⟨w, hfound, hw⟩
  rw [h] at hw
  rcases Option.map_eq_some_iff.mp hw with ⟨c, hc, hbytes⟩
  rw [hc] at hfound
  rw [← hbytes] at hfits
  rcases getenv_l_some hfound hfits with ⟨b, hcall, hspells⟩
  exact ⟨b, hcall, hspells.str_eq.trans hbytes⟩

theorem getenv_l_lookup_none {environ : List CString} {name : CString}
    (envbuf : Buffer) (h : lookup environ name = none)
    (hequals : '='.toUInt8 ∉ name.bytes) (hname : (name.length : Int) ≤ INT_MAX)
    (hidx : (environ.findIdx (isEntry name) : Int) ≤ INT_MAX) :
    getenv_l name envbuf environ = Except.ok none := by
  rcases found_eq_lookup hequals hname hidx with ⟨w, hfound, hw⟩
  rw [h] at hw
  rw [Option.map_eq_none_iff.mp hw] at hfound
  exact getenv_l_none envbuf hfound

/-!
# The longest names

`len` is smaller than the length of the name, so that an entry of a shorter name is
found, or it is negative, so that the byte in front of an entry is read.
-/

/-- The entry whose name is the part that `len` covers. -/
def shortEntry (name : CString) (v : CString) : CString :=
  (name.take (len name).toNat).append
    ((CString.ofBytes ['='.toUInt8] rfl).append v)

theorem shortEntry_bytes (name v : CString) :
    (shortEntry name v).bytes =
      name.bytes.take (len name).toNat ++ '='.toUInt8 :: v.bytes :=
  rfl

theorem search_short {name : CString} (h : 0 ≤ len name) (v : CString) :
    search name [shortEntry name v] = some (some v.bytes) := by
  have hle : (len name).toNat ≤ name.bytes.length := by
    have hlen := len_le name
    unfold CString.length at hlen
    omega
  have htake : (name.bytes.take (len name).toNat).length = (len name).toNat := by
    rw [List.length_take]
    exact Nat.min_eq_left hle
  have htest : Environ.test name (shortEntry name v) = some true := by
    unfold Environ.test byteAt
    rw [size_of_nonneg h, shortEntry_bytes, strncmp_take name.bytes _ hle, if_pos rfl,
      if_neg (Int.not_lt.mpr h), List.append_assoc,
      List.getElem?_append_right (Nat.le_of_eq htake), htake, Nat.sub_self]
    rfl
  have hvalue : value name (shortEntry name v) = v := by
    apply CString.eq_of_bytes
    rw [Environ.value_bytes, shortEntry_bytes, ← List.drop_drop, List.drop_left' htake]
    rfl
  have hfound : found [shortEntry name v] name = Except.ok (some v) := by
    unfold found
    rw [Thrsafe.searchLoop, htest, hvalue]
  rw [search_of_found hfound]
  rfl

theorem lookup_short {name : CString} (hequals : '='.toUInt8 ∉ name.bytes)
    (h : INT_MAX < (name.length : Int)) (hlen : 0 ≤ len name) (v : CString) :
    lookup [shortEntry name v] name = none := by
  have hnot : isEntry name (shortEntry name v) = false := by
    apply Bool.eq_false_iff.mpr
    intro hentry
    have hkey := (key_eq_some_iff hequals).mpr hentry
    have hshort : '='.toUInt8 ∉ name.bytes.take (len name).toNat :=
      fun hmem => hequals (List.mem_of_mem_take hmem)
    unfold key at hkey
    rw [shortEntry_bytes, (cut_at_equals hshort).1] at hkey
    split at hkey
    · have hlength := congrArg List.length (Option.some.inj hkey)
      have hlt := len_lt h
      rw [List.length_take] at hlength
      unfold CString.length at hlt
      omega
    · cases hkey
  rw [lookup_eq_find _ hequals, List.find?_cons_of_neg (Bool.eq_false_iff.mp hnot)]
  rfl

theorem search_negative {name : CString} (h : len name < 0) :
    search name [name] = none := by
  unfold search
  rw [searchLoop_memory, Thrsafe.searchLoop, Environ.test, strncmp_self, if_pos rfl,
    byteAt, if_pos h]
  rfl

end EnvSearch
end Apue
