import Mathlib.Data.List.TakeWhile

namespace KernelHacking

/-!
# NUL-terminated strings

A pointer is seen through the bytes that are mapped from it on.  Scanning for
the terminating NUL byte either finds one or runs off the mapped bytes, which
is a fault; `cstr` returns the string in the first case and `none` in the
second.  The formatted printing functions below are those of a format that is
a single `%s`: they scan their argument to its end whatever the size of the
output, and store as much of it as fits together with a terminator.
-/

/-- The string at a pointer, given the bytes mapped from there on. -/
def cstr : List UInt8 → Option (List UInt8)
  | [] => none
  | byte :: rest => if byte = 0 then some [] else (cstr rest).map (byte :: ·)

/-- The longest prefix without a NUL byte. -/
def nulFreePrefix (bytes : List UInt8) : List UInt8 :=
  bytes.takeWhile (fun byte => byte != 0)

theorem zero_not_mem_nulFreePrefix (bytes : List UInt8) : 0 ∉ nulFreePrefix bytes := by
  intro member
  have every := List.all_eq_true.mp (List.all_takeWhile (p := (· != 0)) (l := bytes)) 0 member
  exact absurd every (by decide)

theorem nulFreePrefix_cons {byte : UInt8} (nonzero : byte ≠ 0) (rest : List UInt8) :
    nulFreePrefix (byte :: rest) = byte :: nulFreePrefix rest :=
  List.takeWhile_cons_of_pos (bne_iff_ne.mpr nonzero)

/-- Bytes in front that contain no NUL are all kept. -/
theorem nulFreePrefix_append {first : List UInt8} (free : 0 ∉ first) (second : List UInt8) :
    nulFreePrefix (first ++ second) = first ++ nulFreePrefix second := by
  induction first with
  | nil => rfl
  | cons byte rest ih =>
      rw [List.mem_cons, not_or] at free
      rw [List.cons_append, nulFreePrefix_cons (Ne.symm free.1), ih free.2]
      rfl

theorem nulFreePrefix_eq_self_iff (bytes : List UInt8) :
    nulFreePrefix bytes = bytes ↔ 0 ∉ bytes := by
  constructor
  · intro whole
    rw [← whole]
    exact zero_not_mem_nulFreePrefix bytes
  · intro free
    have whole := nulFreePrefix_append free []
    rw [List.append_nil] at whole
    exact whole.trans (List.append_nil bytes)

/-- A string is found exactly where it stands before the first NUL byte. -/
theorem cstr_eq_some_iff (mapped text : List UInt8) :
    cstr mapped = some text ↔ 0 ∉ text ∧ ∃ rest, mapped = text ++ 0 :: rest := by
  induction mapped generalizing text with
  | nil => simp [cstr]
  | cons byte tail ih =>
      rw [cstr]
      by_cases zero : byte = 0
      · rw [if_pos zero]
        constructor
        · intro same
          cases same
          exact ⟨List.not_mem_nil, tail, by rw [zero]; rfl⟩
        · rintro ⟨free, rest, split⟩
          cases text with
          | nil => rfl
          | cons head text =>
              have same : head = 0 := (List.cons.inj split).1.symm.trans zero
              exact absurd (List.mem_cons.mpr (Or.inl same.symm)) free
      · rw [if_neg zero]
        constructor
        · intro found
          rcases Option.map_eq_some_iff.mp found with ⟨text, later, rfl⟩
          rcases (ih text).mp later with ⟨free, rest, split⟩
          refine ⟨?_, rest, by rw [split]; rfl⟩
          intro member
          rcases List.mem_cons.mp member with same | member
          · exact zero same.symm
          · exact free member
        · rintro ⟨free, rest, split⟩
          cases text with
          | nil => exact absurd (List.cons.inj split).1 zero
          | cons head text =>
              rcases List.cons.inj split with ⟨rfl, splitTail⟩
              apply Option.map_eq_some_iff.mpr
              exact ⟨text, (ih text).mpr ⟨fun member => free (List.mem_cons_of_mem _ member),
                rest, splitTail⟩, rfl⟩

theorem cstr_append_zero {text : List UInt8} (free : 0 ∉ text) (rest : List UInt8) :
    cstr (text ++ 0 :: rest) = some text :=
  (cstr_eq_some_iff _ _).mpr ⟨free, rest, rfl⟩

/-- Scanning succeeds exactly when there is a NUL byte to find. -/
theorem cstr_isSome_iff (mapped : List UInt8) : (cstr mapped).isSome = true ↔ 0 ∈ mapped := by
  induction mapped with
  | nil => simp [cstr]
  | cons byte tail ih =>
      rw [cstr]
      by_cases zero : byte = 0
      · simp [zero]
      · rw [if_neg zero, Option.isSome_map, ih]
        simp [Ne.symm zero]

/-- A string that ends in the first bytes is not changed by what follows them. -/
theorem cstr_append_of_mem {first : List UInt8} (ends : 0 ∈ first) (second : List UInt8) :
    cstr (first ++ second) = cstr first := by
  induction first with
  | nil => cases ends
  | cons byte rest ih =>
      rw [List.cons_append, cstr, cstr]
      by_cases zero : byte = 0
      · rw [if_pos zero, if_pos zero]
      · rw [if_neg zero, if_neg zero]
        rcases List.mem_cons.mp ends with same | later
        · exact absurd same.symm zero
        · rw [ih later]

/-- The number of bytes that a scan for the terminating NUL looks at, with the
unmapped byte on which it faults. -/
def scanned : List UInt8 → Nat
  | [] => 1
  | byte :: rest => if byte = 0 then 1 else scanned rest + 1

/-- A scan stays within some bytes if it stops at a NUL byte or at unmapped
memory there. -/
theorem scanned_le_iff (mapped : List UInt8) (count : Nat) :
    scanned mapped ≤ count ↔ 0 ∈ mapped.take count ∨ mapped.length < count := by
  induction mapped generalizing count with
  | nil =>
      rw [scanned, List.take_nil, List.length_nil]
      simp only [List.not_mem_nil, false_or]
      exact Nat.succ_le_iff
  | cons byte rest ih =>
      rw [scanned]
      cases count with
      | zero =>
          have positive : ¬ (if byte = 0 then 1 else scanned rest + 1) ≤ 0 := by
            split <;> omega
          refine iff_of_false positive ?_
          simp
      | succ count =>
          rw [List.take_succ_cons, List.mem_cons, List.length_cons]
          by_cases zero : byte = 0
          · rw [if_pos zero]
            exact iff_of_true (Nat.le_add_left ..) (Or.inl (Or.inl zero.symm))
          · rw [if_neg zero, Nat.add_le_add_iff_right, ih count, Nat.add_lt_add_iff_right]
            simp only [Ne.symm zero, false_or]

/-- What a bounded copy takes of a string depends only on as many mapped bytes. -/
theorem cstr_take {mapped text : List UInt8} (found : cstr mapped = some text) (n : Nat) :
    text.take n = nulFreePrefix (mapped.take n) := by
  rcases (cstr_eq_some_iff _ _).mp found with ⟨free, rest, rfl⟩
  have short : 0 ∉ text.take n := fun member => free (List.mem_of_mem_take member)
  rw [List.take_append, nulFreePrefix_append short]
  cases n - text.length <;> simp [nulFreePrefix]

/-! ## Printing a string into a buffer -/

/-- Store bytes at the start of a buffer. -/
def overwrite (dst bytes : List UInt8) : List UInt8 :=
  bytes ++ dst.drop bytes.length

theorem overwrite_length {dst bytes : List UInt8} (fits : bytes.length ≤ dst.length) :
    (overwrite dst bytes).length = dst.length := by
  simp only [overwrite, List.length_append, List.length_drop]
  omega

/-- The bytes stored by `snprintf(dst, size, "%s", text)`. -/
def formatted (size : Nat) (text : List UInt8) : List UInt8 :=
  if size = 0 then [] else text.take (size - 1) ++ [0]

theorem formatted_length_le (size : Nat) (text : List UInt8) :
    (formatted size text).length ≤ size := by
  unfold formatted
  split
  · exact Nat.zero_le _
  · simp only [List.length_append, List.length_take, List.length_singleton]
    omega

/-- Behind its terminator a printed string hides whatever the buffer held. -/
theorem cstr_overwrite_formatted {size : Nat} (positive : 0 < size) {text : List UInt8}
    (free : 0 ∉ text) (dst : List UInt8) :
    cstr (overwrite dst (formatted size text)) = some (text.take (size - 1)) := by
  rw [formatted, if_neg (Nat.ne_of_gt positive), overwrite, List.append_assoc,
    List.singleton_append]
  exact cstr_append_zero (fun member => free (List.mem_of_mem_take member)) _

/-! ## Scanning an unsigned number -/

def isSpace (byte : UInt8) : Bool :=
  (9 ≤ byte && byte ≤ 13) || byte == 32 || byte == 160

def isDigit (byte : UInt8) : Bool :=
  48 ≤ byte && byte ≤ 57

/-- `simple_strtoul(text, &end, 10)`, which wraps around silently. -/
def simpleStrtoul (text : List UInt8) : BitVec 64 :=
  (text.takeWhile isDigit).foldl
    (fun value digit => value * 10 + BitVec.ofNat 64 (digit.toNat - 48)) 0

/-- What `sscanf(text, "%u", &number)` stores.  Nothing is stored when no digit
follows the leading white space. -/
def scanUnsigned (text : List UInt8) : Option (BitVec 32) :=
  let rest := (nulFreePrefix text).dropWhile isSpace
  if rest.head?.any isDigit then some ((simpleStrtoul rest).setWidth 32) else none

/-! ## The last occurrence of a byte -/

/-- `strrchr(text, byte)` as an offset from the start. -/
def strrchr (byte : UInt8) : List UInt8 → Option Nat
  | [] => none
  | head :: rest =>
      match strrchr byte rest with
      | some i => some (i + 1)
      | none => if head = byte then some 0 else none

theorem strrchr_eq_none_iff (byte : UInt8) (text : List UInt8) :
    strrchr byte text = none ↔ byte ∉ text := by
  induction text with
  | nil => simp [strrchr]
  | cons head rest ih =>
      rw [strrchr, List.mem_cons, not_or, ← ih]
      cases strrchr byte rest with
      | some i => simp
      | none =>
          by_cases same : head = byte
          · simp [same]
          · simp [same, Ne.symm same]

/-- The last occurrence splits the string where nothing more follows. -/
theorem strrchr_append {byte : UInt8} (before : List UInt8) {after : List UInt8}
    (last : byte ∉ after) : strrchr byte (before ++ byte :: after) = some before.length := by
  induction before with
  | nil =>
      have none_left := (strrchr_eq_none_iff byte after).mpr last
      simp [strrchr, none_left]
  | cons head rest ih =>
      rw [List.cons_append, strrchr, ih]
      rfl

theorem strrchr_lt {byte : UInt8} {text : List UInt8} {i : Nat}
    (found : strrchr byte text = some i) : i < text.length := by
  induction text generalizing i with
  | nil => cases found
  | cons head rest ih =>
      rw [strrchr] at found
      cases later : strrchr byte rest with
      | some j =>
          rw [later] at found
          cases found
          exact Nat.succ_lt_succ (ih later)
      | none =>
          simp only [later] at found
          split at found
          · cases found
            exact Nat.succ_pos _
          · cases found

end KernelHacking
