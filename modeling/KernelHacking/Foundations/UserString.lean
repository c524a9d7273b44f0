import Mathlib.Algebra.Ring.Nat
import Mathlib.Data.List.Basic
import KernelHacking.Foundations.CString

namespace KernelHacking

universe u v

/-!
# Strings in memory, and what a function reads to look at them

Memory is a partial map from addresses to bytes: an address that is not mapped
has no byte, and reading it is a fault.  Addresses are words, and arithmetic on
them wraps around.

A scan is a computation that reads memory.  It comes with the addresses that it
read, in order, and without a result where it ran into a fault or never ended.
Everything a scan does is determined by the bytes at the addresses that it
reads.
-/

variable {w : Nat}

/-- The bytes that are mapped. -/
abbrev MappedMemory (w : Nat) := BitVec w → Option UInt8

/-- The string `text` stands at an address, with its NUL byte behind it. -/
structure StringAt (mem : MappedMemory w) (address : BitVec w) (text : List UInt8) : Prop where
  free : 0 ∉ text
  bytes : forall i, i < text.length → mem (address + BitVec.ofNat w i) = text[i]?
  ended : mem (address + BitVec.ofNat w text.length) = some 0

/-- The address belongs to the string of a length, or to its NUL byte. -/
def WithinString (address : BitVec w) (length : Nat) (read : BitVec w) : Prop :=
  ∃ i, i ≤ length ∧ read = address + BitVec.ofNat w i

structure Scan (w : Nat) (Result : Type u) where
  result : Option Result
  reads : List (BitVec w) := []

namespace Scan

variable {Result : Type u} {Next : Type v}

def pure (result : Result) : Scan w Result where
  result := some result

/-- One computation after the other, which is not begun if the first faults. -/
def bind (first : Scan w Result) (next : Result → Scan w Next) : Scan w Next :=
  match first.result with
  | none => { result := none, reads := first.reads }
  | some value =>
      { result := (next value).result, reads := first.reads ++ (next value).reads }

/-- Read one byte. -/
def load (mem : MappedMemory w) (address : BitVec w) : Scan w UInt8 where
  result := mem address
  reads := [address]

theorem bind_none {first : Scan w Result} (fault : first.result = none)
    (next : Result → Scan w Next) : first.bind next = { result := none, reads := first.reads } := by
  rw [bind, fault]

theorem bind_some {first : Scan w Result} {value : Result} (returned : first.result = some value)
    (next : Result → Scan w Next) :
    first.bind next =
      { result := (next value).result, reads := first.reads ++ (next value).reads } := by
  rw [bind, returned]

theorem mem_reads_bind {first : Scan w Result} {value : Result}
    (returned : first.result = some value) {next : Result → Scan w Next} {read : BitVec w} :
    read ∈ (first.bind next).reads ↔ read ∈ first.reads ∨ read ∈ (next value).reads := by
  rw [bind_some returned, List.mem_append]

theorem mem_reads_bind_left {first : Scan w Result} (next : Result → Scan w Next)
    {read : BitVec w} (member : read ∈ first.reads) : read ∈ (first.bind next).reads := by
  cases outcome : first.result with
  | none =>
      rw [bind_none outcome]
      exact member
  | some value => exact (mem_reads_bind outcome).mpr (Or.inl member)

theorem mem_reads_load {mem : MappedMemory w} {address read : BitVec w} :
    read ∈ (load mem address).reads ↔ read = address :=
  List.mem_singleton

/-- Two memories in which all the reads find the same. -/
def Agree (mem mem' : MappedMemory w) (reads : List (BitVec w)) : Prop :=
  forall address, address ∈ reads → mem' address = mem address

/-- A computation is determined by what it reads. -/
def Determined (scan : MappedMemory w → Scan w Result) : Prop :=
  forall mem mem', Agree mem mem' (scan mem).reads → scan mem' = scan mem

theorem determined_pure (result : Result) : Determined fun _ : MappedMemory w => pure result :=
  fun _ _ _ => rfl

theorem determined_load (address : BitVec w) : Determined fun mem => load mem address := by
  intro mem mem' agree
  have same := agree address (List.mem_singleton.mpr rfl)
  simp only [load, same]

theorem Determined.bind {first : MappedMemory w → Scan w Result}
    {next : Result → MappedMemory w → Scan w Next} (determined : Determined first)
    (later : forall value, Determined (next value)) :
    Determined fun mem => (first mem).bind fun value => next value mem := by
  intro mem mem' agree
  simp only at agree ⊢
  cases outcome : (first mem).result with
  | none =>
      rw [bind_none outcome] at agree
      have same : first mem' = first mem := determined mem mem' agree
      rw [bind_none outcome, bind_none (same ▸ outcome), same]
  | some value =>
      rw [bind_some outcome] at agree
      have same : first mem' = first mem :=
        determined mem mem' fun address member => agree address (List.mem_append_left _ member)
      have sameNext : next value mem' = next value mem :=
        later value mem mem' fun address member => agree address (List.mem_append_right _ member)
      rw [bind_some outcome, bind_some (same ▸ outcome), same, sameNext]

end Scan

/-! ## `strlen` and `strcmp` -/

/-- The loop of `strlen` from an address on, for a number of rounds. -/
def strlenFrom (mem : MappedMemory w) : Nat → BitVec w → Scan w Nat
  | 0, _ => { result := none }
  | rounds + 1, address =>
      (Scan.load mem address).bind fun byte =>
        if byte = 0 then Scan.pure 0
        else (strlenFrom mem rounds (address + 1)).bind fun length => Scan.pure (length + 1)

/-- `strlen(address)`.  After as many rounds as there are addresses it would go
on for ever. -/
def strlen (mem : MappedMemory w) (address : BitVec w) : Scan w Nat :=
  strlenFrom mem (2 ^ w) address

/-- Whether `strcmp` finds the string at an address equal to a literal. -/
def strcmpEqual (mem : MappedMemory w) : BitVec w → List UInt8 → Scan w Bool
  | address, [] => (Scan.load mem address).bind fun byte => Scan.pure (byte == 0)
  | address, expected :: rest =>
      (Scan.load mem address).bind fun byte =>
        if byte = expected then strcmpEqual mem (address + 1) rest else Scan.pure false

/-- `strcmp` reads a byte in any case. -/
theorem mem_reads_strcmpEqual (mem : MappedMemory w) (address : BitVec w) (literal : List UInt8) :
    address ∈ (strcmpEqual mem address literal).reads := by
  cases literal with
  | nil => exact Scan.mem_reads_bind_left _ (Scan.mem_reads_load.mpr rfl)
  | cons expected rest => exact Scan.mem_reads_bind_left _ (Scan.mem_reads_load.mpr rfl)

theorem strlenFrom_determined (rounds : Nat) (address : BitVec w) :
    Scan.Determined fun mem => strlenFrom mem rounds address := by
  induction rounds generalizing address with
  | zero => exact fun _ _ _ => rfl
  | succ rounds ih =>
      refine (Scan.determined_load address).bind fun byte => ?_
      by_cases ended : byte = 0
      · simp only [if_pos ended]
        exact Scan.determined_pure 0
      · simp only [if_neg ended]
        exact (ih _).bind fun length => Scan.determined_pure _

theorem strlen_determined (address : BitVec w) :
    Scan.Determined fun mem => strlen mem address :=
  strlenFrom_determined _ address

theorem strcmpEqual_determined (address : BitVec w) (literal : List UInt8) :
    Scan.Determined fun mem => strcmpEqual mem address literal := by
  induction literal generalizing address with
  | nil => exact (Scan.determined_load address).bind fun byte => Scan.determined_pure _
  | cons expected rest ih =>
      refine (Scan.determined_load address).bind fun byte => ?_
      by_cases same : byte = expected
      · simp only [if_pos same]
        exact ih _
      · simp only [if_neg same]
        exact Scan.determined_pure _

/-! ## On a string in memory -/

theorem add_ofNat_add (address : BitVec w) (i j : Nat) :
    address + BitVec.ofNat w i + BitVec.ofNat w j = address + BitVec.ofNat w (i + j) := by
  rw [BitVec.add_assoc, BitVec.ofNat_add]

namespace StringAt

variable {mem : MappedMemory w} {address : BitVec w} {text : List UInt8}

/-- The end of a string is a string. -/
theorem drop (holds : StringAt mem address text) {n : Nat} (inside : n ≤ text.length) :
    StringAt mem (address + BitVec.ofNat w n) (text.drop n) where
  free member := holds.free (List.mem_of_mem_drop member)
  bytes := by
    intro i below
    rw [List.length_drop] at below
    rw [add_ofNat_add, List.getElem?_drop]
    exact holds.bytes (n + i) (by omega)
  ended := by
    rw [List.length_drop, add_ofNat_add, Nat.add_sub_cancel' inside]
    exact holds.ended

theorem tail {byte : UInt8} {rest : List UInt8} (holds : StringAt mem address (byte :: rest)) :
    StringAt mem (address + 1) rest :=
  holds.drop (Nat.succ_le_succ (Nat.zero_le _))

theorem head {byte : UInt8} {rest : List UInt8} (holds : StringAt mem address (byte :: rest)) :
    mem address = some byte := by
  have first := holds.bytes 0 (Nat.succ_pos _)
  rwa [BitVec.add_zero] at first

theorem head_ne_zero {byte : UInt8} {rest : List UInt8}
    (holds : StringAt mem address (byte :: rest)) : byte ≠ 0 :=
  fun zero => holds.free (List.mem_cons.mpr (Or.inl zero.symm))

theorem end_of_nil (holds : StringAt mem address []) : mem address = some 0 := by
  have ended := holds.ended
  rwa [List.length_nil, BitVec.add_zero] at ended

/-- A string does not go once around the address space. -/
theorem length_lt (holds : StringAt mem address text) : text.length < 2 ^ w := by
  by_contra around
  have below : text.length % 2 ^ w < text.length :=
    Nat.lt_of_lt_of_le (Nat.mod_lt _ (Nat.two_pow_pos w)) (Nat.not_lt.mp around)
  have same : BitVec.ofNat w (text.length % 2 ^ w) = BitVec.ofNat w text.length :=
    BitVec.eq_of_toNat_eq (by rw [BitVec.toNat_ofNat, BitVec.toNat_ofNat, Nat.mod_mod])
  have ended := holds.bytes _ below
  rw [same, holds.ended] at ended
  exact holds.free (List.mem_of_getElem? ended.symm)

theorem within_start (address : BitVec w) (length : Nat) : WithinString address length address :=
  ⟨0, Nat.zero_le _, (BitVec.add_zero address).symm⟩

theorem within_tail {length : Nat} {read : BitVec w}
    (within : WithinString (address + 1) length read) : WithinString address (length + 1) read := by
  rcases within with ⟨i, inside, rfl⟩
  refine ⟨1 + i, by omega, ?_⟩
  exact add_ofNat_add address 1 i

/-- A computation that begins with the first byte of a string stays within the
string if the rest of it does. -/
theorem within_load {byte : UInt8} {Result : Type u} {next : UInt8 → Scan w Result} {length : Nat}
    (loaded : (Scan.load mem address).result = some byte)
    (later : forall read, read ∈ (next byte).reads → WithinString address length read)
    (read : BitVec w) (member : read ∈ ((Scan.load mem address).bind next).reads) :
    WithinString address length read := by
  rcases (Scan.mem_reads_bind loaded).mp member with first | rest
  · rw [Scan.mem_reads_load.mp first]
    exact within_start address _
  · exact later read rest

/-- `strlen` finds the end of the string, and reads no further. -/
theorem strlenFrom_result (holds : StringAt mem address text) {rounds : Nat}
    (enough : text.length < rounds) :
    (strlenFrom mem rounds address).result = some text.length ∧
      forall read, read ∈ (strlenFrom mem rounds address).reads →
        WithinString address text.length read := by
  induction text generalizing address rounds with
  | nil =>
      cases rounds with
      | zero => exact absurd enough (Nat.not_lt_zero _)
      | succ rounds =>
          have ended : (Scan.load mem address).result = some 0 := holds.end_of_nil
          rw [strlenFrom]
          refine ⟨by rw [Scan.bind_some ended]; rfl, within_load ended ?_⟩
          intro read member
          cases member
  | cons byte rest ih =>
      cases rounds with
      | zero => exact absurd enough (Nat.not_lt_zero _)
      | succ rounds =>
          have here : (Scan.load mem address).result = some byte := holds.head
          rcases ih holds.tail (Nat.succ_lt_succ_iff.mp enough) with ⟨result, reads⟩
          rw [strlenFrom]
          constructor
          · rw [Scan.bind_some here, if_neg holds.head_ne_zero, Scan.bind_some result]
            rfl
          · refine within_load here ?_
            intro read member
            rw [if_neg holds.head_ne_zero] at member
            rcases (Scan.mem_reads_bind result).mp member with inside | nothing
            · exact within_tail (reads read inside)
            · cases nothing

theorem strlen_result (holds : StringAt mem address text) :
    (strlen mem address).result = some text.length ∧
      forall read, read ∈ (strlen mem address).reads → WithinString address text.length read :=
  holds.strlenFrom_result holds.length_lt

/-- `strcmp` tells whether the string is the literal, and reads no further than
to the end of the string. -/
theorem strcmpEqual_result (holds : StringAt mem address text) {literal : List UInt8}
    (plain : 0 ∉ literal) :
    (strcmpEqual mem address literal).result = some (text == literal) ∧
      forall read, read ∈ (strcmpEqual mem address literal).reads →
        WithinString address text.length read := by
  induction literal generalizing address text with
  | nil =>
      have here : ∃ byte, mem address = some byte ∧ (byte == 0) = (text == []) := by
        cases text with
        | nil => exact ⟨0, holds.end_of_nil, rfl⟩
        | cons byte rest => exact ⟨byte, holds.head, beq_eq_false_iff_ne.mpr holds.head_ne_zero⟩
      rcases here with ⟨byte, first, same⟩
      have loaded : (Scan.load mem address).result = some byte := first
      rw [strcmpEqual]
      refine ⟨by rw [Scan.bind_some loaded, ← same]; rfl, within_load loaded ?_⟩
      intro read member
      cases member
  | cons expected wanted ih =>
      have plainHead : 0 ≠ expected := fun zero => plain (List.mem_cons.mpr (Or.inl zero))
      have plainRest : 0 ∉ wanted := fun member => plain (List.mem_cons_of_mem _ member)
      rw [strcmpEqual]
      cases text with
      | nil =>
          have loaded : (Scan.load mem address).result = some 0 := holds.end_of_nil
          refine ⟨by rw [Scan.bind_some loaded, if_neg plainHead]; rfl, within_load loaded ?_⟩
          intro read member
          rw [if_neg plainHead] at member
          cases member
      | cons byte rest =>
          have loaded : (Scan.load mem address).result = some byte := holds.head
          by_cases same : byte = expected
          · rcases ih holds.tail plainRest with ⟨result, reads⟩
            constructor
            · rw [Scan.bind_some loaded, if_pos same, result, same, List.cons_beq_cons,
                beq_self_eq_true, Bool.true_and]
            · refine within_load loaded ?_
              intro read member
              rw [if_pos same] at member
              exact within_tail (reads read member)
          · constructor
            · rw [Scan.bind_some loaded, if_neg same, List.cons_beq_cons,
                beq_eq_false_iff_ne.mpr same, Bool.false_and]
              rfl
            · refine within_load loaded ?_
              intro read member
              rw [if_neg same] at member
              cases member

/-! Strings are built up byte by byte, and cut off at the first NUL byte. -/

theorem nil (ended : mem address = some 0) : StringAt mem address [] where
  free := List.not_mem_nil
  bytes _ impossible := absurd impossible (Nat.not_lt_zero _)
  ended := by
    rw [List.length_nil, BitVec.add_zero]
    exact ended

theorem cons {byte : UInt8} (more : byte ≠ 0) (here : mem address = some byte)
    (holds : StringAt mem (address + 1) text) : StringAt mem address (byte :: text) where
  free := List.not_mem_cons_of_ne_of_not_mem more.symm holds.free
  bytes := by
    intro i below
    cases i with
    | zero =>
        rw [BitVec.add_zero]
        exact here
    | succ i =>
        rw [Nat.add_comm i 1, ← add_ofNat_add, Nat.add_comm 1 i, List.getElem?_cons_succ]
        exact holds.bytes i (Nat.lt_of_succ_lt_succ below)
  ended := by
    rw [List.length_cons, Nat.add_comm, ← add_ofNat_add]
    exact holds.ended

end StringAt

section Mapped

variable {mem : MappedMemory w} {address : BitVec w} {bytes : List UInt8}

/-- Some bytes are mapped from an address on. -/
def MappedAt (mem : MappedMemory w) (address : BitVec w) (bytes : List UInt8) : Prop :=
  forall i, i < bytes.length → mem (address + BitVec.ofNat w i) = bytes[i]?

theorem MappedAt.head {byte : UInt8} (holds : MappedAt mem address (byte :: bytes)) :
    mem address = some byte := by
  have first := holds 0 (Nat.succ_pos _)
  rwa [BitVec.add_zero] at first

theorem MappedAt.tail {byte : UInt8} (holds : MappedAt mem address (byte :: bytes)) :
    MappedAt mem (address + 1) bytes := by
  intro i below
  have later := holds (1 + i) (by rw [List.length_cons]; omega)
  rw [← add_ofNat_add, Nat.add_comm, List.getElem?_cons_succ] at later
  exact later

theorem add_length_cons (address : BitVec w) (byte : UInt8) (bytes : List UInt8) :
    address + BitVec.ofNat w (byte :: bytes).length = address + 1 + BitVec.ofNat w bytes.length := by
  rw [List.length_cons, Nat.add_comm]
  exact (add_ofNat_add address 1 bytes.length).symm

/-- Mapped bytes before a NUL byte hold the string up to their first NUL byte. -/
theorem MappedAt.string (holds : MappedAt mem address bytes)
    (ended : mem (address + BitVec.ofNat w bytes.length) = some 0) :
    StringAt mem address (nulFreePrefix bytes) := by
  induction bytes generalizing address with
  | nil =>
      rw [List.length_nil, BitVec.add_zero] at ended
      exact .nil ended
  | cons byte rest ih =>
      by_cases zero : byte = 0
      · have first := holds.head
        rw [zero] at first
        rw [nulFreePrefix, List.takeWhile_cons_of_neg (by simp [zero])]
        exact .nil first
      · rw [nulFreePrefix_cons zero]
        rw [add_length_cons] at ended
        exact .cons zero holds.head (ih holds.tail ended)

/-- `strlen` runs off mapped bytes without a NUL byte. -/
theorem MappedAt.strlenFrom_none (holds : MappedAt mem address bytes) (free : 0 ∉ bytes)
    (unmapped : mem (address + BitVec.ofNat w bytes.length) = none) (rounds : Nat) :
    (strlenFrom mem rounds address).result = none := by
  induction rounds generalizing address bytes with
  | zero => rfl
  | succ rounds ih =>
      rw [strlenFrom]
      cases bytes with
      | nil =>
          have fault : (Scan.load mem address).result = none := by
            rwa [List.length_nil, BitVec.add_zero] at unmapped
          rw [Scan.bind_none fault]
      | cons byte rest =>
          rcases List.ne_and_not_mem_of_not_mem_cons free with ⟨more, freeRest⟩
          have loaded : (Scan.load mem address).result = some byte := holds.head
          rw [add_length_cons] at unmapped
          rw [Scan.bind_some loaded, if_neg (Ne.symm more),
            Scan.bind_none (ih holds.tail freeRest unmapped)]

end Mapped

end KernelHacking
