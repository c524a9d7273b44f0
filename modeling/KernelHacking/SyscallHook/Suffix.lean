import KernelHacking.Foundations.UserString
import KernelHacking.SyscallHook.ThreeHooks
import Mathlib.Data.List.Find

namespace KernelHacking
namespace SyscallHook

/-!
# The test of a file's type

The hooks tell the type of a file by the end of its name: they compare what
stands three or four bytes before the end of the string with each type in
turn, and measure the string again for each of them.  Nothing looks at how long
the name is.  For a name that is shorter than a type the comparison begins
before the name, in bytes that some other variable of the caller left there.

Memory is taken by addresses here, and the reads of the test are recorded.
-/

/-- The comparisons of a name with some types, the end of which is `back` bytes
long. -/
def endingType (mem : MappedMemory 64) (filename : Word) (back : Nat) :
    List (List UInt8) → Scan 64 (Option (List UInt8))
  | [] => Scan.pure none
  | type :: rest =>
      (strlen mem filename).bind fun length =>
        (strcmpEqual mem (filename + BitVec.ofNat 64 length - BitVec.ofNat 64 back) type).bind
          fun same =>
            if same then Scan.pure (some type) else endingType mem filename back rest

/-- `fun_filetype`. -/
def funFiletypeAt (mem : MappedMemory 64) (filename : Word) : Scan 64 (Option (List UInt8)) :=
  endingType mem filename 3 types

/-- The types of `4-hooks/2`. -/
def rickrollTypes : List (List UInt8) := [mp3, ascii ['.', 'j', 'p', 'g']]

/-- The test in `my_sys_open` of `4-hooks/2`. -/
def rickrollTypeAt (mem : MappedMemory 64) (filename : Word) : Scan 64 (Option (List UInt8)) :=
  endingType mem filename 4 rickrollTypes

/-- The test in `my_sys_open` of `4-hooks/3`. -/
def moreTypeAt (mem : MappedMemory 64) (filename : Word) : Scan 64 (Option (List UInt8)) :=
  endingType mem filename 4 [mp3]

/-- The law of a test on a name in memory: it finds the first type that the name
ends with, it reads nothing but the name, and what lies around the name makes
no difference. -/
structure SuffixTest (test : MappedMemory 64 → Word → Scan 64 (Option (List UInt8)))
    (suffixes : List (List UInt8)) (mem : MappedMemory 64) (filename : Word) (name : List UInt8) :
    Prop where
  result : (test mem filename).result = some (suffixes.find? fun suffix => decide (suffix <:+ name))
  reads : forall read, read ∈ (test mem filename).reads → WithinString filename name.length read
  same : forall mem', (forall address, WithinString filename name.length address →
    mem' address = mem address) → test mem' filename = test mem filename

/-! ## What the test finds -/

theorem endingType_determined (filename : Word) (back : Nat) (suffixes : List (List UInt8)) :
    Scan.Determined fun mem => endingType mem filename back suffixes := by
  induction suffixes with
  | nil => exact Scan.determined_pure none
  | cons type rest ih =>
      refine (strlen_determined filename).bind fun length => ?_
      refine (strcmpEqual_determined _ type).bind fun same => ?_
      cases same with
      | true => exact Scan.determined_pure (some type)
      | false => exact ih

section Name

variable {mem : MappedMemory 64} {filename : Word} {name : List UInt8}

/-- The test compares the string that stands where it looks. -/
theorem endingType_result (holds : StringAt mem filename name) {back : Nat} {ending : List UInt8}
    (found : StringAt mem (filename + BitVec.ofNat 64 name.length - BitVec.ofNat 64 back) ending)
    {suffixes : List (List UInt8)} (plain : forall type, type ∈ suffixes → 0 ∉ type) :
    (endingType mem filename back suffixes).result =
      some (suffixes.find? fun type => ending == type) := by
  induction suffixes with
  | nil => rfl
  | cons type rest ih =>
      have compared := found.strcmpEqual_result (plain type List.mem_cons_self)
      rw [endingType, Scan.bind_some holds.strlen_result.1, Scan.bind_some compared.1,
        List.find?_cons]
      cases ending == type with
      | true => rfl
      | false => exact ih fun other member => plain other (List.mem_cons_of_mem _ member)

/-- It reads the name and that string. -/
theorem endingType_reads (holds : StringAt mem filename name) {back : Nat} {ending : List UInt8}
    (found : StringAt mem (filename + BitVec.ofNat 64 name.length - BitVec.ofNat 64 back) ending)
    {suffixes : List (List UInt8)} (plain : forall type, type ∈ suffixes → 0 ∉ type)
    {read : Word} (member : read ∈ (endingType mem filename back suffixes).reads) :
    WithinString filename name.length read ∨
      WithinString (filename + BitVec.ofNat 64 name.length - BitVec.ofNat 64 back) ending.length
        read := by
  induction suffixes with
  | nil => cases member
  | cons type rest ih =>
      have compared := found.strcmpEqual_result (plain type List.mem_cons_self)
      rw [endingType] at member
      rcases (Scan.mem_reads_bind holds.strlen_result.1).mp member with measured | member
      · exact Or.inl (holds.strlen_result.2 read measured)
      · rcases (Scan.mem_reads_bind compared.1).mp member with here | later
        · exact Or.inr (compared.2 read here)
        · revert later
          cases ending == type with
          | true => exact fun nothing => nomatch nothing
          | false => exact ih fun other member => plain other (List.mem_cons_of_mem _ member)

/-- Where nothing is mapped, the first comparison faults. -/
theorem endingType_unmapped (holds : StringAt mem filename name) {back : Nat}
    (unmapped : mem (filename + BitVec.ofNat 64 name.length - BitVec.ofNat 64 back) = none)
    (type : List UInt8) (rest : List (List UInt8)) :
    (endingType mem filename back (type :: rest)).result = none := by
  have fault : (strcmpEqual mem
      (filename + BitVec.ofNat 64 name.length - BitVec.ofNat 64 back) type).result = none := by
    cases type with
    | nil => rw [strcmpEqual, Scan.bind_none unmapped]
    | cons byte type => rw [strcmpEqual, Scan.bind_none unmapped]
  rw [endingType, Scan.bind_some holds.strlen_result.1, Scan.bind_none fault]

/-- The first byte that is compared. -/
theorem mem_reads_endingType (holds : StringAt mem filename name) (back : Nat)
    (type : List UInt8) (rest : List (List UInt8)) :
    filename + BitVec.ofNat 64 name.length - BitVec.ofNat 64 back ∈
      (endingType mem filename back (type :: rest)).reads := by
  rw [endingType]
  apply (Scan.mem_reads_bind holds.strlen_result.1).mpr
  exact Or.inr (Scan.mem_reads_bind_left _ (mem_reads_strcmpEqual ..))

/-! ## Long and short names -/

theorem before_end {n back : Nat} (long : back ≤ n) :
    filename + BitVec.ofNat 64 n - BitVec.ofNat 64 back =
      filename + BitVec.ofNat 64 (n - back) := by
  have split : n = n - back + back := (Nat.sub_add_cancel long).symm
  rw [split, BitVec.ofNat_add, ← BitVec.add_assoc, BitVec.add_sub_cancel, Nat.add_sub_cancel]

/-- Before the end of a name that is long enough stands the end of the name. -/
theorem ending_of_long (holds : StringAt mem filename name) {back : Nat}
    (long : back ≤ name.length) :
    StringAt mem (filename + BitVec.ofNat 64 name.length - BitVec.ofNat 64 back)
      (name.drop (name.length - back)) := by
  rw [before_end long]
  exact holds.drop (Nat.sub_le _ _)

theorem suffix_iff_ending {back : Nat} {type : List UInt8}
    (length : type.length = back) :
    (name.drop (name.length - back) == type) = decide (type <:+ name) := by
  apply Bool.eq_iff_iff.mpr
  rw [beq_iff_eq, decide_eq_true_eq, List.suffix_iff_eq_drop, length]
  exact eq_comm

theorem suffixTest_of_long (holds : StringAt mem filename name) {back : Nat}
    (long : back ≤ name.length) {suffixes : List (List UInt8)}
    (plain : forall type, type ∈ suffixes → 0 ∉ type)
    (lengths : forall type, type ∈ suffixes → type.length = back) :
    SuffixTest (fun mem filename => endingType mem filename back suffixes) suffixes mem filename
      name := by
  have found := ending_of_long holds long
  have within : forall read, read ∈ (endingType mem filename back suffixes).reads →
      WithinString filename name.length read := by
    intro read member
    rcases endingType_reads holds found plain member with inside | ⟨i, inside, here⟩
    · exact inside
    · rw [List.length_drop] at inside
      rw [before_end long, add_ofNat_add] at here
      exact ⟨_, by omega, here⟩
  refine ⟨?_, within, ?_⟩
  · rw [endingType_result holds found plain]
    congr 1
    apply List.find?_congr
    intro type member
    exact suffix_iff_ending (lengths type member)
  · intro mem' agree
    exact endingType_determined filename back suffixes mem mem' fun address member =>
      agree address (within address member)

/-- The first byte that is compared with a short name's end stands before it. -/
theorem not_within_of_short {n back : Nat} (short : n < back) (small : back < 2 ^ 63) :
    ¬ WithinString filename n (filename + BitVec.ofNat 64 n - BitVec.ofNat 64 back) := by
  rintro ⟨i, inside, here⟩
  have moved : filename + BitVec.ofNat 64 n = filename + BitVec.ofNat 64 (i + back) := by
    rw [← add_ofNat_add, ← here, BitVec.sub_add_cancel]
  have same := congrArg BitVec.toNat ((BitVec.add_right_inj filename).mp moved)
  rw [BitVec.toNat_ofNat, BitVec.toNat_ofNat, Nat.mod_eq_of_lt (by omega),
    Nat.mod_eq_of_lt (by omega)] at same
  omega

/-- A test with types of one length keeps the law exactly for the names that
are at least as long. -/
theorem suffixTest_iff_long (holds : StringAt mem filename name) {back : Nat}
    (small : back < 2 ^ 63) {type : List UInt8} {rest : List (List UInt8)}
    (plain : forall other, other ∈ type :: rest → 0 ∉ other)
    (lengths : forall other, other ∈ type :: rest → other.length = back) :
    SuffixTest (fun mem filename => endingType mem filename back (type :: rest)) (type :: rest)
        mem filename name ↔
      back ≤ name.length := by
  constructor
  · intro law
    by_contra short
    have first := law.reads _ (mem_reads_endingType holds back type rest)
    exact not_within_of_short (Nat.not_le.mp short) small first
  · intro long
    exact suffixTest_of_long holds long plain lengths

/-- Each of the three tests finds the ends of names, and looks at nothing else,
exactly for the names that are as long as a type. -/
theorem suffixTest_iff (holds : StringAt mem filename name) :
    (SuffixTest funFiletypeAt types mem filename name ↔ 3 ≤ name.length) ∧
      (SuffixTest rickrollTypeAt rickrollTypes mem filename name ↔ 4 ≤ name.length) ∧
      (SuffixTest moreTypeAt [mp3] mem filename name ↔ 4 ≤ name.length) := by
  refine ⟨?_, ?_, ?_⟩
  · exact suffixTest_iff_long holds (by decide) (by decide) (by decide)
  · exact suffixTest_iff_long holds (by decide) (by decide) (by decide)
  · exact suffixTest_iff_long holds (by decide) (by decide) (by decide)

end Name

/-! ## Names seen through a pointer

The hooks are modelled elsewhere on a name with the bytes mapped around it. -/

/-- What a name and the bytes around it say about a memory. -/
structure PathPtr.Describes (filename : PathPtr) (mem : MappedMemory 64) (address : Word) :
    Prop where
  mapped : MappedAt mem address filename.mapped
  ended : mem (address + BitVec.ofNat 64 filename.mapped.length) = none
  below : forall i, i < filename.below.length →
    mem (address - BitVec.ofNat 64 (filename.below.length - i)) = filename.below[i]?
  begins : forall i, filename.below.length < i → i ≤ 4 →
    mem (address - BitVec.ofNat 64 i) = none

theorem add_sub_add_below (a n i m : Word) : a + n - (n + i + m) + i = a - m := by
  grind

theorem add_sub_add_above {a n i b m : Word} (sum : n + i = b + m) : a + n - b + i = a + m := by
  grind

theorem below_start (address : Word) {n i back : Nat} (before : n + i ≤ back) :
    address + BitVec.ofNat 64 n - BitVec.ofNat 64 back + BitVec.ofNat 64 i =
      address - BitVec.ofNat 64 (back - (n + i)) := by
  rcases Nat.exists_eq_add_of_le before with ⟨m, rfl⟩
  rw [Nat.add_sub_cancel_left, BitVec.ofNat_add, BitVec.ofNat_add]
  exact add_sub_add_below ..

theorem above_start (address : Word) {n i back : Nat} (behind : back ≤ n + i) :
    address + BitVec.ofNat 64 n - BitVec.ofNat 64 back + BitVec.ofNat 64 i =
      address + BitVec.ofNat 64 (n + i - back) := by
  rcases Nat.exists_eq_add_of_le behind with ⟨m, split⟩
  rw [split, Nat.add_sub_cancel_left]
  apply add_sub_add_above
  rw [← BitVec.ofNat_add, ← BitVec.ofNat_add, split]

namespace PathPtr.Describes

variable {filename : PathPtr} {mem : MappedMemory 64} {address : Word}

theorem string (describes : filename.Describes mem address) {name : List UInt8}
    (found : cstr filename.mapped = some name) : StringAt mem address name := by
  rcases (cstr_eq_some_iff _ _).mp found with ⟨free, rest, split⟩
  have mapped := describes.mapped
  rw [split] at mapped
  constructor
  · exact free
  · intro i below
    rw [mapped i (by rw [List.length_append]; omega), List.getElem?_append_left below]
  · rw [mapped name.length (by simp), List.getElem?_append_right (Nat.le_refl _), Nat.sub_self]
    rfl

/-- What is compared, where it is mapped: the end of the bytes up to the end of
the name. -/
theorem ending (describes : filename.Describes mem address) {name : List UInt8}
    (found : cstr filename.mapped = some name) {back : Nat}
    (readable : back ≤ (filename.below ++ name).length) :
    StringAt mem (address + BitVec.ofNat 64 name.length - BitVec.ofNat 64 back)
      (nulFreePrefix ((filename.below ++ name).drop ((filename.below ++ name).length - back))) := by
  have holds := describes.string found
  rw [List.length_append] at readable ⊢
  apply MappedAt.string
  · intro i inside
    rw [List.length_drop, List.length_append] at inside
    rw [List.getElem?_drop]
    by_cases before : name.length + i < back
    · rw [below_start address (Nat.le_of_lt before), List.getElem?_append_left (by omega),
        ← describes.below _ (by omega)]
      congr 3
      omega
    · rw [above_start address (Nat.not_lt.mp before), List.getElem?_append_right (by omega),
        holds.bytes _ (by omega)]
      congr 1
      omega
  · rw [List.length_drop, List.length_append, Nat.sub_sub_self readable, BitVec.sub_add_cancel]
    exact holds.ended

/-- On a memory with that name, the test is the one that looks through the
pointer. -/
theorem endingType_eq (describes : filename.Describes mem address) {back : Nat} (small : back ≤ 4)
    {type : List UInt8} {rest : List (List UInt8)}
    (plain : forall other, other ∈ type :: rest → 0 ∉ other) :
    (endingType mem address back (type :: rest)).result =
      match cstr filename.mapped with
      | none => none
      | some name =>
          if (filename.below ++ name).length < back then none
          else some ((type :: rest).find? fun other =>
            nulFreePrefix ((filename.below ++ name).drop
              ((filename.below ++ name).length - back)) == other) := by
  cases found : cstr filename.mapped with
  | none =>
      have free : 0 ∉ filename.mapped := by
        intro member
        have ends := (cstr_isSome_iff _).mpr member
        rw [found] at ends
        cases ends
      have endless : (strlen mem address).result = none :=
        describes.mapped.strlenFrom_none free describes.ended _
      rw [endingType, Scan.bind_none endless]
  | some name =>
      have holds := describes.string found
      simp only
      split
      · rename_i short
        rw [List.length_append] at short
        apply endingType_unmapped holds
        have start : address + BitVec.ofNat 64 name.length - BitVec.ofNat 64 back +
            BitVec.ofNat 64 0 = address - BitVec.ofNat 64 (back - (name.length + 0)) :=
          below_start address (by omega)
        rw [BitVec.add_zero] at start
        rw [start]
        exact describes.begins _ (by omega) (by omega)
      · rename_i long
        exact endingType_result holds (describes.ending found (Nat.not_lt.mp long)) plain

end PathPtr.Describes

/-- `fun_filetype` through a pointer is `fun_filetype` on the memory. -/
theorem funFiletype_eq {filename : PathPtr} {mem : MappedMemory 64} {address : Word}
    (describes : filename.Describes mem address) :
    funFiletype filename = (funFiletypeAt mem address).result := by
  rw [funFiletypeAt, types, describes.endingType_eq (by decide) (by decide)]
  rfl

/-- So is the test of `4-hooks/3`. -/
theorem isMp3_eq {filename : PathPtr} {mem : MappedMemory 64} {address : Word}
    (describes : filename.Describes mem address) :
    isMp3 filename = (moreTypeAt mem address).result.map Option.isSome := by
  rw [moreTypeAt, describes.endingType_eq (by decide) (by decide), isMp3]
  cases cstr filename.mapped with
  | none => rfl
  | some name =>
      simp only [List.find?_singleton]
      split
      · rfl
      · cases nulFreePrefix ((filename.below ++ name).drop
          ((filename.below ++ name).length - 4)) == mp3 <;> rfl

/-- Some bytes in an otherwise unmapped memory. -/
def bytesFrom (start : Word) (bytes : List UInt8) : MappedMemory 64 :=
  fun address => bytes[(address - start).toNat]?

/-- The name `a.mp3` is an mp3, whatever lies around it. -/
theorem song_suffixTest :
    SuffixTest funFiletypeAt types
      (bytesFrom 0x1000 (ascii ['a', '.', 'm', 'p', '3'] ++ [0])) 0x1000
      (ascii ['a', '.', 'm', 'p', '3']) := by
  have holds : StringAt (bytesFrom 0x1000 (ascii ['a', '.', 'm', 'p', '3'] ++ [0])) 0x1000
      (ascii ['a', '.', 'm', 'p', '3']) := by
    constructor <;> decide
  exact (suffixTest_iff holds).1.mpr (by decide)

/-- The empty name is an mp3 where the caller's buffer holds `mp3` before it. -/
theorem emptyName_not_suffixTest :
    StringAt (bytesFrom 0x1000 (ascii ['m', 'p', '3'] ++ [0])) 0x1003 [] ∧
      ¬ SuffixTest funFiletypeAt types (bytesFrom 0x1000 (ascii ['m', 'p', '3'] ++ [0])) 0x1003
        [] := by
  have holds : StringAt (bytesFrom 0x1000 (ascii ['m', 'p', '3'] ++ [0])) 0x1003 [] := by
    constructor <;> decide
  have before : StringAt (bytesFrom 0x1000 (ascii ['m', 'p', '3'] ++ [0]))
      (0x1003 + BitVec.ofNat 64 0 - BitVec.ofNat 64 3) (ascii ['m', 'p', '3']) := by
    constructor <;> decide
  refine ⟨holds, ?_⟩
  intro law
  have result := law.result
  rw [funFiletypeAt, endingType_result holds before (by decide)] at result
  revert result
  decide

end SyscallHook
end KernelHacking
