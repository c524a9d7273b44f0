import Mathlib.Data.List.Basic
import Mathlib.Data.BitVec

namespace KernelHacking
namespace UsbHid

/-!
# The length of an interrupt transfer

`usbhid_start` asks for transfers as long as the longest input report that was
registered for the device, and allocates a buffer of a fixed size for them.
The lengths come from the device, in bits, and are turned into bytes in
unsigned arithmetic of 32 bits.  A report of zero bits wraps around to the
longest of all.
-/

def usbhidBufsize : Nat := 64

/-- A report as far as its length goes, which is given in bits. -/
structure HidReport where
  size : BitVec 32

/-- The reports of one type.  `numbered` is one when each report is sent with a
leading byte that identifies it, and zero otherwise. -/
structure HidReportEnum where
  numbered : BitVec 32
  reportList : List HidReport
  flag : numbered = 0 ∨ numbered = 1

/-- The bytes of a report, as the loop of `usbhid_start` computes them. -/
def HidReportEnum.bytes (reports : HidReportEnum) (report : HidReport) : BitVec 32 :=
  ((report.size - 1) >>> 3) + 1 + reports.numbered

/-- The loop of `usbhid_start` over the list of reports. -/
def maxsizeFrom (reports : HidReportEnum) : BitVec 32 → List HidReport → BitVec 32
  | maxsize, [] => maxsize
  | maxsize, report :: rest =>
      let size := reports.bytes report
      maxsizeFrom reports (if maxsize < size then size else maxsize) rest

def maxsize (reports : HidReportEnum) : BitVec 32 :=
  maxsizeFrom reports 0 reports.reportList

/-- The parts of an URB that `usb_fill_int_urb` sets and a transfer obeys: the
size of the buffer, and how many bytes the controller may store in it. -/
structure TransferBuffer where
  allocated : Nat
  transferBufferLength : Nat

/-- The input buffer as `usbhid_start` allocates it and hands it over. -/
def inbuf (reports : HidReportEnum) : TransferBuffer where
  allocated := usbhidBufsize
  transferBufferLength := (maxsize reports).toNat

/-! ## The loop computes a maximum -/

/-- The running maximum is known by the bounds it stays within. -/
theorem maxsizeFrom_le_iff (reports : HidReportEnum) (start : BitVec 32) (bound : Nat)
    (list : List HidReport) :
    (maxsizeFrom reports start list).toNat ≤ bound ↔
      start.toNat ≤ bound ∧
        forall report, report ∈ list → (reports.bytes report).toNat ≤ bound := by
  induction list generalizing start with
  | nil => simp [maxsizeFrom]
  | cons report rest ih =>
      rw [maxsizeFrom, ih, List.forall_mem_cons, ← and_assoc]
      apply and_congr_left
      intro _
      by_cases longer : start < reports.bytes report
      · rw [if_pos longer]
        rw [BitVec.lt_def] at longer
        constructor
        · intro fits
          exact ⟨le_trans longer.le fits, fits⟩
        · exact And.right
      · rw [if_neg longer]
        rw [BitVec.lt_def, not_lt] at longer
        constructor
        · intro fits
          exact ⟨fits, le_trans longer fits⟩
        · exact And.left

/-- The transfers fit a bound exactly when every report does. -/
theorem maxsize_le_iff (reports : HidReportEnum) (bound : Nat) :
    (maxsize reports).toNat ≤ bound ↔
      forall report, report ∈ reports.reportList → (reports.bytes report).toNat ≤ bound := by
  rw [maxsize, maxsizeFrom_le_iff]
  exact and_iff_right (Nat.zero_le bound)

/-! ## The bytes of one report -/

theorem HidReportEnum.numbered_le (reports : HidReportEnum) : reports.numbered.toNat ≤ 1 := by
  rcases reports.flag with none | one
  · rw [none]
    decide
  · rw [one]
    decide

/-- For this report the three operations of the loop give what they give over
the integers. -/
structure HidReportEnum.Exact (reports : HidReportEnum) (report : HidReport) : Prop where
  difference : ((report.size - 1).toNat : Int) = report.size.toNat - 1
  rounded : (((report.size - 1) >>> 3) + 1).toNat = ((report.size - 1) >>> 3).toNat + 1
  counted : (reports.bytes report).toNat =
    (((report.size - 1) >>> 3) + 1).toNat + reports.numbered.toNat

/-- Nothing wraps around for a report that is not empty. -/
theorem HidReportEnum.exact_of_ne_zero (reports : HidReportEnum) {report : HidReport}
    (nonempty : report.size ≠ 0) : reports.Exact report := by
  have small := reports.numbered_le
  have range := report.size.isLt
  have positive : 0 < report.size.toNat := by
    rw [Nat.pos_iff_ne_zero]
    exact fun zero => nonempty (BitVec.eq_of_toNat_eq zero)
  have less : (report.size - 1).toNat = report.size.toNat - 1 := by bv_omega
  have shifted : ((report.size - 1) >>> 3).toNat = (report.size.toNat - 1) / 2 ^ 3 := by
    rw [BitVec.toNat_ushiftRight, Nat.shiftRight_eq_div_pow, less]
  have rounded : (((report.size - 1) >>> 3) + 1).toNat =
      ((report.size - 1) >>> 3).toNat + 1 := by
    rw [BitVec.toNat_add, shifted]
    have one : (1 : BitVec 32).toNat = 1 := rfl
    omega
  refine ⟨by omega, rounded, ?_⟩
  rw [bytes, BitVec.toNat_add, Nat.mod_eq_of_lt]
  omega

/-- A report that is not empty takes its bits rounded up to bytes. -/
theorem HidReportEnum.bytes_of_ne_zero (reports : HidReportEnum) {report : HidReport}
    (nonempty : report.size ≠ 0) :
    (reports.bytes report).toNat = (report.size.toNat + 7) / 8 + reports.numbered.toNat := by
  have computed := reports.exact_of_ne_zero nonempty
  have difference := computed.difference
  rw [computed.counted, computed.rounded, BitVec.toNat_ushiftRight, Nat.shiftRight_eq_div_pow]
  omega

/-- An empty report is taken for half a gigabyte. -/
theorem HidReportEnum.bytes_of_zero (reports : HidReportEnum) {report : HidReport}
    (empty : report.size = 0) :
    (reports.bytes report).toNat = 2 ^ 29 + reports.numbered.toNat := by
  have small := reports.numbered_le
  have wrapped : (((0 : BitVec 32) - 1) >>> 3) + 1 = BitVec.ofNat 32 (2 ^ 29) := by decide
  rw [HidReportEnum.bytes, empty, wrapped, BitVec.toNat_add]
  simp only [BitVec.toNat_ofNat]
  omega

/-- The controller never stores beyond the buffer exactly when no report is
empty and all of them, with the byte of their number, fit into it. -/
theorem transfer_fits_iff (reports : HidReportEnum) :
    (inbuf reports).transferBufferLength ≤ (inbuf reports).allocated ↔
      forall report, report ∈ reports.reportList →
        report.size ≠ 0 ∧ (report.size.toNat + 7) / 8 + reports.numbered.toNat ≤ usbhidBufsize := by
  rw [show ((inbuf reports).transferBufferLength ≤ (inbuf reports).allocated) =
    ((maxsize reports).toNat ≤ usbhidBufsize) from rfl, maxsize_le_iff]
  refine forall₂_congr fun report _ => ?_
  by_cases empty : report.size = 0
  · have huge := reports.bytes_of_zero empty
    refine iff_of_false ?_ (fun both => both.1 empty)
    rw [huge, usbhidBufsize]
    omega
  · rw [reports.bytes_of_ne_zero empty]
    exact (and_iff_right empty).symm

/-- A tablet with one report of 65 bytes and no report numbers. -/
def longReport : HidReportEnum where
  numbered := 0
  reportList := [{ size := 520 }]
  flag := Or.inl rfl

theorem longReport_overruns :
    ¬ (inbuf longReport).transferBufferLength ≤ (inbuf longReport).allocated := by
  decide

/-! ## The loop and the longest report -/

/-- The bytes of a report over the integers: its bits rounded up to bytes, and
the byte of its number. -/
def HidReportEnum.length (reports : HidReportEnum) (report : HidReport) : Nat :=
  (report.size.toNat + 7) / 8 + reports.numbered.toNat

/-- The length of the longest report, zero when there is none. -/
def HidReportEnum.longest (reports : HidReportEnum) : Nat :=
  (reports.reportList.map reports.length).foldr max 0

theorem foldr_max_le_iff (list : List Nat) (bound : Nat) :
    list.foldr max 0 ≤ bound ↔ forall member, member ∈ list → member ≤ bound := by
  induction list with
  | nil => simp
  | cons head rest ih => rw [List.foldr_cons, max_le_iff, ih, List.forall_mem_cons]

theorem HidReportEnum.longest_le_iff (reports : HidReportEnum) (bound : Nat) :
    reports.longest ≤ bound ↔
      forall report, report ∈ reports.reportList → reports.length report ≤ bound := by
  rw [longest, foldr_max_le_iff, List.forall_mem_map]

theorem HidReportEnum.length_le (reports : HidReportEnum) (report : HidReport) :
    reports.length report ≤ 2 ^ 29 + reports.numbered.toNat := by
  have range := report.size.isLt
  rw [length]
  omega

/-- A report as long as the one that wraps around has all but seven of the
longest possible sizes in bits. -/
theorem HidReportEnum.le_length_iff (reports : HidReportEnum) (report : HidReport) :
    2 ^ 29 + reports.numbered.toNat ≤ reports.length report ↔
      2 ^ 32 - 7 ≤ report.size.toNat := by
  rw [length]
  omega

theorem HidReportEnum.le_longest_iff (reports : HidReportEnum) :
    2 ^ 29 + reports.numbered.toNat ≤ reports.longest ↔
      ∃ report, report ∈ reports.reportList ∧ 2 ^ 32 - 7 ≤ report.size.toNat := by
  have below : reports.longest < 2 ^ 29 + reports.numbered.toNat ↔
      forall report, report ∈ reports.reportList →
        reports.length report < 2 ^ 29 + reports.numbered.toNat := by
    have shorter := reports.longest_le_iff (2 ^ 29 + reports.numbered.toNat - 1)
    have pred : forall size, size < 2 ^ 29 + reports.numbered.toNat ↔
        size ≤ 2 ^ 29 + reports.numbered.toNat - 1 := by
      intro size
      omega
    simpa only [pred] using shorter
  rw [← not_lt, below]
  push Not
  exact exists_congr fun report => and_congr_right fun _ => reports.le_length_iff report

/-- Without an empty report the loop finds the longest one. -/
theorem maxsize_of_nonempty (reports : HidReportEnum)
    (nonempty : forall report, report ∈ reports.reportList → report.size ≠ 0) :
    (maxsize reports).toNat = reports.longest := by
  refine eq_of_forall_ge_iff fun bound => ?_
  rw [maxsize_le_iff, reports.longest_le_iff]
  refine forall₂_congr fun report member => ?_
  rw [reports.bytes_of_ne_zero (nonempty report member), HidReportEnum.length]

/-- An empty report decides the result, whatever else is in the list. -/
theorem maxsize_of_zero (reports : HidReportEnum) {report : HidReport}
    (member : report ∈ reports.reportList) (empty : report.size = 0) :
    (maxsize reports).toNat = 2 ^ 29 + reports.numbered.toNat := by
  apply le_antisymm
  · rw [maxsize_le_iff]
    intro other _
    by_cases zero : other.size = 0
    · exact (reports.bytes_of_zero zero).le
    · rw [reports.bytes_of_ne_zero zero]
      exact reports.length_le other
  · rw [← reports.bytes_of_zero empty]
    exact (maxsize_le_iff reports _).mp le_rfl report member

theorem HidReportEnum.exact_iff (reports : HidReportEnum) (report : HidReport) :
    reports.Exact report ↔ report.size ≠ 0 := by
  constructor
  · intro computed zero
    have difference := computed.difference
    rw [zero] at difference
    exact absurd difference (by decide)
  · exact reports.exact_of_ne_zero

/-- The loop leaves the length of the longest report exactly when no report is
empty, or one is so long that the wrapped length of an empty one is the right
answer; and it does so without a wrap exactly when no report is empty. -/
theorem maxsize_eq_longest_iff (reports : HidReportEnum) :
    ((maxsize reports).toNat = reports.longest ↔
      (forall report, report ∈ reports.reportList → report.size ≠ 0) ∨
        ∃ report, report ∈ reports.reportList ∧ 2 ^ 32 - 7 ≤ report.size.toNat) ∧
    (((maxsize reports).toNat = reports.longest ∧
        forall report, report ∈ reports.reportList → reports.Exact report) ↔
      forall report, report ∈ reports.reportList → report.size ≠ 0) := by
  constructor
  · by_cases nonempty : forall report, report ∈ reports.reportList → report.size ≠ 0
    · exact iff_of_true (maxsize_of_nonempty reports nonempty) (Or.inl nonempty)
    · rw [or_iff_right nonempty]
      push Not at nonempty
      rcases nonempty with ⟨report, member, empty⟩
      rw [maxsize_of_zero reports member empty, ← reports.le_longest_iff]
      constructor
      · exact le_of_eq
      · intro long
        refine le_antisymm long ?_
        rw [reports.longest_le_iff]
        intro other _
        exact reports.length_le other
  · have wraps : (forall report, report ∈ reports.reportList → reports.Exact report) ↔
        forall report, report ∈ reports.reportList → report.size ≠ 0 :=
      forall₂_congr fun report _ => reports.exact_iff report
    rw [wraps]
    exact and_iff_right_of_imp (maxsize_of_nonempty reports)

/-- A device with one report of no bits. -/
def emptyReport : HidReportEnum where
  numbered := 0
  reportList := [{ size := 0 }]
  flag := Or.inl rfl

theorem emptyReport_not_longest : (maxsize emptyReport).toNat ≠ emptyReport.longest := by
  decide

end UsbHid
end KernelHacking
