import KernelHacking.Foundations.CString
import KernelHacking.Foundations.Machine
import Mathlib.Logic.Function.Iterate
import Mathlib.Data.List.Count

namespace KernelHacking
namespace SyscallHook

/-!
# Where a hooked open is redirected

`my_sys_open` passes an ordinary file on to the saved `sys_open`, and sends the
open of an mp3, jpg, gif or pdf file to a file of the module's own.  The name
of that file is put together in the directory that the `getcwd` macro returns.

`getcwd` keeps a static pointer to the compiled `__FILE__` and cuts the string
there at its last slash, in place and on every evaluation.  The comment over it
says that it is for compile time.  What the n-th redirected call finds is the
literal cut n times, and when no slash is left the macro writes through the
NULL pointer that `strrchr` returned.
-/

/-- The bytes of a string literal. -/
def ascii (literal : List Char) : List UInt8 :=
  literal.map fun c => UInt8.ofNat c.toNat

def types : List (List UInt8) := [
  ascii ['m', 'p', '3'],
  ascii ['j', 'p', 'g'],
  ascii ['g', 'i', 'f'],
  ascii ['p', 'd', 'f']]

/-- A pointer to a file name, with the bytes mapped below and from it on.
`fun_filetype` looks three bytes back from the end, wherever that is. -/
structure PathPtr where
  below : List UInt8
  mapped : List UInt8

/-- `fun_filetype`, or `none` when it runs into unmapped memory. -/
def funFiletype (filename : PathPtr) : Option (Option (List UInt8)) :=
  match cstr filename.mapped with
  | none => none
  | some name =>
      let readable := filename.below ++ name
      if readable.length < 3 then none
      else
        let ending := nulFreePrefix (readable.drop (readable.length - 3))
        some (types.find? fun type => ending == type)

def slash : UInt8 := 0x2f

/-- The `getcwd` macro, as the string that it cuts its literal down to, or
`none` when `strrchr` finds no slash. -/
def getcwd (cwd : List UInt8) : Option (List UInt8) :=
  (strrchr slash cwd).map fun i => cwd.take i

/-- The address limit of a thread. -/
inductive Segment where
  | userDs
  | kernelDs
  deriving DecidableEq

/-- The path handed to `sys_open`: the caller's own or one in kernel memory. -/
inductive PathArg where
  | user (filename : PathPtr)
  | kernel (path : List UInt8)

structure OpenCall where
  filename : PathPtr
  flags : BitVec 32
  mode : BitVec 16

/-- A call of the saved `sys_open`. -/
structure SysOpen where
  path : PathArg
  flags : BitVec 32
  mode : BitVec 32
  fs : Segment

/-- What a hooked open reads and changes: the string behind `getcwd` and the
address limit of the calling thread. -/
structure Opener where
  cwd : List UInt8
  fs : Segment

def HOOKFILE_SIZE : Nat := 256

/-- The arguments of the `snprintf` that fills `hookfile`. -/
def hookPath (dir filetype : List UInt8) : List UInt8 :=
  dir ++ ascii ['/', 't', 'o', 'p', 'l', 'e', 'l', '/', 't', 'o', 'p', 'l', 'e', 'l', '.'] ++ filetype

/-- `my_sys_open` with the call it makes of the saved `sys_open`, or `none` when
it faults.  The address limit is raised for that call and restored after it. -/
def mySysOpen (opener : Opener) (call : OpenCall) : Option (Opener × SysOpen) :=
  match funFiletype call.filename with
  | none => none
  | some none =>
      some (opener, {
        path := .user call.filename
        flags := call.flags
        mode := call.mode.setWidth 32
        fs := opener.fs })
  | some (some filetype) =>
      match getcwd opener.cwd with
      | none => none
      | some cwd =>
          some ({ opener with cwd := cwd }, {
            path := .kernel ((hookPath cwd filetype).take (HOOKFILE_SIZE - 1))
            flags := call.flags
            mode := call.mode.setWidth 32
            fs := .kernelDs })

/-- The hook under a sequence of open calls.  A call that faults kills its
caller and leaves everything as it was. -/
def openHook : Machine Opener OpenCall (Option SysOpen) where
  step opener call :=
    match mySysOpen opener call with
    | none => (opener, none)
    | some (opener, passed) => (opener, some passed)

/-- The type of a call that the hook redirects. -/
def hookedType (call : OpenCall) : Option (List UInt8) :=
  (funFiletype call.filename).join

def hooked (call : OpenCall) : Bool :=
  (hookedType call).isSome

/-! ## The directory that `getcwd` returns -/

/-- The first evaluation returns the directory of the literal. -/
theorem getcwd_literal (dir : List UInt8) {base : List UInt8} (noSlash : slash ∉ base) :
    getcwd (dir ++ slash :: base) = some dir := by
  rw [getcwd, strrchr_append dir noSlash, Option.map_some, List.take_left]

/-- No evaluation returns the string that it found. -/
theorem getcwd_ne (cwd : List UInt8) : getcwd cwd ≠ some cwd := by
  intro same
  rcases Option.map_eq_some_iff.mp same with ⟨i, found, taken⟩
  have shorter := strrchr_lt found
  have length := congrArg List.length taken
  rw [List.length_take] at length
  omega

/-- What one evaluation leaves of the string. -/
def cut (cwd : List UInt8) : List UInt8 :=
  (getcwd cwd).getD cwd

/-- A redirected call cuts the string once, and every other call leaves it. -/
theorem openHook_cwd (opener : Opener) (call : OpenCall) :
    (openHook.next opener call).cwd = if hooked call then cut opener.cwd else opener.cwd := by
  cases known : funFiletype call.filename with
  | none => simp [Machine.next, openHook, mySysOpen, hooked, hookedType, known]
  | some filetype =>
      cases filetype with
      | none => simp [Machine.next, openHook, mySysOpen, hooked, hookedType, known]
      | some filetype =>
          cases found : getcwd opener.cwd <;>
            simp [Machine.next, openHook, mySysOpen, hooked, hookedType, cut, known, found]

/-- After any calls the string has been cut as often as calls were redirected. -/
theorem openHook_run_cwd (opener : Opener) (calls : List OpenCall) :
    (openHook.run opener calls).cwd = cut^[calls.countP hooked] opener.cwd := by
  induction calls generalizing opener with
  | nil => rfl
  | cons call rest ih =>
      rw [Machine.run_cons, ih, openHook_cwd, List.countP_cons]
      by_cases redirected : hooked call = true
      · rw [if_pos redirected, if_pos redirected, Function.iterate_succ_apply]
      · rw [if_neg redirected, if_neg redirected, Nat.add_zero]

/-- A redirected call opens the hook file of its type in the directory. -/
theorem openHook_out {opener : Opener} {call : OpenCall} {filetype cwd : List UInt8}
    (redirected : hookedType call = some filetype) (found : getcwd opener.cwd = some cwd) :
    (openHook.out opener call).map SysOpen.path =
      some (.kernel ((hookPath cwd filetype).take (HOOKFILE_SIZE - 1))) := by
  have known : funFiletype call.filename = some (some filetype) := Option.join_eq_some_iff.mp redirected
  simp only [Machine.out, openHook, mySysOpen, known, found, Option.map_some]

/-! ## Stability -/

/-- Every redirected call of the sequence finds the directory `dir` and opens
the hook file in it, provided that the path fits into `hookfile`. -/
def StableRedirect (dir : List UInt8) (opener : Opener) (calls : List OpenCall) : Prop :=
  forall before call after, calls = before ++ call :: after →
    forall filetype, hookedType call = some filetype →
      getcwd (openHook.run opener before).cwd = some dir ∧
        ((hookPath dir filetype).length < HOOKFILE_SIZE →
          (openHook.out (openHook.run opener before) call).map SysOpen.path =
            some (.kernel (hookPath dir filetype)))

/-- Among more than `n` marked entries one has exactly `n` marked ones before it. -/
private theorem exists_split_of_countP {Entry : Type*} (marked : Entry → Bool) {n : Nat}
    {entries : List Entry} (more : n < entries.countP marked) :
    ∃ before entry after, entries = before ++ entry :: after ∧ marked entry = true ∧
      before.countP marked = n := by
  induction entries generalizing n with
  | nil => exact absurd more (Nat.not_lt_zero n)
  | cons head rest ih =>
      rw [List.countP_cons] at more
      by_cases first : marked head = true
      · rw [if_pos first] at more
        cases n with
        | zero => exact ⟨[], head, rest, rfl, first, rfl⟩
        | succ n =>
            rcases ih (Nat.succ_lt_succ_iff.mp more) with ⟨before, entry, after, split, mark, count⟩
            refine ⟨head :: before, entry, after, by rw [split]; rfl, mark, ?_⟩
            rw [List.countP_cons, if_pos first, count]
      · rw [if_neg first, Nat.add_zero] at more
        rcases ih more with ⟨before, entry, after, split, mark, count⟩
        refine ⟨head :: before, entry, after, by rw [split]; rfl, mark, ?_⟩
        rw [List.countP_cons, if_neg first, Nat.add_zero, count]

/-- With a literal `dir/base` the redirection is stable exactly as long as at
most one call is redirected. -/
theorem stableRedirect_iff {base : List UInt8} (noSlash : slash ∉ base) (dir : List UInt8)
    (fs : Segment) (calls : List OpenCall) :
    StableRedirect dir { cwd := dir ++ slash :: base, fs := fs } calls ↔
      calls.countP hooked ≤ 1 := by
  have first := getcwd_literal dir noSlash
  constructor
  · intro stable
    by_contra more
    rcases exists_split_of_countP hooked (Nat.not_le.mp more) with
      ⟨before, call, after, split, redirected, count⟩
    rcases Option.isSome_iff_exists.mp redirected with ⟨filetype, known⟩
    have again := (stable before call after split filetype known).1
    rw [openHook_run_cwd, count, Function.iterate_one, cut, first] at again
    exact getcwd_ne dir again
  · intro atMostOne before call after split filetype known
    have redirected : hooked call = true := Option.isSome_iff_exists.mpr ⟨filetype, known⟩
    have none_before : before.countP hooked = 0 := by
      rw [split, List.countP_append, List.countP_cons, if_pos redirected] at atMostOne
      omega
    have found : getcwd (openHook.run { cwd := dir ++ slash :: base, fs := fs } before).cwd =
        some dir := by
      rw [openHook_run_cwd, none_before]
      exact first
    refine ⟨found, ?_⟩
    intro fits
    have whole : (hookPath dir filetype).take (HOOKFILE_SIZE - 1) = hookPath dir filetype :=
      List.take_of_length_le (Nat.le_pred_of_lt fits)
    rw [openHook_out known found, whole]

/-! ## Two opens of one picture -/

/-- The open of `a.jpg` for reading. -/
def openPicture : OpenCall where
  filename := { below := [], mapped := ascii ['a', '.', 'j', 'p', 'g'] ++ [0] }
  flags := 0
  mode := 0

/-- One redirected open finds the directory of `/m/toplel.c`. -/
theorem stableRedirect_once :
    StableRedirect (ascii ['/', 'm'])
      { cwd := ascii ['/', 'm'] ++ slash :: ascii ['t', 'o', 'p', 'l', 'e', 'l', '.', 'c']
        fs := .userDs } [openPicture] := by
  have noSlash : slash ∉ ascii ['t', 'o', 'p', 'l', 'e', 'l', '.', 'c'] := by decide
  exact (stableRedirect_iff noSlash (ascii ['/', 'm']) .userDs [openPicture]).mpr (by decide)

/-- The second open is sent to the root directory. -/
theorem stableRedirect_not_twice :
    ¬ StableRedirect (ascii ['/', 'm'])
      { cwd := ascii ['/', 'm'] ++ slash :: ascii ['t', 'o', 'p', 'l', 'e', 'l', '.', 'c']
        fs := .userDs } [openPicture, openPicture] := by
  intro stable
  have second := (stable [openPicture] openPicture [] rfl (ascii ['j', 'p', 'g']) (by decide)).1
  revert second
  decide

end SyscallHook
end KernelHacking
