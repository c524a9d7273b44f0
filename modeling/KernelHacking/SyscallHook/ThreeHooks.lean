import KernelHacking.Foundations.Machine
import KernelHacking.SyscallHook.Patch
import KernelHacking.SyscallHook.Redirect

namespace KernelHacking
namespace SyscallHook

/-!
# The module with three hooks, one assignment at a time

`toplel_init` and `toplel_exit` of `4-hooks/3` change three entries of the table
one after another, and other processes open files and make and remove
directories meanwhile.  A call goes where its entry of the table leads at that
moment.

The hooks handle the path that a process passes as a string of their own.  They
look for its end, and `my_sys_open` compares from four bytes before it on,
wherever that is.
-/

/-- The addresses of the kernel and of the three hooks, and the file that is
opened instead of an mp3. -/
structure ThreeHooks extends Kernel where
  mySysMkdir : Word
  mySysRmdir : Word
  rickrollFilepath : List UInt8
  mkdirMapped : mySysMkdir ≠ 0
  rmdirMapped : mySysRmdir ≠ 0
  openNeMkdir : mySysOpen ≠ mySysMkdir
  openNeRmdir : mySysOpen ≠ mySysRmdir
  mkdirNeRmdir : mySysMkdir ≠ mySysRmdir

def ThreeHooks.hook (k : ThreeHooks) : Sys → Word
  | .openFile => k.mySysOpen
  | .mkdir => k.mySysMkdir
  | .rmdir => k.mySysRmdir

/-- A path of a user's.  `printk` does not look into the first page. -/
structure UserPath extends PathPtr where
  firstPage : Bool

/-- A system call by some process.  `fs` is the address limit of its thread. -/
inductive Request where
  | openFile (call : OpenCall) (fs : Segment)
  | mkdir (pathname : UserPath) (mode : BitVec 16)
  | rmdir (pathname : UserPath)

def Request.sys : Request → Sys
  | .openFile _ _ => .openFile
  | .mkdir _ _ => .mkdir
  | .rmdir _ => .rmdir

/-- What one of the kernel's own functions is called with. -/
inductive Invocation where
  | openFile (call : SysOpen)
  | mkdir (pathname : UserPath) (mode : BitVec 16)
  | rmdir (pathname : UserPath)

/-- The arguments as the process passed them. -/
def Request.plain : Request → Invocation
  | .openFile call fs =>
      .openFile {
        path := .user call.filename
        flags := call.flags
        mode := call.mode.setWidth 32
        fs := fs }
  | .mkdir pathname mode => .mkdir pathname mode
  | .rmdir pathname => .rmdir pathname

def mp3 : List UInt8 := ascii ['.', 'm', 'p', '3']

/-- `!strcmp(filename + strlen(filename) - 4, ".mp3")`, or `none` when that runs
into unmapped memory. -/
def isMp3 (filename : PathPtr) : Option Bool :=
  match cstr filename.mapped with
  | none => none
  | some name =>
      let readable := filename.below ++ name
      if readable.length < 4 then none
      else some (nulFreePrefix (readable.drop (readable.length - 4)) == mp3)

/-- `printk` with a `%s` for the path. -/
def printable (pathname : UserPath) : Bool :=
  pathname.firstPage || (cstr pathname.mapped).isSome

/-- `my_sys_open`, `my_sys_mkdir` and `my_sys_rmdir` up to the call that they
make, or `none` when they fault.  What `my_sys_open` prints about some of the
names reads no more than it does to find their end. -/
def handle (k : ThreeHooks) : Request → Option Invocation
  | .openFile call fs =>
      match isMp3 call.filename with
      | none => none
      | some false => some (Request.openFile call fs).plain
      | some true =>
          some (.openFile {
            path := .kernel k.rickrollFilepath
            flags := call.flags
            mode := call.mode.setWidth 32
            fs := .kernelDs })
  | .mkdir pathname mode => if printable pathname then some (.mkdir pathname mode) else none
  | .rmdir pathname => if printable pathname then some (.rmdir pathname) else none

/-- The module between its assignments.  `loaded` says whether it is loaded, or
being loaded, as opposed to unloaded or being unloaded. -/
structure Loader where
  patch : Patch
  pending : List Assignment := []
  loaded : Bool := false

/-- A step of the module or a call by a process. -/
inductive Turn where
  | insmod
  | rmmod
  | assign
  | request (request : Request)

/-- `toplel_init` returned, a call faulted, or functions of the kernel were
called with these arguments. -/
inductive Answered where
  | quiet
  | returned (ret : Int)
  | faulted
  | reached (calls : List (Word × Invocation))

/-- The entry that the processor takes a call to. -/
def ThreeHooks.entry (k : ThreeHooks) (call : Sys) : Word := entryOf k.sysCallTable call.nr

/-- A system call, dispatched through the processor's table. -/
def dispatch (k : ThreeHooks) (p : Patch) (request : Request) : Answered :=
  let target := p.mem (k.entry request.sys)
  if target = k.hook request.sys then
    match handle k request with
    | none => .faulted
    | some invocation => .reached [(p.vars.orig request.sys, invocation)]
  else .reached [(target, request.plain)]

def Loader.step (k : ThreeHooks) (s : Loader) : Turn → Loader × Answered
  | .insmod =>
      if s.pending = [] ∧ s.loaded = false then
        ({ patch := { s.patch with vars := {} }
           pending := .search :: installing moreCalls
           loaded := true }, .quiet)
      else (s, .quiet)
  | .rmmod =>
      if s.pending = [] ∧ s.loaded = true then
        ({ s with pending := removing moreCalls, loaded := false }, .quiet)
      else (s, .quiet)
  | .assign =>
      match s.pending with
      | [] => (s, .quiet)
      | assignment :: rest =>
          let patch := s.patch.assign k.toKernel k.hook assignment
          if assignment = .search ∧ patch.vars.syscallTable = 0 then
            ({ patch := patch, pending := [], loaded := false }, .returned (-1))
          else
            ({ s with patch := patch, pending := rest },
              if rest = [] ∧ s.loaded = true then .returned 0 else .quiet)
  | .request request => (s, dispatch k s.patch request)

/-- The module and the processes of the system in any interleaving. -/
def threeHooks (k : ThreeHooks) : Machine Loader Turn Answered where
  step := Loader.step k

/-- The kernel before the module is loaded. -/
def Loader.boot (image : Memory) (cr0 : Word) : Loader where
  patch := { mem := image, cr0 := cr0 }

/-! ## How far the module has got

The entries that are saved and the entries that are hooked say which assignments
are in order.  Loading and unloading are checked by running them on these alone.
-/

structure Progress where
  found : Bool
  saved : Sys → Bool
  hooked : Sys → Bool

namespace Progress

/-- Nothing is saved or hooked. -/
def none : Progress where
  found := false
  saved _ := false
  hooked _ := false

/-- The assignment is in order. -/
def allows (g : Progress) : Assignment → Bool
  | .search => !g.hooked .openFile && !g.hooked .mkdir && !g.hooked .rmdir
  | .disable => true
  | .save call => g.found && !g.hooked call
  | .install call => g.found && g.saved call
  | .restore call => g.found && g.saved call
  | .enable => true

def after (g : Progress) : Assignment → Progress
  | .search => { none with found := true }
  | .save call => { g with saved := Function.update g.saved call true }
  | .install call => { g with hooked := Function.update g.hooked call true }
  | .restore call => { g with hooked := Function.update g.hooked call false }
  | _ => g

def checks (g : Progress) : List Assignment → Option Progress
  | [] => some g
  | assignment :: rest => if g.allows assignment then (g.after assignment).checks rest else Option.none

/-- Where loading and unloading are to end. -/
def settled (g : Progress) : Bool → Bool
  | true =>
      g.found && g.saved .openFile && g.saved .mkdir && g.saved .rmdir
  | false => !g.hooked .openFile && !g.hooked .mkdir && !g.hooked .rmdir

theorem load_checks : ∃ g, none.checks (.search :: installing moreCalls) = some g ∧
    g.settled true = true :=
  ⟨_, rfl, rfl⟩

theorem unload_checks {g : Progress} (settled : g.settled true = true) :
    ∃ g', g.checks (removing moreCalls) = some g' ∧ g'.settled false = true := by
  simp_all [Progress.settled, removing, moreCalls, checks, allows, after]

/-! ### What the progress says about memory and variables -/

/-- The memory is `image` with hooks in some entries of the table at `table`. -/
structure Describes (g : Progress) (k : ThreeHooks) (image : Memory) (p : Patch) : Prop where
  found : g.found = true → p.vars.syscallTable = k.sysCallTable
  saved : forall call, g.saved call = true → p.vars.orig call = image (k.entry call)
  reserved : forall call, g.hooked call = true → g.saved call = true
  entries : forall call,
    p.mem (k.entry call) = if g.hooked call then k.hook call else image (k.entry call)
  others : forall address, (forall call, address ≠ k.entry call) → p.mem address = image address

variable {g : Progress} {k : ThreeHooks} {image : Memory} {p : Patch}

theorem entry_injective {call other : Sys} (same : k.entry call = k.entry other) : call = other :=
  entryOf_nr_injective same

theorem Describes.clean (described : g.Describes k image p)
    (settled : g.settled false = true) : p.mem = image := by
  have none_hooked : forall call, g.hooked call = false := by
    intro call
    cases call <;> simp_all [Progress.settled]
  funext address
  by_cases entry : ∃ call, address = k.entry call
  · rcases entry with ⟨call, rfl⟩
    rw [described.entries, none_hooked, if_neg Bool.false_ne_true]
  · exact described.others address (not_exists.mp entry)

/-- Writing to one entry. -/
theorem Describes.write (described : g.Describes k image p) (call : Sys) (hook : Bool)
    {value : Word} (becomes : value = if hook then k.hook call else image (k.entry call))
    (saved : g.saved call = true) :
    Describes { g with hooked := Function.update g.hooked call hook } k image
      { p with mem := Function.update p.mem (k.entry call) value } where
  found := described.found
  saved := described.saved
  reserved := by
    intro other hooked
    by_cases same : other = call
    · subst same
      exact saved
    · exact described.reserved other ((Function.update_of_ne same ..).symm.trans hooked)
  entries := by
    intro other
    by_cases same : other = call
    · subst same
      simp only [Function.update_self, becomes]
    · have apart : k.entry other ≠ k.entry call := fun equal => same (entry_injective equal)
      simp only [Function.update_of_ne same, Function.update_of_ne apart]
      exact described.entries other
  others := by
    intro address outside
    simp only [Function.update_of_ne (outside call)]
    exact described.others address outside

theorem Describes.assign (described : g.Describes k image p) {assignment : Assignment}
    (allowed : g.allows assignment = true)
    (located : assignment = .search → findSysCallTable k.toKernel p.mem = k.sysCallTable) :
    (g.after assignment).Describes k image (p.assign k.toKernel k.hook assignment) := by
  have entry : g.found = true → forall call, p.entry call = k.entry call := by
    intro found call
    rw [Patch.entry, described.found found, ThreeHooks.entry]
  cases assignment with
  | search =>
      have settled : g.settled false = true := allowed
      have clean := described.clean settled
      exact {
        found := fun _ => located rfl
        saved := fun _ saved => Bool.noConfusion saved
        reserved := fun _ hooked => Bool.noConfusion hooked
        entries := fun call => congrFun clean (k.entry call)
        others := fun address _ => congrFun clean address }
  | disable | enable =>
      exact ⟨described.found, described.saved, described.reserved, described.entries,
        described.others⟩
  | save call =>
      simp only [allows, Bool.and_eq_true, Bool.not_eq_true'] at allowed
      refine {
        found := described.found
        saved := ?_
        reserved := ?_
        entries := described.entries
        others := described.others }
      · intro other saved
        by_cases same : other = call
        · subst same
          simp only [Patch.assign, Function.update_self]
          rw [entry allowed.1, described.entries, allowed.2, if_neg Bool.false_ne_true]
        · simp only [after, Function.update_of_ne same] at saved
          simp only [Patch.assign, Function.update_of_ne same]
          exact described.saved other saved
      · intro other hooked
        by_cases same : other = call
        · subst same
          exact Function.update_self ..
        · simp only [after, Function.update_of_ne same]
          exact described.reserved other hooked
  | install call =>
      simp only [allows, Bool.and_eq_true] at allowed
      have written := described.write call true rfl allowed.2
      rw [← entry allowed.1 call] at written
      exact written
  | restore call =>
      simp only [allows, Bool.and_eq_true] at allowed
      have written := described.write call false (described.saved call allowed.2) allowed.2
      rw [← entry allowed.1 call] at written
      exact written

end Progress

/-! ## What the hooks make of a call -/

/-- The open of a file whose name ends in `.mp3`. -/
def Request.Mp3 : Request → Prop
  | .openFile call _ => ∃ name, cstr call.filename.mapped = some name ∧ mp3 <:+ name
  | _ => False

/-- The flags and the mode of a call are passed on. -/
def Request.Keeps : Request → Invocation → Prop
  | .openFile call _, .openFile sys => sys.flags = call.flags ∧ sys.mode = call.mode.setWidth 32
  | request, invocation => invocation = request.plain

/-- The original function was called once, with the same flags and mode, and
with the same path unless an mp3 was opened. -/
def Delivered (original : Word) (request : Request) (outcome : Answered) : Prop :=
  ∃ invocation, outcome = .reached [(original, invocation)] ∧ request.Keeps invocation ∧
    (¬ request.Mp3 → invocation = request.plain)

/-- The hook can read the path to its end, and finds the missing bytes of a file
name of less than four below it, which do not complete it to `.mp3`. -/
def Request.Legible : Request → Prop
  | .openFile call _ =>
      ∃ name, cstr call.filename.mapped = some name ∧
        4 ≤ call.filename.below.length + name.length ∧
        (name.length < 4 → isMp3 call.filename = some false)
  | .mkdir pathname _ => printable pathname = true
  | .rmdir pathname => printable pathname = true

/-- Names of four bytes and more are compared by their last four. -/
theorem isMp3_long {filename : PathPtr} {name : List UInt8}
    (found : cstr filename.mapped = some name) (long : 4 ≤ name.length) :
    isMp3 filename = some (name.drop (name.length - 4) == mp3) := by
  have free := ((cstr_eq_some_iff _ _).mp found).1
  have whole : (filename.below ++ name).length = filename.below.length + name.length :=
    List.length_append
  have ending : (filename.below ++ name).drop ((filename.below ++ name).length - 4) =
      name.drop (name.length - 4) := by
    rw [whole, List.drop_append, List.drop_eq_nil_of_le (by omega), List.nil_append]
    congr 1
    omega
  have plain : nulFreePrefix (name.drop (name.length - 4)) = name.drop (name.length - 4) :=
    (nulFreePrefix_eq_self_iff _).mpr fun member => free (List.mem_of_mem_drop member)
  have enough : ¬ (filename.below ++ name).length < 4 := by omega
  simp only [isMp3, found, if_neg enough, ending, plain]

theorem mp3_suffix_iff (name : List UInt8) :
    mp3 <:+ name ↔ 4 ≤ name.length ∧ name.drop (name.length - 4) = mp3 := by
  constructor
  · intro suffix
    exact ⟨suffix.length_le, (List.suffix_iff_eq_drop.mp suffix).symm⟩
  · rintro ⟨_, ending⟩
    rw [← ending]
    exact List.drop_suffix _ _

/-- A hook passes a call on as it should exactly when the path is legible. -/
theorem handle_iff (k : ThreeHooks) (request : Request) :
    (∃ invocation, handle k request = some invocation ∧ request.Keeps invocation ∧
      (¬ request.Mp3 → invocation = request.plain)) ↔ request.Legible := by
  cases request with
  | openFile call fs =>
      cases found : cstr call.filename.mapped with
      | none =>
          simp [handle, isMp3, found, Request.Legible]
      | some name =>
          by_cases short : call.filename.below.length + name.length < 4
          · have unread : isMp3 call.filename = none := by
              simp only [isMp3, found, List.length_append, if_pos short]
            simp [handle, unread, found, Request.Legible, Nat.not_le.mpr short]
          · have enough : 4 ≤ call.filename.below.length + name.length := Nat.not_lt.mp short
            have read : ∃ answer, isMp3 call.filename = some answer := by
              simp only [isMp3, found, List.length_append, if_neg short, Option.some.injEq,
                exists_eq']
            rcases read with ⟨answer, read⟩
            cases answer with
            | false =>
                have passed : handle k (.openFile call fs) = some (Request.openFile call fs).plain := by
                  simp only [handle, read]
                refine iff_of_true ⟨_, passed, ⟨rfl, rfl⟩, fun _ => rfl⟩ ?_
                exact ⟨name, found, enough, fun _ => read⟩
            | true =>
                have legible : Request.Legible (.openFile call fs) ↔ 4 ≤ name.length := by
                  simp [Request.Legible, found, read, enough]
                have isMp3 : Request.Mp3 (.openFile call fs) ↔ 4 ≤ name.length := by
                  simp only [Request.Mp3, found, Option.some.injEq, exists_eq_left']
                  rw [mp3_suffix_iff]
                  refine and_iff_left_of_imp fun long => ?_
                  rw [isMp3_long found long] at read
                  exact eq_of_beq (Option.some.inj read)
                simp only [handle, read, legible, isMp3]
                constructor
                · rintro ⟨invocation, passed, _, path⟩
                  by_contra notLong
                  have plain := path notLong
                  cases passed
                  exact nomatch plain
                · intro long
                  exact ⟨_, rfl, ⟨rfl, rfl⟩, fun notLong => absurd long notLong⟩
  | mkdir pathname mode =>
      by_cases readable : printable pathname = true
      · simp [handle, readable, Request.Legible, Request.Keeps, Request.plain]
      · simp [handle, readable, Request.Legible]
  | rmdir pathname =>
      by_cases readable : printable pathname = true
      · simp [handle, readable, Request.Legible, Request.Keeps, Request.plain]
      · simp [handle, readable, Request.Legible]

/-! ## Every run -/

/-- What holds between any two assignments of a run that began with `image`. -/
structure SafeState (k : ThreeHooks) (image : Memory) (s : Loader) : Prop where
  saved : forall call, s.patch.mem (k.entry call) = k.hook call →
    s.patch.vars.orig call ≠ 0 ∧ forall other, s.patch.vars.orig call ≠ k.hook other
  refused : findSysCallTable k.toKernel image = 0 →
    s.patch.mem = image ∧ s.patch.vars.orig = fun _ => 0
  restored : s.pending = [] → s.loaded = false → s.patch.mem = image
  others : forall address, (forall call, address ≠ k.entry call) →
    s.patch.mem address = image address

/-- What a step answers. -/
def SafeTurn (k : ThreeHooks) (image : Memory) (s : Loader) : Turn → Prop
  | .request request =>
      Delivered (image (k.entry request.sys)) request ((threeHooks k).out s (.request request))
  | .assign =>
      forall rest, s.pending = .search :: rest → findSysCallTable k.toKernel image = 0 →
        (threeHooks k).out s .assign = .returned (-1)
  | _ => True

/-- Every state and every step of a run is safe. -/
def SafeRun (k : ThreeHooks) (image : Memory) (cr0 : Word) (turns : List Turn) : Prop :=
  (forall before after, turns = before ++ after →
    SafeState k image ((threeHooks k).run (Loader.boot image cr0) before)) ∧
  (threeHooks k).Along (SafeTurn k image) (Loader.boot image cr0) turns

/-- A call that is dispatched to a hook is legible to it. -/
def LegibleTurn (k : ThreeHooks) (s : Loader) : Turn → Prop
  | .request request =>
      s.patch.mem (k.entry request.sys) = k.hook request.sys → request.Legible
  | _ => True

section Run

variable {k : ThreeHooks} {image : Memory}

/-- The progress of the module leads to where it is to end. -/
structure OnTrack (k : ThreeHooks) (image : Memory) (s : Loader) : Prop where
  progress : ∃ g : Progress, g.Describes k image s.patch ∧
    ∃ g', g.checks s.pending = some g' ∧ g'.settled s.loaded = true
  refused : findSysCallTable k.toKernel image = 0 →
    s.patch.vars.orig = (fun _ => 0) ∧ s.patch.mem = image ∧
      (s.pending = [] ∧ s.loaded = false ∨ s.pending = .search :: installing moreCalls)

theorem Progress.none_describes {p : Patch} (clean : p.mem = image) :
    Progress.none.Describes k image p where
  found := nofun
  saved := nofun
  reserved := nofun
  entries call := congrFun clean (k.entry call)
  others address _ := congrFun clean address

theorem OnTrack.boot (cr0 : Word) : OnTrack k image (Loader.boot image cr0) where
  progress := ⟨Progress.none, Progress.none_describes rfl, _, rfl, rfl⟩
  refused _ := ⟨rfl, rfl, Or.inl ⟨rfl, rfl⟩⟩

theorem OnTrack.clean {s : Loader} (track : OnTrack k image s) (returned : s.pending = [])
    (unloaded : s.loaded = false) : s.patch.mem = image := by
  rcases track.progress with ⟨g, described, g', checked, settled⟩
  rw [returned] at checked
  cases checked
  rw [unloaded] at settled
  exact described.clean settled

theorem OnTrack.insmod {s : Loader} (track : OnTrack k image s) :
    OnTrack k image (s.step k .insmod).1 := by
  rw [Loader.step]
  split_ifs with unloaded
  · have clean := track.clean unloaded.1 unloaded.2
    exact {
      progress := ⟨Progress.none, Progress.none_describes clean, Progress.load_checks⟩
      refused := fun _ => ⟨rfl, clean, Or.inr rfl⟩ }
  · exact track

theorem OnTrack.rmmod {s : Loader} (track : OnTrack k image s) :
    OnTrack k image (s.step k .rmmod).1 := by
  rw [Loader.step]
  split_ifs with loaded
  · rcases track.progress with ⟨g, described, g', checked, settled⟩
    rw [loaded.1] at checked
    cases checked
    rw [loaded.2] at settled
    refine ⟨⟨g, described, Progress.unload_checks settled⟩, fun missing => ?_⟩
    rcases track.refused missing with ⟨_, _, ⟨_, unloaded⟩ | searching⟩
    · exact absurd (unloaded.symm.trans loaded.2) Bool.false_ne_true
    · exact nomatch loaded.1.symm.trans searching
  · exact track

theorem OnTrack.assign
    (located : findSysCallTable k.toKernel image = 0 ∨
      findSysCallTable k.toKernel image = k.sysCallTable)
    {s : Loader} (track : OnTrack k image s) : OnTrack k image (s.step k .assign).1 := by
  cases pending : s.pending with
  | nil =>
      simp only [Loader.step, pending]
      exact track
  | cons assignment rest =>
      rcases track.progress with ⟨g, described, g', checked, settled⟩
      rw [pending, Progress.checks] at checked
      split_ifs at checked with allowed
      have clean : assignment = .search → s.patch.mem = image := by
        rintro rfl
        exact described.clean allowed
      by_cases missing : findSysCallTable k.toKernel image = 0
      · rcases track.refused missing with ⟨orig, mem, ⟨done, _⟩ | searching⟩
        · exact nomatch pending.symm.trans done
        · rcases List.cons.inj (pending.symm.trans searching) with ⟨rfl, _⟩
          have notFound : (s.patch.assign k.toKernel k.hook .search).vars.syscallTable = 0 := by
            rw [← missing, ← mem]
            rfl
          simp only [Loader.step, pending, notFound, and_self, if_true]
          exact {
            progress := ⟨Progress.none, Progress.none_describes mem, _, rfl, rfl⟩
            refused := fun _ => ⟨orig, mem, Or.inl ⟨rfl, rfl⟩⟩ }
      · have goesOn : ¬ (assignment = .search ∧
            (s.patch.assign k.toKernel k.hook assignment).vars.syscallTable = 0) := by
          rintro ⟨rfl, notFound⟩
          apply missing
          rw [← clean rfl]
          exact notFound
        simp only [Loader.step, pending, if_neg goesOn]
        refine ⟨⟨g.after assignment, ?_, g', checked, settled⟩, fun impossible =>
          absurd impossible missing⟩
        apply described.assign allowed
        intro search
        rw [clean search]
        exact located.resolve_left missing

theorem OnTrack.step
    (located : findSysCallTable k.toKernel image = 0 ∨
      findSysCallTable k.toKernel image = k.sysCallTable)
    {s : Loader} (track : OnTrack k image s) (turn : Turn) :
    OnTrack k image ((threeHooks k).next s turn) := by
  cases turn with
  | insmod => exact track.insmod
  | rmmod => exact track.rmmod
  | assign => exact track.assign located
  | request request => exact track

theorem OnTrack.safe (present : forall call, image (k.entry call) ≠ 0)
    (foreign : forall call other, image (k.entry call) ≠ k.hook other)
    {s : Loader} (track : OnTrack k image s) : SafeState k image s where
  saved := by
    rcases track.progress with ⟨g, described, _⟩
    intro call dispatched
    have hooked : g.hooked call = true := by
      by_contra notHooked
      rw [described.entries, if_neg notHooked] at dispatched
      exact foreign call call dispatched
    rw [described.saved call (described.reserved call hooked)]
    exact ⟨present call, foreign call⟩
  refused missing := ⟨(track.refused missing).2.1, (track.refused missing).1⟩
  restored := track.clean
  others := by
    rcases track.progress with ⟨g, described, _⟩
    exact described.others

/-- A call is delivered if its hook can read it or it does not meet the hook. -/
theorem OnTrack.delivered_iff (foreign : forall call other, image (k.entry call) ≠ k.hook other)
    {s : Loader} (track : OnTrack k image s) (request : Request) :
    Delivered (image (k.entry request.sys)) request (dispatch k s.patch request) ↔
      (s.patch.mem (k.entry request.sys) = k.hook request.sys → request.Legible) := by
  rcases track.progress with ⟨g, described, _⟩
  by_cases hooked : s.patch.mem (k.entry request.sys) = k.hook request.sys
  · have installed : g.hooked request.sys = true := by
      by_contra notHooked
      rw [described.entries, if_neg notHooked] at hooked
      exact foreign _ _ hooked
    have original := described.saved _ (described.reserved _ installed)
    rw [← handle_iff k request]
    simp only [hooked, forall_const, dispatch, if_true, original, Delivered]
    cases handled : handle k request with
    | none => simp
    | some invocation => simp
  · have original : s.patch.mem (k.entry request.sys) = image (k.entry request.sys) := by
      rw [described.entries] at hooked ⊢
      split_ifs at hooked ⊢ with installed
      · exact absurd rfl hooked
      · rfl
    refine iff_of_true ?_ (fun dispatched => absurd dispatched hooked)
    refine ⟨request.plain, ?_, ?_, fun _ => rfl⟩
    · simp only [dispatch, if_neg hooked]
      rw [original]
    · cases request <;> first | exact ⟨rfl, rfl⟩ | exact rfl

theorem OnTrack.turn_iff (foreign : forall call other, image (k.entry call) ≠ k.hook other)
    {s : Loader} (track : OnTrack k image s) (turn : Turn) :
    SafeTurn k image s turn ↔ LegibleTurn k s turn := by
  cases turn with
  | request request => exact track.delivered_iff foreign request
  | insmod | rmmod => exact Iff.rfl
  | assign =>
      refine iff_of_true (fun rest pending missing => ?_) trivial
      have notFound : (s.patch.assign k.toKernel k.hook .search).vars.syscallTable = 0 := by
        rw [← missing, ← (track.refused missing).2.1]
        rfl
      simp only [Machine.out, threeHooks, Loader.step, pending, notFound, and_self, if_true]

/-- Whatever is interleaved with loading and unloading, a run is safe exactly
when every call that meets a hook is legible to it.  The search finds no table or
(`located`) the one that calls are dispatched through, whose three entries are not
NULL and not hooks of this module. -/
theorem safeRun_iff_legible (cr0 : Word) (turns : List Turn)
    (located : findSysCallTable k.toKernel image = 0 ∨
      findSysCallTable k.toKernel image = k.sysCallTable)
    (present : forall call, image (k.entry call) ≠ 0)
    (foreign : forall call other, image (k.entry call) ≠ k.hook other) :
    SafeRun k image cr0 turns ↔
      (threeHooks k).Along (LegibleTurn k) (Loader.boot image cr0) turns := by
  have onTrack : forall before,
      OnTrack k image ((threeHooks k).run (Loader.boot image cr0) before) := fun before =>
    (threeHooks k).run_invariant_of_step (OnTrack k image)
      (fun _ turn track => track.step located turn) (OnTrack.boot cr0) before
  have same := (threeHooks k).along_iff_of_invariant (OnTrack k image) (SafeTurn k image)
    (LegibleTurn k) (fun _ turn track => track.step located turn)
    (fun _ turn track => track.turn_iff foreign turn) (OnTrack.boot cr0) turns
  rw [SafeRun, same]
  exact and_iff_right fun before _ _ => (onTrack before).safe present foreign

end Run

/-! ## A kernel with the three hooks -/

/-- Two more functions of the module, and a picture. -/
def smallHooks : ThreeHooks where
  toKernel := smallKernel
  mySysMkdir := 0x3100
  mySysRmdir := 0x3200
  rickrollFilepath := ascii ['/', 'm', '.', 'm', 'p', '3']
  mkdirMapped := by decide
  rmdirMapped := by decide
  openNeMkdir := by decide
  openNeRmdir := by decide
  mkdirNeRmdir := by decide

/-- The entry for `close` is `sys_close`, and every other word is a function. -/
def smallTable : Memory :=
  fun address => if address = 0x1020 then 0x1000 else 0x2000

/-- A directory is made while the module is being loaded and once it is. -/
def makeDirectory : List Turn :=
  let request := Request.mkdir
    { below := [], mapped := ascii ['a'] ++ [0], firstPage := false } 0
  [.insmod] ++ List.replicate 6 .assign ++ [.request request] ++ List.replicate 4 .assign ++
    [.request request, .rmmod] ++ List.replicate 5 .assign

theorem makeDirectory_safe : SafeRun smallHooks smallTable CR0_WP makeDirectory := by
  apply (safeRun_iff_legible CR0_WP makeDirectory (Or.inr (by decide)) ?_ ?_).mpr
  · refine ⟨trivial, trivial, trivial, trivial, trivial, trivial, trivial, fun _ => rfl, trivial,
      trivial, trivial, trivial, fun _ => rfl, trivial, trivial, trivial, trivial, trivial, trivial,
      trivial⟩
  · intro call
    cases call <;> decide
  · intro call other
    cases call <;> cases other <;> decide

/-- The open of `p3`, whose name stands in memory behind the bytes `.m`. -/
def openTail : OpenCall where
  filename := { below := ascii ['.', 'm'], mapped := ascii ['p', '3'] ++ [0] }
  flags := 0
  mode := 0

/-- It is taken for the open of an mp3. -/
theorem openTail_not_safe :
    ¬ forall turns, SafeRun smallHooks smallTable CR0_WP turns := by
  intro safe
  have along := (safe ([.insmod] ++ List.replicate 10 .assign ++
    [.request (.openFile openTail .userDs)])).2
  have last := ((threeHooks smallHooks).along_iff_forall_split _ _ _).mp along
    ([.insmod] ++ List.replicate 10 .assign) (.request (.openFile openTail .userDs)) [] rfl
  rcases last with ⟨invocation, reached, _, path⟩
  have notMp3 : ¬ (Request.openFile openTail .userDs).Mp3 := by
    rintro ⟨name, found, suffix⟩
    cases found
    exact absurd suffix.length_le (by decide)
  rw [path notMp3] at reached
  cases reached

end SyscallHook
end KernelHacking
