import KernelHacking.Foundations.CompareExchange
import KernelHacking.Random.Credit

namespace KernelHacking
namespace Random

open CompareExchange

/-!
# The entropy that the pools give out

Sources of noise credit the input pool.  The blocking pool is filled from it when a
reader finds too little there, or by the work that spills over, and what is read
from `/dev/random` is debited to the blocking pool.  The other generator takes its
keys from the input pool.  Each count is changed by compare-and-exchange, by any
number of tasks at the same time.
-/

inductive Store
  | input
  | blocking
deriving DecidableEq, Repr

def Store.info : Store → PoolInfo
  | .input => inputInfo
  | .blocking => outputInfo

/-- What a task does next.  `after` is what a reader asked for before the transfer. -/
inductive Work
  | idle
  /-- `credit_entropy_bits` of the input pool -/
  | source (nbits : Int)
  /-- `crng_reseed` -/
  | seed
  /-- `xfer_secondary_pool` of a reader, before it looks at the count -/
  | look (nbytes : Nat)
  /-- `_xfer_secondary_pool`, in `account` -/
  | pull (bytes least : Nat) (after : Option Nat)
  /-- `_xfer_secondary_pool`, in `credit_entropy_bits` -/
  | fill (bytes : Nat) (after : Option Nat)
  /-- `extract_entropy_user`, in `account` -/
  | take (nbytes : Nat)
  /-- `_random_read`, which was given nothing -/
  | wait (nbytes : Nat)
  /-- `extract_entropy_user`, in its loop -/
  | copy (nbytes : Nat)
deriving DecidableEq, Repr

/-- What a task is called for, or how it goes on; `wakeupBits` is
`random_read_wakeup_bits` when the task looks at it. -/
inductive Input
  | credit (nbits : Int)
  | ioctl (entCount : Int)
  | reseed
  | push (wakeupBits : Nat)
  | read (nbytes : Nat)
  | proceed (wakeupBits : Nat)
  | leave
deriving DecidableEq, Repr

inductive Env
  | zap (store : Store)
deriving DecidableEq, Repr

inductive Event
  | credited (nbits : Int)
  | seeded (bytes : Nat)
  | handed (bytes : Nat)
deriving DecidableEq, Repr

def secXferSize : Nat := 512
def extractSize : Nat := 10

/-- The bytes that `_xfer_secondary_pool` asks for: at least a wakeup's worth, and at
most its buffer. -/
def xferBytes (wakeupBits nbytes : Nat) : Nat := min (max nbytes (wakeupBits / 8)) 128

/-- A credit of nothing returns at once. -/
def Work.ofCredit (nbits : Int) : Work := if nbits = 0 then .idle else .source nbits

/-- Behind a transfer. -/
def Work.ofAfter : Option Nat → Work
  | none => .idle
  | some nbytes => .take nbytes

/-- The changes of the counts. -/
def changes : Work → Option (Update Store Int Work Event)
  | .source nbits =>
      some
        { cell := .input
          renew := credit inputInfo nbits
          next _ := (.idle, [.credited nbits]) }
  | .seed =>
      some
        { cell := .input
          renew count := (account 32 16 0 count).1
          next count := (.idle, [.seeded (account 32 16 0 count).2]) }
  | .pull bytes least after =>
      some
        { cell := .input
          renew count := (account bytes least 0 count).1
          next count :=
            let ibytes := (account bytes least 0 count).2
            (if ibytes = 0 then .ofAfter after else .fill ibytes after, []) }
  | .fill bytes after =>
      some
        { cell := .blocking
          renew := credit outputInfo (bytes * 8)
          next _ := (.ofAfter after, []) }
  | .take nbytes =>
      some
        { cell := .blocking
          renew count := (account nbytes 0 0 count).1
          next count :=
            let ibytes := (account nbytes 0 0 count).2
            (if ibytes = 0 then .wait nbytes else .copy ibytes, []) }
  | _ => none

/-- What a task does between changes. -/
def acts (counts : Store → Int) : Work → Input → Work × List Event
  | .idle, .credit nbits => (.ofCredit nbits, [])
  | .idle, .ioctl entCount =>
      (if entCount < 0 then .idle else .ofCredit (min entCount nbitsMax), [])
  | .idle, .reseed => (.seed, [])
  | .idle, .push wakeupBits =>
      (.pull (xferBytes wakeupBits (wakeupBits / 8)) (wakeupBits / 8) none, [])
  | .idle, .read nbytes => (if nbytes = 0 then .idle else .look (min nbytes secXferSize), [])
  | .look nbytes, .proceed wakeupBits =>
      (if counts .blocking ≥ nbytes * 2 ^ (entropyShift + 3) ∨
          counts .blocking > outputInfo.poolSize then .take nbytes
        else .pull (xferBytes wakeupBits nbytes) (wakeupBits / 8) (some nbytes), [])
  | .wait nbytes, .proceed wakeupBits =>
      (if counts .input / 2 ^ entropyShift ≥ wakeupBits then .look nbytes else .wait nbytes, [])
  | .wait _, .leave => (.idle, [])
  | .copy nbytes, .proceed _ =>
      let i := min nbytes extractSize
      (if nbytes - i = 0 then .idle else .copy (nbytes - i), [.handed i])
  | .copy _, .leave => (.idle, [])
  | work, _ => (work, [])

def entropy : Protocol Store Int Work Event Input Env where
  update := changes
  act := acts
  change
    | .zap store, counts => Function.update counts store 0

/-! ## What is held, and what it is worth

A bit that a source credits adds at most three quarters of a bit to the input pool, and
what is taken from there adds at most three quarters of it to the blocking pool.
Entropy is weighed by what it took to get it where it is. -/

def Store.weight : Store → Int
  | .input => 12
  | .blocking => 16

def Work.carried : Work → Int
  | .fill bytes _ => 12 * (64 * bytes)
  | .copy nbytes => 16 * (64 * nbytes)
  | _ => 0

def Event.worth : Event → Int
  | .credited nbits => 9 * (8 * nbits)
  | .seeded bytes => -(12 * (64 * bytes))
  | .handed bytes => -(16 * (64 * bytes))

def worth (events : List Event) : Int := (events.map Event.worth).sum

def Work.Sane : Work → Prop
  | .source nbits => Creditable nbits
  | .pull bytes _ _ | .fill bytes _ => bytes ≤ 128
  | _ => True

/-- A task that has read this count has nothing to warn of and nothing to cap. -/
def Work.Quiet : Work → Int → Prop
  | .source nbits, orig => Counts inputInfo (filled inputInfo nbits orig)
  | .fill bytes _, orig => Counts outputInfo (filled outputInfo (bytes * 8) orig)
  | .seed, orig => Counts inputInfo orig
  | .pull _ _ _, orig => Counts inputInfo orig
  | .take _, orig => Counts outputInfo orig
  | _, _ => True

/-- What the callers in the kernel ask `credit_entropy_bits` for. -/
def Input.Asked : Input → Prop
  | .credit nbits => Creditable nbits
  | _ => True

theorem sane_ofCredit {nbits : Int} (creditable : Creditable nbits) :
    (Work.ofCredit nbits).Sane ∧ (Work.ofCredit nbits).carried = 0 := by
  unfold Work.ofCredit
  split_ifs
  · exact ⟨trivial, rfl⟩
  · exact ⟨creditable, rfl⟩

theorem sane_ofAfter (after : Option Nat) :
    (Work.ofAfter after).Sane ∧ (Work.ofAfter after).carried = 0 := by
  cases after <;> exact ⟨trivial, rfl⟩

theorem xferBytes_le (wakeupBits nbytes : Nat) : xferBytes wakeupBits nbytes ≤ 128 :=
  min_le_right ..

theorem worth_nil : worth [] = 0 := rfl

theorem worth_singleton (event : Event) : worth [event] = event.worth := List.sum_singleton

/-- What a change does to a count, to the task and to what the task carries. -/
structure Fair (work : Work) (update : Update Store Int Work Event) (count : Int) : Prop where
  counts : Counts update.cell.info (update.renew count)
  sane : (update.next count).1.Sane
  worth : update.cell.weight * update.renew count + (update.next count).1.carried ≤
    update.cell.weight * count + work.carried + worth (update.next count).2

theorem creditable_fill {bytes : Nat} (few : bytes ≤ 128) : Creditable (bytes * 8) := by
  have bound : nbitsMax = 268435455 := rfl
  exact ⟨by omega, by omega⟩

theorem quiet_changes {work : Work} {update : Update Store Int Work Event}
    (found : changes work = some update) (sane : work.Sane) {orig : Int}
    (counts : Counts update.cell.info orig) : work.Quiet orig := by
  cases work with
  | source nbits =>
      cases found
      exact (filled_bounds counts sane).1
  | fill bytes after =>
      cases found
      exact (filled_bounds counts (creditable_fill sane)).1
  | seed =>
      cases found
      exact counts
  | pull bytes least after =>
      cases found
      exact counts
  | take nbytes =>
      cases found
      exact counts
  | idle => cases found
  | look nbytes => cases found
  | wait nbytes => cases found
  | copy nbytes => cases found

theorem counts_account {info : PoolInfo} {count : Int} (counts : Counts info count)
    (nbytes least reserved : Nat) : Counts info (account nbytes least reserved count).1 := by
  rcases account_bounds nbytes least reserved counts.1 with ⟨taken, left, _⟩
  have full := counts.2
  exact ⟨left, by omega⟩

theorem fair_changes {work : Work} {update : Update Store Int Work Event}
    (found : changes work = some update) (sane : work.Sane) {count : Int}
    (counts : Counts update.cell.info count) : Fair work update count := by
  cases work with
  | source nbits =>
      cases found
      change Counts inputInfo count at counts
      rcases credit_bounds counts sane with ⟨inside, added⟩
      refine ⟨inside, trivial, ?_⟩
      change 12 * credit inputInfo nbits count + 0 ≤ 12 * count + 0 + worth [.credited nbits]
      rw [worth_singleton, Event.worth]
      linarith
  | seed =>
      cases found
      have taken := (account_bounds 32 16 0 counts.1).1
      refine ⟨counts_account counts 32 16 0, trivial, ?_⟩
      change 12 * (account 32 16 0 count).1 + 0 ≤
        12 * count + 0 + worth [.seeded (account 32 16 0 count).2]
      rw [worth_singleton, Event.worth]
      linarith
  | pull bytes least after =>
      cases found
      rcases account_bounds bytes least 0 counts.1 with ⟨taken, _, few⟩
      refine ⟨counts_account counts bytes least 0, ?_, ?_⟩
      · dsimp only
        split_ifs
        · exact (sane_ofAfter after).1
        · exact le_trans few sane
      · change 12 * (account bytes least 0 count).1 + Work.carried (if _ = 0 then _ else _) ≤
          12 * count + 0 + 0
        split_ifs
        · rw [(sane_ofAfter after).2]
          omega
        · rw [Work.carried]
          omega
  | fill bytes after =>
      cases found
      change Counts outputInfo count at counts
      rcases credit_bounds counts (creditable_fill sane) with ⟨inside, added⟩
      constructor
      · dsimp only [Store.info]
        exact inside
      · exact (sane_ofAfter after).1
      · dsimp only [Store.weight]
        rw [(sane_ofAfter after).2, worth_nil, Work.carried]
        linarith
  | take nbytes =>
      cases found
      have taken := (account_bounds nbytes 0 0 counts.1).1
      refine ⟨counts_account counts nbytes 0 0, ?_, ?_⟩
      · dsimp only
        split_ifs <;> trivial
      · change 16 * (account nbytes 0 0 count).1 + Work.carried (if _ = 0 then _ else _) ≤
          16 * count + 0 + 0
        split_ifs <;> dsimp only [Work.carried] <;> omega
  | idle => cases found
  | look nbytes => cases found
  | wait nbytes => cases found
  | copy nbytes => cases found

/-- What a task does between two changes, it does with what it carries. -/
theorem fair_acts (counts : Store → Int) {work : Work} (sane : work.Sane) {input : Input}
    (asked : input.Asked) :
    (acts counts work input).1.Sane ∧
      (acts counts work input).1.carried ≤ work.carried + worth (acts counts work input).2 := by
  cases work with
  | idle =>
      cases input with
      | credit nbits =>
          rcases sane_ofCredit asked with ⟨kept, nothing⟩
          exact ⟨kept, nothing.le⟩
      | ioctl entCount =>
          dsimp only [acts]
          split_ifs with negative
          · exact ⟨trivial, le_rfl⟩
          · have bound : (0 : Int) ≤ nbitsMax := by decide
            have capped : Creditable (min entCount nbitsMax) :=
              ⟨le_min (not_lt.mp negative) bound, min_le_right ..⟩
            rcases sane_ofCredit capped with ⟨kept, nothing⟩
            exact ⟨kept, nothing.le⟩
      | push wakeupBits => exact ⟨xferBytes_le .., le_rfl⟩
      | read nbytes =>
          dsimp only [acts]
          split_ifs <;> exact ⟨trivial, le_rfl⟩
      | reseed => exact ⟨trivial, le_rfl⟩
      | proceed wakeupBits => exact ⟨trivial, le_rfl⟩
      | leave => exact ⟨trivial, le_rfl⟩
  | look nbytes =>
      cases input with
      | proceed wakeupBits =>
          dsimp only [acts]
          split_ifs
          · exact ⟨trivial, le_rfl⟩
          · exact ⟨xferBytes_le .., le_rfl⟩
      | _ => exact ⟨trivial, le_rfl⟩
  | wait nbytes =>
      cases input with
      | proceed wakeupBits =>
          dsimp only [acts]
          split_ifs <;> exact ⟨trivial, le_rfl⟩
      | _ => exact ⟨trivial, le_rfl⟩
  | copy nbytes =>
      cases input with
      | proceed wakeupBits =>
          have part : min nbytes extractSize ≤ nbytes := min_le_left ..
          dsimp only [acts]
          rw [worth_singleton, Event.worth]
          split_ifs
          · refine ⟨trivial, ?_⟩
            dsimp only [Work.carried]
            omega
          · refine ⟨trivial, ?_⟩
            dsimp only [Work.carried]
            omega
      | leave =>
          refine ⟨trivial, ?_⟩
          change 0 ≤ 16 * (64 * (nbytes : Int)) + 0
          omega
      | _ => exact ⟨trivial, (add_zero _).ge⟩
  | source nbits => exact ⟨sane, (add_zero _).ge⟩
  | seed => exact ⟨sane, (add_zero _).ge⟩
  | pull bytes least after => exact ⟨sane, (add_zero _).ge⟩
  | fill bytes after => exact ⟨sane, (add_zero _).ge⟩
  | take nbytes => exact ⟨sane, (add_zero _).ge⟩

/-! ## Whole runs -/

section Runs

variable {Task : Type*} [Fintype Task] [DecidableEq Task]

structure Sound (shared : Shared Store Int Task Work) : Prop where
  counts : forall store, Counts store.info (shared.cells store)
  sane : forall task, (shared.work task).Sane

def heldIn (cells : Store → Int) : Int :=
  Store.input.weight * cells .input + Store.blocking.weight * cells .blocking

/-- The entropy in the pools and on its way, weighed. -/
def held (shared : Shared Store Int Task Work) : Int :=
  heldIn shared.cells + carriedBy Work.carried shared.work

def TurnAsked : Turn Task Input Env → Prop
  | .task _ input => input.Asked
  | .env _ => True

theorem heldIn_update (cells : Store → Int) (store : Store) (count : Int) :
    heldIn (Function.update cells store count) + store.weight * cells store =
      heldIn cells + store.weight * count := by
  cases store with
  | input =>
      rw [heldIn, heldIn, Function.update_self, Function.update_of_ne (by decide)]
      ring
  | blocking =>
      rw [heldIn, heldIn, Function.update_self, Function.update_of_ne (by decide)]
      ring

theorem Sound.commit {shared : Shared Store Int Task Work} (sound : Sound shared) {task : Task}
    {update : Update Store Int Work Event}
    (fair : Fair (shared.work task) update (shared.cells update.cell)) :
    Sound (shared.commit task update) ∧
      held (shared.commit task update) ≤
        held shared + worth (update.next (shared.cells update.cell)).2 := by
  constructor
  · constructor
    · intro store
      by_cases same : store = update.cell
      · subst same
        dsimp only [Shared.commit]
        rw [Function.update_self]
        exact fair.counts
      · dsimp only [Shared.commit]
        rw [Function.update_of_ne same]
        exact sound.counts store
    · intro other
      by_cases same : other = task
      · subst same
        dsimp only [Shared.commit]
        rw [Function.update_self]
        exact fair.sane
      · dsimp only [Shared.commit]
        rw [Function.update_of_ne same]
        exact sound.sane other
  · have cells := heldIn_update shared.cells update.cell
      (update.renew (shared.cells update.cell))
    have work := carriedBy_update Work.carried shared.work task
      (update.next (shared.cells update.cell)).1
    have balance := fair.worth
    dsimp only [held, Shared.commit]
    linarith

theorem Sound.act {shared : Shared Store Int Task Work} (sound : Sound shared) {task : Task}
    {input : Input} (asked : input.Asked) :
    Sound (shared.act entropy task input) ∧
      held (shared.act entropy task input) ≤
        held shared + worth (acts shared.cells (shared.work task) input).2 := by
  rcases fair_acts shared.cells (sound.sane task) asked with ⟨sane, balance⟩
  constructor
  · refine ⟨sound.counts, fun other => ?_⟩
    by_cases same : other = task
    · subst same
      dsimp only [Shared.act]
      rw [Function.update_self]
      exact sane
    · dsimp only [Shared.act]
      rw [Function.update_of_ne same]
      exact sound.sane other
  · have work := carriedBy_update Work.carried shared.work task
      (acts shared.cells (shared.work task) input).1
    have unfolded : held (shared.act entropy task input) = heldIn shared.cells +
        carriedBy Work.carried (Function.update shared.work task
          (acts shared.cells (shared.work task) input).1) := rfl
    rw [unfolded, held]
    linarith

omit [DecidableEq Task] in
theorem Sound.zap {shared : Shared Store Int Task Work} (sound : Sound shared) (store : Store) :
    Sound (shared.change entropy (.zap store)) ∧
      held (shared.change entropy (.zap store)) ≤ held shared := by
  constructor
  · refine ⟨fun other => ?_, sound.sane⟩
    change Counts other.info (Function.update shared.cells store 0 other)
    by_cases same : other = store
    · subst same
      rw [Function.update_self]
      exact counts_zero other.info
    · rw [Function.update_of_ne same]
      exact sound.counts other
  · have cells := heldIn_update shared.cells store 0
    have lost : 0 ≤ store.weight * shared.cells store := by
      have positive : 0 ≤ store.weight := by cases store <;> decide
      exact mul_nonneg positive (sound.counts store).1
    change heldIn (Function.update shared.cells store 0) + carriedBy Work.carried shared.work ≤
      heldIn shared.cells + carriedBy Work.carried shared.work
    linarith

/-- A turn pays for what it gives out with what it holds. -/
theorem Sound.next {shared : Shared Store Int Task Work} (sound : Sound shared)
    {turn : Turn Task Input Env} (asked : TurnAsked turn) :
    Sound ((atomic entropy).next shared turn) ∧
      held ((atomic entropy).next shared turn) ≤
        held shared + worth ((atomic entropy).out shared turn) := by
  cases turn with
  | env env =>
      cases env with
      | zap store =>
          rcases sound.zap store with ⟨kept, balance⟩
          exact ⟨kept, balance.trans (add_zero _).ge⟩
  | task task input =>
      unfold Machine.next Machine.out atomic
      dsimp only
      cases found : entropy.update (shared.work task) with
      | none => exact sound.act asked
      | some update =>
          exact sound.commit (fair_changes found (sound.sane task) (sound.counts update.cell))

omit [DecidableEq Task] in
theorem Sound.held_nonneg {shared : Shared Store Int Task Work} (sound : Sound shared) :
    0 ≤ held shared := by
  have input := (sound.counts .input).1
  have blocking := (sound.counts .blocking).1
  have work : 0 ≤ carriedBy Work.carried shared.work := by
    apply carriedBy_nonneg
    intro item
    unfold Work.carried
    split <;> omega
  dsimp only [held, heldIn, Store.weight]
  omega

/-- The counts are static and nobody has been called yet. -/
structure Booted (trying : Trying Store Int Task Work) : Prop where
  empty : forall store, trying.cells store = 0
  idle : forall task, trying.work task = .idle

omit [DecidableEq Task] in
theorem Booted.sound {trying : Trying Store Int Task Work} (booted : Booted trying) :
    Sound trying.toShared ∧ held trying.toShared = 0 := by
  constructor
  · constructor
    · intro store
      rw [booted.empty store]
      exact counts_zero store.info
    · intro task
      rw [booted.idle task]
      trivial
  · have nothing : carriedBy Work.carried trying.work = 0 :=
      carriedBy_eq_zero fun task => by
        rw [booted.idle task]
        rfl
    rw [held, heldIn, booted.empty, booted.empty, nothing]
    rfl

theorem Sound.run {trying : Trying Store Int Task Work} (sound : Sound trying.toShared)
    {turns : List (Turn Task Input Env)} (asked : forall turn, turn ∈ turns → TurnAsked turn) :
    Sound ((retrying entropy).run trying turns).toShared ∧
      held ((retrying entropy).run trying turns).toShared ≤
        held trying.toShared + worth ((retrying entropy).events trying turns) := by
  have trans : forall {before middle after : Int} {first second : List Event},
      middle ≤ before + worth first → after ≤ middle + worth second →
        after ≤ before + worth (first ++ second) := by
    intro before middle after first second here later
    have both : worth (first ++ second) = worth first + worth second := by
      rw [worth, List.map_append, List.sum_append, worth, worth]
    linarith
  have step : forall (shared : Shared Store Int Task Work) turn account,
      Sound shared ∧ held shared = account → TurnAsked turn →
        ∃ after, (Sound ((atomic entropy).next shared turn) ∧
            held ((atomic entropy).next shared turn) = after) ∧
          after ≤ account + worth ((atomic entropy).out shared turn) := by
    rintro shared turn account ⟨kept, same⟩ allowed
    rcases kept.next allowed with ⟨next, balance⟩
    exact ⟨_, ⟨next, rfl⟩, same ▸ balance⟩
  rcases retrying_refines (fun _ turn => TurnAsked turn) trying turns
    ((retrying entropy).along_of_forall_mem TurnAsked trying asked) with
    ⟨made, _, along, reached, events⟩
  rcases (atomic entropy).run_balance (fun shared account => Sound shared ∧ held shared = account)
    (fun _ turn => TurnAsked turn) (fun before events after => after ≤ before + worth events)
    (fun account => (add_zero account).ge) trans step ⟨sound, rfl⟩ along with
    ⟨after, ⟨kept, same⟩, balance⟩
  rw [reached] at kept same
  rw [events] at balance
  exact ⟨kept, same.le.trans balance⟩

theorem Sound.step {trying : Trying Store Int Task Work} (sound : Sound trying.toShared)
    {turn : Turn Task Input Env} (asked : TurnAsked turn) :
    Sound ((retrying entropy).next trying turn).toShared := by
  rcases retrying_step (p := entropy) trying turn with ⟨next, _⟩ | ⟨next, _⟩
  · rw [next]
    exact (sound.next asked).1
  · rw [next]
    exact sound

omit [Fintype Task] [DecidableEq Task] in
/-- What was found in a sound state gives no cause to warn. -/
theorem Sound.quiet {trying : Trying Store Int Task Work} (sound : Sound trying.toShared)
    (seenIn : SeenIn entropy (fun store => Counts store.info) trying) {task : Task} {orig : Int}
    (read : trying.seen task = some orig) : (trying.work task).Quiet orig := by
  rcases seenIn task orig read with ⟨update, found, counts⟩
  exact quiet_changes found (sound.sane task) counts

/-- The counts are static and nobody has read one. -/
structure Fresh (trying : Trying Store Int Task Work) : Prop extends Booted trying where
  unread : forall task, trying.seen task = none

/-- Whatever tasks do at the same time, the counts stay between empty and full, where
the `BUG_ON` looks at them, and so does what a task makes of the count that it has
read: no task warns of a negative count or has to cap one. -/
theorem counts_inside {trying : Trying Store Int Task Work} (fresh : Fresh trying)
    {turns : List (Turn Task Input Env)} (asked : forall turn, turn ∈ turns → TurnAsked turn) :
    (forall store, Counts store.info (((retrying entropy).run trying turns).cells store)) ∧
      forall task orig, ((retrying entropy).run trying turns).seen task = some orig →
        (((retrying entropy).run trying turns).work task).Quiet orig := by
  have unread : SeenIn entropy (fun store => Counts store.info) trying := by
    intro task orig read
    rw [fresh.unread task] at read
    cases read
  have kept : Sound ((retrying entropy).run trying turns).toShared ∧
      SeenIn entropy (fun store => Counts store.info) ((retrying entropy).run trying turns) := by
    apply (retrying entropy).run_invariant
      (fun trying => Sound trying.toShared ∧
        SeenIn entropy (fun store => Counts store.info) trying) (fun _ turn => TurnAsked turn)
    · rintro trying turn ⟨sound, seenIn⟩ allowed
      exact ⟨sound.step allowed, seenIn.next sound.counts turn⟩
    · exact ⟨fresh.toBooted.sound.1, unread⟩
    · exact (retrying entropy).along_of_forall_mem TurnAsked trying asked
  exact ⟨kept.1.counts, fun task orig read => kept.1.quiet kept.2 read⟩

end Runs

/-! ## What is given out -/

def Event.bits : Event → Int
  | .credited nbits => nbits
  | _ => 0

def Event.seedBytes : Event → Int
  | .seeded bytes => bytes
  | _ => 0

def Event.handBytes : Event → Int
  | .handed bytes => bytes
  | _ => 0

def credited (events : List Event) : Int := (events.map Event.bits).sum
def seeded (events : List Event) : Int := (events.map Event.seedBytes).sum
def handed (events : List Event) : Int := (events.map Event.handBytes).sum

theorem worth_eq (events : List Event) :
    worth events =
      9 * (8 * credited events) - 12 * (64 * seeded events) - 16 * (64 * handed events) := by
  induction events with
  | nil => rfl
  | cons event events ih =>
      have one : event.worth =
          9 * (8 * event.bits) - 12 * (64 * event.seedBytes) - 16 * (64 * event.handBytes) := by
        cases event <;> simp [Event.worth, Event.bits, Event.seedBytes, Event.handBytes]
      have sums : worth (event :: events) = event.worth + worth events ∧
          credited (event :: events) = event.bits + credited events ∧
          seeded (event :: events) = event.seedBytes + seeded events ∧
          handed (event :: events) = event.handBytes + handed events :=
        ⟨List.sum_cons, List.sum_cons, List.sum_cons, List.sum_cons⟩
      rw [sums.1, sums.2.1, sums.2.2.1, sums.2.2.2, ih, one]
      ring

section Runs

variable {Task : Type*} [Fintype Task] [DecidableEq Task]

/-- `/dev/random` hands out at most nine bits for sixteen that were credited, and what
goes into keys is paid for as well, whatever tasks do at the same time. -/
theorem handed_paid {trying : Trying Store Int Task Work} (booted : Booted trying)
    {turns : List (Turn Task Input Env)} (asked : forall turn, turn ∈ turns → TurnAsked turn)
    {events : List Event} (happened : (retrying entropy).events trying turns = events) :
    16 * (8 * handed events) + 12 * (8 * seeded events) ≤ 9 * credited events := by
  rcases booted.sound with ⟨sound, nothing⟩
  rcases sound.run asked with ⟨kept, balance⟩
  rw [happened, nothing, worth_eq] at balance
  have pools := kept.held_nonneg
  linarith

end Runs

/-- Two tasks on pools that are still empty. -/
def boot : Trying Store Int Bool Work where
  cells _ := 0
  work _ := .idle
  seen _ := none

theorem booted_boot : Booted boot := ⟨fun _ => rfl, fun _ => rfl⟩

/-- A source credits the input pool while a reader takes from it. -/
def interleaved : List (Turn Bool Input Env) :=
  [.task false (.credit 200), .task true (.read 16), .task true (.proceed 64),
    .task false .leave, .task true .leave, .task false .leave, .task true .leave,
    .task true .leave, .task true .leave, .task true .leave, .task true .leave,
    .task true .leave, .task true .leave, .task true (.proceed 64), .env (.zap .input)]

theorem asked_interleaved (turn : Turn Bool Input Env) (member : turn ∈ interleaved) :
    TurnAsked turn := by
  have credit : Creditable 200 := ⟨by decide, by decide⟩
  simp only [interleaved, List.mem_cons, List.not_mem_nil, or_false] at member
  rcases member with rfl | rfl | rfl | rfl | rfl | rfl | rfl | rfl | rfl | rfl | rfl | rfl | rfl |
    rfl | rfl
  · exact credit
  all_goals trivial

theorem fresh_boot : Fresh boot := ⟨booted_boot, fun _ => rfl⟩

/-- The source has read the count of the input pool. -/
theorem counts_inside_interleaved :
    (((retrying entropy).run boot (interleaved.take 4)).work false).Quiet 0 :=
  (counts_inside fresh_boot fun turn member =>
    asked_interleaved turn (List.mem_of_mem_take member)).2 false 0 (by decide)

theorem handed_paid_interleaved :
    16 * (8 * handed ((retrying entropy).events boot interleaved)) +
        12 * (8 * seeded ((retrying entropy).events boot interleaved)) ≤
      9 * credited ((retrying entropy).events boot interleaved) :=
  handed_paid booted_boot asked_interleaved rfl

end Random
end KernelHacking
