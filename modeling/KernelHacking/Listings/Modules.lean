import KernelHacking.Listings.ListHead

namespace KernelHacking
namespace Listings

/-!
# Listing the loaded modules

The `struct module` of every loaded module is on one circular list, together
with a list head that belongs to no module.  The kernel keeps that head to
itself, and `modules_lsmod` takes what comes before its own module for it.  New
modules are put directly behind the head, so that this is right until the next
one is loaded.

The variants that are kept for reference go around the list from the own module,
the head among the others.
-/

/-- What `msg("%-24s at %p", mod->name, mod)` is given. -/
structure ModuleLine where
  name : List UInt8
  address : Address
  deriving DecidableEq

/-- The list, the offset of the member `list` in a `struct module`, the string
that is found in the member `name` of each, and `THIS_MODULE`. -/
structure Modules where
  list : ListMemory
  offset : Address
  name : Address → List UInt8
  thisModule : Address

namespace Modules

variable (k : Modules)

def line (mod : Address) : ModuleLine := { name := k.name mod, address := mod }

/-- `mod->name[0]`. -/
def firstByte (mod : Address) : UInt8 := (k.name mod).headD 0

def print (mod : Address) : Option (List ModuleLine) := some [k.line mod]

/-- `modules_lsmod`. -/
def modulesLsmod (rounds : Nat) : Option (List ModuleLine) :=
  let mod := k.thisModule
  let modules := k.list.prev (memberOf k.offset mod)
  listForEachEntry k.list k.offset modules k.print rounds

/-- `modules_lsmod_v1`. -/
def modulesLsmodV1 (rounds : Nat) : Option (List ModuleLine) :=
  let mod := k.thisModule
  let modules := memberOf k.offset mod
  listForEachEntry k.list k.offset modules k.print rounds

/-- `modules_lsmod_v2`.  The variable that its loop sets first is not looked at. -/
def modulesLsmodV2 (rounds : Nat) : Option (List ModuleLine) :=
  let mod := listNextEntry k.list k.offset k.thisModule
  forLoop (fun mod => mod != k.thisModule) (listNextEntry k.list k.offset) k.print rounds mod

/-- `modules_lsmod_v3`. -/
def modulesLsmodV3 (rounds : Nat) : Option (List ModuleLine) :=
  let mod := k.thisModule
  doLoop (fun mod => mod != k.thisModule) (listNextEntry k.list k.offset) k.print rounds mod

/-- `modules_lsmod_v4`. -/
def modulesLsmodV4 (rounds : Nat) : Option (List ModuleLine) :=
  let mod := k.thisModule
  let modules := memberOf k.offset mod
  listForEachEntry k.list k.offset modules
    (fun mod => if k.firstByte mod = 1 then some [] else k.print mod) rounds

end Modules

/-! ## The variants around the own module -/

/-- A circular list with the own module on it, seen from there. -/
structure OwnRing extends Modules where
  others : List Address
  ring : Ring list (memberOf offset thisModule) (others.map (memberOf offset))

namespace OwnRing

variable (r : OwnRing)

theorem filter_line (entries : List Address) :
    entries.flatMap (fun mod => if r.firstByte mod = 1 then [] else [r.line mod]) =
      (entries.filter fun mod => r.firstByte mod ≠ 1).map r.line := by
  induction entries with
  | nil => rfl
  | cons mod entries ih =>
      rw [List.flatMap_cons, ih]
      by_cases marked : r.firstByte mod = 1
      · rw [if_pos marked, List.filter_cons_of_neg (by simpa using marked), List.nil_append]
      · rw [if_neg marked, List.filter_cons_of_pos (by simpa using marked), List.map_cons]
        rfl

theorem modulesLsmodV3_succ {rounds : Nat} (enough : r.others.length < rounds + 1) :
    r.modulesLsmodV3 (rounds + 1) = some ((r.thisModule :: r.others).map r.line) := by
  have later : forLoop _ _ r.print (rounds + 1) _ = some (r.others.flatMap fun mod => [r.line mod]) :=
    forLoop_walks (walks_others r.ring) (fun _ _ => rfl) enough
  rw [← List.map_eq_flatMap] at later
  rw [Modules.modulesLsmodV3, doLoop_succ, later]
  rfl

end OwnRing

/-- On every circular list with the own module on it, the first two variants
come to an end and print every other node once and in order, the third prints the
own module before these, and the fourth leaves out those whose name begins with
byte one. -/
theorem variants_related (r : OwnRing) :
    (r.thisModule :: r.others).Nodup ∧
      Returns r.modulesLsmodV1 (r.others.map r.line) ∧
      Returns r.modulesLsmodV2 (r.others.map r.line) ∧
      Returns r.modulesLsmodV3 ((r.thisModule :: r.others).map r.line) ∧
      Returns r.modulesLsmodV4
        ((r.others.filter fun mod => r.firstByte mod ≠ 1).map r.line) := by
  refine ⟨entries_distinct r.ring, ⟨r.others.length + 1, ?_⟩, ⟨r.others.length + 1, ?_⟩,
    ⟨r.others.length + 1, ?_⟩, ⟨r.others.length + 1, ?_⟩⟩
  · intro rounds enough
    rw [List.map_eq_flatMap]
    exact listForEachEntry_entries r.ring (fun _ => rfl) enough
  · intro rounds enough
    rw [List.map_eq_flatMap]
    exact forLoop_walks (walks_others r.ring) (fun _ _ => rfl) enough
  · intro rounds enough
    cases rounds with
    | zero => exact absurd enough (Nat.not_succ_le_zero _)
    | succ rounds => exact r.modulesLsmodV3_succ enough
  · intro rounds enough
    rw [← r.filter_line]
    refine listForEachEntry_entries r.ring (fun mod => ?_) enough
    split
    · rfl
    · rfl

/-- Two modules at 100 and 200, with their lists 8 bytes in, seen from the second.
The head of the list at 10 is among the others, as if it were in a module at 2 whose
name begins with byte one. -/
def headAmongOthers : OwnRing where
  list :=
    { next := fun node => if node = 10 then 108 else if node = 108 then 208 else 10
      prev := fun node => if node = 10 then 208 else if node = 108 then 10 else 108 }
  offset := 8
  name := fun mod => if mod = 2 then [1] else if mod = 100 then [97] else [98]
  thisModule := 200
  others := [2, 100]
  ring := ⟨by decide, by
    refine ⟨⟨?_, ?_⟩, ⟨?_, ?_⟩, ?_, ?_⟩
    all_goals decide⟩

theorem variants_related_headAmongOthers :
    [headAmongOthers.thisModule, 2, 100].Nodup ∧
      Returns headAmongOthers.modulesLsmodV1 [⟨[1], 2⟩, ⟨[97], 100⟩] ∧
      Returns headAmongOthers.modulesLsmodV2 [⟨[1], 2⟩, ⟨[97], 100⟩] ∧
      Returns headAmongOthers.modulesLsmodV3 [⟨[98], 200⟩, ⟨[1], 2⟩, ⟨[97], 100⟩] ∧
      Returns headAmongOthers.modulesLsmodV4 [⟨[97], 100⟩] :=
  variants_related headAmongOthers

/-! ## The list with its head -/

/-- The list of the loaded modules, seen from its head. -/
structure LoadedModules extends Modules where
  head : Address
  modules : List Address
  ring : Ring list head (modules.map (memberOf offset))
  loaded : thisModule ∈ modules

/-- Every loaded module is printed once, and the head is not taken for one. -/
structure CleanListing (m : LoadedModules) (lines : List ModuleLine) : Prop where
  once : forall mod, mod ∈ m.modules → (lines.map ModuleLine.address).count mod = 1
  clean : containerOf m.offset m.head ∉ lines.map ModuleLine.address

/-- `modules_lsmod` comes to an end with a clean listing. -/
def ListsModules (m : LoadedModules) : Prop :=
  ∃ lines, Returns m.modulesLsmod lines ∧ CleanListing m lines

namespace LoadedModules

variable (m : LoadedModules)

theorem distinct : m.modules.Nodup :=
  (List.nodup_cons.mp m.ring.distinct).2.of_map

theorem head_not_mem : containerOf m.offset m.head ∉ m.modules := by
  intro member
  apply (List.nodup_cons.mp m.ring.distinct).1
  rw [← memberOf_containerOf m.offset m.head]
  exact List.mem_map_of_mem member

theorem addresses (entries : List Address) :
    (entries.map m.line).map ModuleLine.address = entries := by
  rw [List.map_map]
  exact List.map_id _

/-- What is printed is the rest of the list, seen from the node before the own module. -/
theorem modulesLsmod_ring {nodes : List Address}
    (ring : Ring m.list (m.list.prev (memberOf m.offset m.thisModule)) nodes) :
    Returns m.modulesLsmod ((nodes.map (containerOf m.offset)).map m.line) := by
  refine ⟨nodes.length + 1, ?_⟩
  intro rounds enough
  rw [List.map_eq_flatMap]
  exact listForEachEntry_ring ring (fun _ _ => rfl) enough

/-- Behind the head, the own module leads to it, and all modules are printed. -/
theorem listing_first {after : List Address} (first : m.modules = m.thisModule :: after) :
    Returns m.modulesLsmod (m.modules.map m.line) := by
  have ring := m.ring
  have before := ring
  rw [first, List.map_cons] at before
  have found : m.list.prev (memberOf m.offset m.thisModule) = m.head := before.around.1.2
  have printed := m.modulesLsmod_ring (found.symm ▸ ring)
  rwa [map_containerOf_memberOf] at printed

/-- Behind another module, the list is seen from that one. -/
theorem listing_later {before after : List Address} {other : Address}
    (later : m.modules = before ++ other :: m.thisModule :: after) :
    Returns m.modulesLsmod
      ((m.thisModule :: after ++ containerOf m.offset m.head :: before).map m.line) := by
  have ring := m.ring
  rw [later, List.map_append, List.map_cons] at ring
  have turned := ring.rotate
  have found : m.list.prev (memberOf m.offset m.thisModule) = memberOf m.offset other := by
    rw [List.map_cons, List.cons_append] at turned
    exact turned.around.1.2
  have printed := m.modulesLsmod_ring (found.symm ▸ turned)
  rw [List.map_append, map_containerOf_memberOf, List.map_cons, map_containerOf_memberOf] at printed
  exact printed

theorem cleanListing_all : CleanListing m (m.modules.map m.line) := by
  constructor
  · intro mod member
    rw [addresses]
    exact List.count_eq_one_of_mem m.distinct member
  · rw [addresses]
    exact m.head_not_mem

end LoadedModules

/-- `modules_lsmod` prints every loaded module once and nothing else exactly when
the own module comes directly behind the head of the list. -/
theorem listsModules_iff (m : LoadedModules) :
    ListsModules m ↔ m.list.next m.head = memberOf m.offset m.thisModule := by
  rcases List.append_of_mem m.loaded with ⟨front, after, split⟩
  rcases List.eq_nil_or_concat front with empty | ⟨before, other, ends⟩
  · rw [empty, List.nil_append] at split
    have ring := m.ring
    rw [split, List.map_cons] at ring
    exact iff_of_true ⟨_, m.listing_first split, m.cleanListing_all⟩ ring.around.1.1
  · have later : m.modules = before ++ other :: m.thisModule :: after := by
      rw [split, ends, List.concat_eq_append, List.append_assoc]
      rfl
    refine iff_of_false ?_ ?_
    · rintro ⟨lines, returned, listing⟩
      apply listing.clean
      rw [returned.unique (m.listing_later later), m.addresses]
      exact List.mem_append_right _ List.mem_cons_self
    · intro follows
      have ring := m.ring
      have distinct := m.distinct
      rw [split] at ring distinct
      cases front with
      | nil =>
          rw [List.concat_eq_append] at ends
          exact absurd ends.symm (List.concat_ne_nil other before)
      | cons first front =>
          have same := congrArg (containerOf m.offset) (ring.around.1.1.symm.trans follows)
          rw [containerOf_memberOf, containerOf_memberOf] at same
          exact (List.nodup_append.mp distinct).2.2 first List.mem_cons_self m.thisModule
            List.mem_cons_self same

/-- Two modules at 100 and 200, with their lists 8 bytes in, and the head at 10.  The
own module was loaded first. -/
def olderModule : LoadedModules where
  list :=
    { next := fun node => if node = 10 then 108 else if node = 108 then 208 else 10
      prev := fun node => if node = 10 then 208 else if node = 108 then 10 else 108 }
  offset := 8
  name := fun _ => []
  thisModule := 200
  head := 10
  modules := [100, 200]
  ring := ⟨by decide, by
    refine ⟨⟨?_, ?_⟩, ⟨?_, ?_⟩, ?_, ?_⟩
    all_goals decide⟩
  loaded := by decide

/-- It prints the head as a module, and not the module that was loaded later. -/
theorem olderModule_not_listed : ¬ ListsModules olderModule := by
  rintro ⟨lines, returned, listing⟩
  apply listing.clean
  have later : olderModule.modules = [] ++ 100 :: olderModule.thisModule :: [] := rfl
  rw [returned.unique (olderModule.listing_later later), olderModule.addresses]
  exact List.mem_append_right _ List.mem_cons_self

end Listings
end KernelHacking
