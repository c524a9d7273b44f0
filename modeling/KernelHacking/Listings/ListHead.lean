import Mathlib.Data.BitVec
import KernelHacking.Foundations.RingList

namespace KernelHacking
namespace Listings

/-!
# The list macros of the kernel

A `struct list_head` is a member of the structures that a list connects, and its
two pointers lead to the members of the neighbours.  A structure is found again
by taking off what its member is offset by.  The macros are those that the notes
of `7-meta` quote, each as a loop whose body is a parameter.
-/

abbrev Address := BitVec 64

/-- The `struct list_head` at each address. -/
abbrev ListMemory := Links Address

/-- `&entry->member`. -/
def memberOf (offset entry : Address) : Address := entry + offset

/-- `container_of(ptr, type, member)`, which `list_entry` is another name for. -/
def containerOf (offset ptr : Address) : Address := ptr - offset

@[simp] theorem memberOf_containerOf (offset ptr : Address) :
    memberOf offset (containerOf offset ptr) = ptr :=
  BitVec.sub_add_cancel ptr offset

@[simp] theorem containerOf_memberOf (offset entry : Address) :
    containerOf offset (memberOf offset entry) = entry :=
  BitVec.add_sub_cancel entry offset

/-- A structure is found from its own member only. -/
theorem containerOf_eq_iff (offset ptr entry : Address) :
    containerOf offset ptr = entry ↔ ptr = memberOf offset entry := by
  constructor
  · intro same
    rw [← same, memberOf_containerOf]
  · intro same
    rw [same, containerOf_memberOf]

theorem map_containerOf_memberOf (offset : Address) (entries : List Address) :
    (entries.map (memberOf offset)).map (containerOf offset) = entries := by
  rw [List.map_map]
  exact List.map_id'' (containerOf_memberOf offset) entries

/-- `list_empty(head)`. -/
def listEmpty (list : ListMemory) (head : Address) : Bool :=
  list.next head == head

/-- `list_first_entry(head, type, member)`. -/
def listFirstEntry (list : ListMemory) (offset head : Address) : Address :=
  containerOf offset (list.next head)

/-- `list_next_entry(pos, member)`. -/
def listNextEntry (list : ListMemory) (offset pos : Address) : Address :=
  containerOf offset (list.next (memberOf offset pos))

section Macros

variable {Line : Type*} (list : ListMemory)

/-- `list_for_each_entry(pos, head, member) body(pos)`. -/
def listForEachEntry (offset head : Address) (body : Address → Option (List Line)) (rounds : Nat) :
    Option (List Line) :=
  forLoop (fun pos => memberOf offset pos != head) (listNextEntry list offset) body rounds
    (listFirstEntry list offset head)

/-- `list_for_each(pos, head) body(pos)`. -/
def listForEach (head : Address) (body : Address → Option (List Line)) (rounds : Nat) :
    Option (List Line) :=
  forLoop (fun pos => pos != head) list.next body rounds (list.next head)

variable {list} {offset head : Address} {nodes : List Address}

/-- Going from entry to entry around a ring until the entry of its head. -/
theorem walks_entries (ring : Ring list head nodes) {test : Address → Bool}
    (tests : forall ptr, test (containerOf offset ptr) = true ↔ ptr ≠ head) :
    Walks test (listNextEntry list offset) (listFirstEntry list offset head)
      (nodes.map (containerOf offset)) :=
  ring.walks (containerOf offset) (memberOf offset) (memberOf_containerOf offset) (fun _ => rfl)
    tests

theorem listForEachEntry_ring (ring : Ring list head nodes)
    {body : Address → Option (List Line)} {lines : Address → List Line}
    (printed : forall ptr, ptr ∈ nodes →
      body (containerOf offset ptr) = some (lines (containerOf offset ptr)))
    {rounds : Nat} (enough : nodes.length < rounds) :
    listForEachEntry list offset head body rounds =
      some ((nodes.map (containerOf offset)).flatMap lines) := by
  apply forLoop_walks (walks_entries ring ?_) ?_ (by rwa [List.length_map])
  · intro ptr
    rw [memberOf_containerOf]
    exact bne_iff_ne
  · intro entry member
    rcases List.mem_map.mp member with ⟨ptr, inRing, rfl⟩
    exact printed ptr inRing

theorem listForEach_ring (ring : Ring list head nodes)
    {body : Address → Option (List Line)} {lines : Address → List Line}
    (printed : forall ptr, ptr ∈ nodes → body ptr = some (lines ptr))
    {rounds : Nat} (enough : nodes.length < rounds) :
    listForEach list head body rounds = some (nodes.flatMap lines) := by
  have walks : Walks (fun pos => pos != head) list.next (list.next head) (nodes.map id) :=
    ring.walks id id (fun _ => rfl) (fun _ => rfl) fun _ => bne_iff_ne
  rw [List.map_id] at walks
  exact forLoop_walks walks printed enough

/-- A loop over the entries whose members are on a ring, all but its head. -/
theorem listForEachEntry_entries {entries : List Address}
    (ring : Ring list head (entries.map (memberOf offset)))
    {body : Address → Option (List Line)} {lines : Address → List Line}
    (printed : forall entry, body entry = some (lines entry))
    {rounds : Nat} (enough : entries.length < rounds) :
    listForEachEntry list offset head body rounds = some (entries.flatMap lines) := by
  rw [listForEachEntry_ring ring (fun ptr _ => printed _) (by rwa [List.length_map]),
    map_containerOf_memberOf]

end Macros

/-! ## A ring seen from one of its entries -/

section Entries

variable {list : ListMemory} {offset own : Address} {others : List Address}

theorem entries_distinct (ring : Ring list (memberOf offset own) (others.map (memberOf offset))) :
    (own :: others).Nodup := by
  apply List.Nodup.of_map (memberOf offset)
  rw [List.map_cons]
  exact ring.distinct

/-- A loop that compares the entries themselves goes around all the others. -/
theorem walks_others (ring : Ring list (memberOf offset own) (others.map (memberOf offset))) :
    Walks (fun entry => entry != own) (listNextEntry list offset) (listNextEntry list offset own)
      others := by
  have tests : forall ptr, (containerOf offset ptr != own) = true ↔ ptr ≠ memberOf offset own := by
    intro ptr
    rw [bne_iff_ne, ne_eq, ne_eq, containerOf_eq_iff]
  have walks : Walks (fun entry => entry != own) (listNextEntry list offset)
      (listFirstEntry list offset (memberOf offset own)) _ :=
    walks_entries ring tests
  rw [map_containerOf_memberOf] at walks
  exact walks

end Entries

end Listings
end KernelHacking
