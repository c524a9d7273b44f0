import KernelHacking.Foundations.Machine
import Mathlib.Data.List.FinRange
import Mathlib.Data.List.Perm.Basic

namespace KernelHacking

universe u v w x

/-!
# What goes into a machine and what comes out of it

The steps of a machine leave events.  Some of them put an item into the machine
and some take one out, and an account says what the machine holds.  When each
step balances the account, so does a whole run.  Two balances are used: in order,
when the machine is a queue, and up to order, when its items are only counted.
-/

section Balances

variable {Event : Type v} {Item : Type w} (put get : Event → Option Item)

/-- What was held and what has been put in come out in order, or are still held. -/
def InOrder (held : List Item) (events : List Event) (after : List Item) : Prop :=
  held ++ events.filterMap put = events.filterMap get ++ after

/-- What was held and what has been put in has come out once, or is still held. -/
def Accounted (held : List Item) (events : List Event) (after : List Item) : Prop :=
  (held ++ events.filterMap put).Perm (events.filterMap get ++ after)

variable {put get} {held middle after : List Item} {first second : List Event}

theorem InOrder.refl (held : List Item) : InOrder put get held [] held :=
  List.append_nil held

theorem InOrder.trans (here : InOrder put get held first middle)
    (later : InOrder put get middle second after) :
    InOrder put get held (first ++ second) after := by
  rw [InOrder] at here later ⊢
  rw [List.filterMap_append, List.filterMap_append, ← List.append_assoc, here, List.append_assoc,
    later, List.append_assoc]

theorem Accounted.of_silent (held : List Item) {events : List Event}
    (nothingIn : events.filterMap put = []) (nothingOut : events.filterMap get = []) :
    Accounted put get held events held := by
  rw [Accounted, nothingIn, nothingOut, List.append_nil]
  exact List.Perm.refl held

theorem Accounted.refl (held : List Item) : Accounted put get held [] held :=
  Accounted.of_silent held rfl rfl

theorem Accounted.trans (here : Accounted put get held first middle)
    (later : Accounted put get middle second after) :
    Accounted put get held (first ++ second) after := by
  have moved := here.append_right (second.filterMap put)
  rw [List.append_assoc _ middle] at moved
  have settled := moved.trans (later.append_left _)
  rw [Accounted, List.filterMap_append, List.filterMap_append]
  rwa [List.append_assoc, ← List.append_assoc _ _ after] at settled

end Balances

/-! ## Accounts kept by place -/

section Places

variable {Item : Type w} {count : Nat}

/-- What stands in all places of a table. -/
def inPlaces (standing : Fin count → List Item) : List Item :=
  (List.finRange count).flatMap standing

theorem inPlaces_eq_nil {standing : Fin count → List Item}
    (empty : forall place, standing place = []) : inPlaces standing = [] := by
  rw [inPlaces, List.flatMap_eq_nil_iff]
  exact fun place _ => empty place

/-- A place gives up what stood in it for something else. -/
theorem inPlaces_update (standing : Fin count → List Item) (place : Fin count) (items : List Item) :
    (standing place ++ inPlaces (Function.update standing place items)).Perm
      (items ++ inPlaces standing) := by
  have first := List.perm_cons_erase (List.mem_finRange place)
  have apart : forall other, other ∈ (List.finRange count).erase place →
      Function.update standing place items other = standing other := by
    intro other member
    apply Function.update_of_ne
    rintro rfl
    exact (List.nodup_finRange count).not_mem_erase member
  have changed : (inPlaces (Function.update standing place items)).Perm
      (items ++ ((List.finRange count).erase place).flatMap standing) := by
    have moved := first.flatMap_right (Function.update standing place items)
    rwa [List.flatMap_cons, Function.update_self, List.flatMap_congr apart] at moved
  have kept : (inPlaces standing).Perm
      (standing place ++ ((List.finRange count).erase place).flatMap standing) :=
    first.flatMap_right standing
  have both := (changed.append_left (standing place)).trans (List.perm_append_comm_assoc ..)
  exact both.trans (kept.symm.append_left items)

end Places

namespace Machine

variable {State : Type u} {Op : Type v} {Event : Type w} {Account : Type x}

/-- The events of a run, in order. -/
def events (m : Machine State Op (List Event)) (s : State) (ops : List Op) : List Event :=
  (m.trace s ops).flatten

@[simp] theorem events_nil (m : Machine State Op (List Event)) (s : State) : m.events s [] = [] :=
  rfl

theorem events_cons (m : Machine State Op (List Event)) (s : State) (op : Op) (ops : List Op) :
    m.events s (op :: ops) = m.out s op ++ m.events (m.next s op) ops := rfl

theorem events_append (m : Machine State Op (List Event)) (s : State) (first second : List Op) :
    m.events s (first ++ second) = m.events s first ++ m.events (m.run s first) second := by
  rw [events, trace_append, List.flatten_append]
  rfl

/-- A condition on every event of a run is a guard on its steps. -/
theorem forall_events_iff_along (m : Machine State Op (List Event)) (P : Event → Prop) (s : State)
    (ops : List Op) :
    (forall event, event ∈ m.events s ops → P event) ↔
      m.Along (fun state op => forall event, event ∈ m.out state op → P event) s ops := by
  refine Iff.trans ?_ (m.forall_trace_iff_along
    (fun events => forall event, event ∈ events → P event) s ops)
  constructor
  · exact fun every events inside event member =>
      every event (List.mem_flatten.mpr ⟨events, inside, member⟩)
  · intro every event member
    rcases List.mem_flatten.mp member with ⟨events, inside, here⟩
    exact every events inside event here

/-- Guarded steps that balance the account of the state with their events keep
it balanced over a whole run. -/
theorem run_balance (m : Machine State Op (List Event)) (I : State → Account → Prop)
    (P : State → Op → Prop) (Balance : Account → List Event → Account → Prop)
    (refl : forall account, Balance account [] account)
    (trans : forall {held middle after : Account} {first second : List Event},
      Balance held first middle → Balance middle second after →
        Balance held (first ++ second) after)
    (step : forall s op held, I s held → P s op →
      ∃ after, I (m.next s op) after ∧ Balance held (m.out s op) after)
    {s : State} {ops : List Op} {held : Account} (initial : I s held) (along : m.Along P s ops) :
    ∃ after, I (m.run s ops) after ∧ Balance held (m.events s ops) after := by
  induction ops generalizing s held with
  | nil => exact ⟨held, initial, refl held⟩
  | cons op ops ih =>
      rcases step s op held initial along.1 with ⟨middle, related, here⟩
      rcases ih related along.2 with ⟨after, last, later⟩
      exact ⟨after, last, trans here later⟩

end Machine
end KernelHacking
