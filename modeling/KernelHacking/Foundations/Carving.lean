import Mathlib.Data.List.Basic
import Mathlib.Data.List.Count
import Mathlib.Data.List.Perm.Basic

namespace KernelHacking

/-!
# Pieces carved out of blocks

An allocator that hands out small pieces takes a block, carves pieces off it from
its start on, and takes a new block when the old one is used up.  A block is
referred to by the pieces that are still in use and by the allocator while it
carves.  No piece reaches into another of its block, and one that is carved where
there is room lies in its block.
-/

/-- A piece of a block; blocks have identities of their own. -/
structure Piece where
  block : Nat
  start : Nat
  size : Nat
deriving DecidableEq, Repr

namespace Piece

def Within (length : Nat) (piece : Piece) : Prop := piece.start + piece.size ≤ length

instance (length : Nat) (piece : Piece) : Decidable (piece.Within length) :=
  inferInstanceAs (Decidable (_ ≤ _))

def Apart (first second : Piece) : Prop :=
  first.block = second.block →
    first.start + first.size ≤ second.start ∨ second.start + second.size ≤ first.start

theorem Apart.symm {first second : Piece} (apart : first.Apart second) : second.Apart first :=
  fun same => (apart same.symm).symm

end Piece

/-- The pieces in use, the block that is being carved and how far, when all blocks
so far are below `fresh`. -/
structure Carved (current : Option Nat) (offset : Nat) (fresh : Nat) (pieces : List Piece) :
    Prop where
  apart : pieces.Pairwise Piece.Apart
  behind : forall piece, piece ∈ pieces → current = some piece.block →
    piece.start + piece.size ≤ offset
  known : forall piece, piece ∈ pieces → piece.block < fresh
  currentKnown : forall block, current = some block → block < fresh

namespace Carved

variable {offset fresh block : Nat} {current : Option Nat} {pieces : List Piece}

theorem nothing (offset fresh : Nat) : Carved none offset fresh [] where
  apart := List.Pairwise.nil
  behind _ member := absurd member List.not_mem_nil
  known _ member := absurd member List.not_mem_nil
  currentKnown _ none := absurd none.symm (Option.some_ne_none _)

/-- A new block is taken. -/
theorem renew (carved : Carved current offset fresh pieces) :
    Carved (some fresh) 0 (fresh + 1) pieces where
  apart := carved.apart
  behind piece member same := by
    have known := carved.known piece member
    rw [← Option.some.inj same] at known
    exact absurd known (Nat.lt_irrefl _)
  known piece member := Nat.lt_succ_of_lt (carved.known piece member)
  currentKnown _ same := Option.some.inj same ▸ Nat.lt_succ_self fresh

/-- A piece is carved behind those that have been. -/
theorem carve (carved : Carved (some block) offset fresh pieces) (size : Nat) :
    Carved (some block) (offset + size) fresh (⟨block, offset, size⟩ :: pieces) where
  apart := by
    refine List.pairwise_cons.mpr ⟨fun piece member same => ?_, carved.apart⟩
    exact Or.inr (carved.behind piece member (congrArg some same))
  behind piece member same := by
    rcases List.mem_cons.mp member with rfl | old
    · exact Nat.le_refl _
    · exact Nat.le_trans (carved.behind piece old same) (Nat.le_add_right _ _)
  known piece member := by
    rcases List.mem_cons.mp member with rfl | old
    · exact carved.currentKnown block rfl
    · exact carved.known piece old
  currentKnown := carved.currentKnown

/-- The block is left with the pieces that have been carved off it. -/
theorem leave (carved : Carved current offset fresh pieces) (later : Nat) :
    Carved none later fresh pieces where
  apart := carved.apart
  behind _ _ none := absurd none.symm (Option.some_ne_none _)
  known := carved.known
  currentKnown _ none := absurd none.symm (Option.some_ne_none _)

/-- Pieces are given back. -/
theorem sublist (carved : Carved current offset fresh pieces) {fewer : List Piece}
    (sub : fewer.Sublist pieces) : Carved current offset fresh fewer where
  apart := carved.apart.sublist sub
  behind piece member := carved.behind piece (sub.subset member)
  known piece member := carved.known piece (sub.subset member)
  currentKnown := carved.currentKnown

end Carved

/-- How many refer to a block: its pieces in use, and who carves it. -/
def references (current : Option Nat) (pieces : List Piece) (block : Nat) : Nat :=
  pieces.countP (fun piece => piece.block = block) + if current = some block then 1 else 0

section References

variable {current : Option Nat} {pieces : List Piece} {block : Nat}

theorem references_cons (current : Option Nat) (piece : Piece) (pieces : List Piece)
    (block : Nat) :
    references current (piece :: pieces) block =
      references current pieces block + if piece.block = block then 1 else 0 := by
  rw [references, references, List.countP_cons]
  simp only [decide_eq_true_eq]
  omega

theorem references_erase {piece : Piece} (member : piece ∈ pieces) (current : Option Nat)
    (block : Nat) :
    references current (pieces.erase piece) block + (if piece.block = block then 1 else 0) =
      references current pieces block := by
  have perm := List.perm_cons_erase member
  have counted := perm.countP_eq (fun other => decide (other.block = block))
  rw [List.countP_cons] at counted
  simp only [decide_eq_true_eq] at counted
  rw [references, references, counted]
  omega

/-- Nobody refers to a block that has not been taken yet. -/
theorem references_fresh {offset fresh : Nat} (carved : Carved current offset fresh pieces) (later : fresh ≤ block) :
    references current pieces block = 0 := by
  have none : pieces.countP (fun piece => decide (piece.block = block)) = 0 := by
    rw [List.countP_eq_zero]
    intro piece member same
    have known := carved.known piece member
    rw [of_decide_eq_true same] at known
    omega
  have other : current ≠ some block := fun same => by
    have known := carved.currentKnown block same
    omega
  rw [references, none, if_neg other]

end References

end KernelHacking
