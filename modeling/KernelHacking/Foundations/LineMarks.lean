import Mathlib.Data.List.Infix

namespace KernelHacking

universe u

/-!
# Marking the places where a line is matched

A substitution that puts one sign before every match leaves the characters of a
line as they are and adds a sign at each column where a match starts.  Matching
itself is not fixed here: a predicate on columns says where matches start.  A
marked line is longer than before or the same, which is why a sequence of such
substitutions changes nothing only if none of them finds a match.

For text that stands for itself the columns are those of its occurrences, taken
from the left without overlap.
-/

section Marks

variable {α : Type u}

/-- The line with the sign at each column where a match starts. -/
def mark (sign : α) (starts : Nat → Bool) : List α → List α
  | [] => if starts 0 then [sign] else []
  | c :: rest =>
      (if starts 0 then [sign] else []) ++ c :: mark sign (fun column => starts (column + 1)) rest

theorem mark_cons_of_start (sign c : α) {starts : Nat → Bool} (rest : List α)
    (start : starts 0 = true) :
    mark sign starts (c :: rest) =
      sign :: c :: mark sign (fun column => starts (column + 1)) rest := by
  rw [mark, if_pos start, List.singleton_append]

theorem mark_cons_of_not_start (sign c : α) {starts : Nat → Bool} (rest : List α)
    (start : starts 0 = false) :
    mark sign starts (c :: rest) = c :: mark sign (fun column => starts (column + 1)) rest := by
  rw [mark, if_neg (start ▸ Bool.false_ne_true), List.nil_append]

theorem length_le_length_mark (sign : α) (starts : Nat → Bool) (line : List α) :
    line.length ≤ (mark sign starts line).length := by
  induction line generalizing starts with
  | nil => exact Nat.zero_le _
  | cons c rest ih =>
      have later := ih fun column => starts (column + 1)
      rw [mark, List.length_append, List.length_cons, List.length_cons]
      omega

/-- A line stays as it is exactly when no match starts in it. -/
theorem mark_eq_self_iff (sign : α) (starts : Nat → Bool) (line : List α) :
    mark sign starts line = line ↔ forall column, column ≤ line.length → starts column = false := by
  induction line generalizing starts with
  | nil =>
      cases first : starts 0 <;> simp [mark, first]
  | cons c rest ih =>
      cases first : starts 0 with
      | true =>
          constructor
          · intro same
            rw [mark_cons_of_start sign c rest first] at same
            have lengths := congrArg List.length same
            have grown := length_le_length_mark sign (fun column => starts (column + 1)) rest
            simp only [List.length_cons] at lengths
            omega
          · intro none
            exact absurd ((none 0 (Nat.zero_le _)).symm.trans first) Bool.false_ne_true
      | false =>
          rw [mark_cons_of_not_start sign c rest first, List.cons_inj_right, ih]
          constructor
          · intro later column bound
            cases column with
            | zero => exact first
            | succ column => exact later column (Nat.le_of_succ_le_succ bound)
          · intro all column bound
            exact all (column + 1) (Nat.succ_le_succ bound)

/-- The first visible character is the sign if it was before, or if a match
starts there or further left. -/
theorem find?_mark_eq_sign_iff {visible : α → Bool} {sign : α} (shown : visible sign = true)
    (starts : Nat → Bool) (line : List α) :
    (mark sign starts line).find? visible = some sign ↔
      line.find? visible = some sign ∨
        ∃ column, column ≤ line.findIdx visible ∧ starts column = true := by
  induction line generalizing starts with
  | nil =>
      cases first : starts 0 <;> simp [mark, first, shown]
  | cons c rest ih =>
      cases first : starts 0 with
      | true =>
          rw [mark_cons_of_start sign c rest first, List.find?_cons_of_pos shown]
          exact ⟨fun _ => Or.inr ⟨0, Nat.zero_le _, first⟩, fun _ => rfl⟩
      | false =>
          rw [mark_cons_of_not_start sign c rest first]
          cases seen : visible c with
          | true =>
              rw [List.find?_cons_of_pos seen, List.find?_cons_of_pos seen, List.findIdx_cons, seen]
              constructor
              · exact Or.inl
              · rintro (same | ⟨column, bound, start⟩)
                · exact same
                · rw [Nat.le_zero.mp bound, first] at start
                  cases start
          | false =>
              rw [List.find?_cons_of_neg (seen ▸ Bool.false_ne_true),
                List.find?_cons_of_neg (seen ▸ Bool.false_ne_true), ih, List.findIdx_cons, seen]
              apply or_congr_right
              constructor
              · rintro ⟨column, bound, start⟩
                exact ⟨column + 1, Nat.succ_le_succ bound, start⟩
              · rintro ⟨column, bound, start⟩
                cases column with
                | zero => exact absurd (first.symm.trans start) Bool.false_ne_true
                | succ column => exact ⟨column, Nat.le_of_succ_le_succ bound, start⟩

/-! ## One substitution after another -/

/-- The line after a sequence of substitutions, each of which looks for its
matches in what the ones before it left. -/
def markEach (sign : α) (finds : List (List α → Nat → Bool)) (line : List α) : List α :=
  finds.foldl (fun line find => mark sign (find line) line) line

theorem markEach_cons (sign : α) (find : List α → Nat → Bool)
    (finds : List (List α → Nat → Bool)) (line : List α) :
    markEach sign (find :: finds) line = markEach sign finds (mark sign (find line) line) :=
  rfl

theorem length_le_length_markEach (sign : α) (finds : List (List α → Nat → Bool))
    (line : List α) : line.length ≤ (markEach sign finds line).length := by
  induction finds generalizing line with
  | nil => exact Nat.le_refl _
  | cons find finds ih =>
      rw [markEach_cons]
      exact Nat.le_trans (length_le_length_mark sign (find line) line) (ih _)

theorem length_lt_length_mark {sign : α} {starts : Nat → Bool} {line : List α}
    (changed : mark sign starts line ≠ line) : line.length < (mark sign starts line).length := by
  induction line generalizing starts with
  | nil =>
      cases first : starts 0 with
      | true => simp [mark, first]
      | false => simp [mark, first] at changed
  | cons c rest ih =>
      cases first : starts 0 with
      | true =>
          have grown := length_le_length_mark sign (fun column => starts (column + 1)) rest
          rw [mark_cons_of_start sign c rest first, List.length_cons, List.length_cons,
            List.length_cons]
          omega
      | false =>
          rw [mark_cons_of_not_start sign c rest first] at changed ⊢
          rw [List.length_cons, List.length_cons]
          exact Nat.succ_lt_succ (ih fun same => changed (congrArg (List.cons c) same))

theorem markEach_eq_self_iff (sign : α) (finds : List (List α → Nat → Bool)) (line : List α) :
    markEach sign finds line = line ↔ forall find, find ∈ finds →
      forall column, column ≤ line.length → find line column = false := by
  induction finds with
  | nil => simp [markEach]
  | cons find finds ih =>
      rw [markEach_cons, List.forall_mem_cons, ← mark_eq_self_iff sign (find line) line, ← ih]
      constructor
      · intro same
        have unmarked : mark sign (find line) line = line := by
          by_contra changed
          have longer := length_lt_length_mark changed
          have kept := length_le_length_markEach sign finds (mark sign (find line) line)
          rw [same] at kept
          omega
        rw [unmarked] at same
        exact ⟨unmarked, same⟩
      · rintro ⟨unmarked, same⟩
        rw [unmarked]
        exact same

/-- A line that has the sign in front keeps it. -/
theorem find?_markEach_of_eq_sign {visible : α → Bool} {sign : α}
    (shown : visible sign = true) (finds : List (List α → Nat → Bool)) {line : List α}
    (signed : line.find? visible = some sign) :
    (markEach sign finds line).find? visible = some sign := by
  induction finds generalizing line with
  | nil => exact signed
  | cons find finds ih =>
      rw [markEach_cons]
      exact ih ((find?_mark_eq_sign_iff shown (find line) line).mpr (Or.inl signed))

/-- The first visible character becomes the sign when one of the substitutions
finds a match and each of those that do finds one there or further left: whichever
comes first meets the line as it was. -/
theorem find?_markEach_eq_sign {visible : α → Bool} {sign : α}
    (shown : visible sign = true) {finds : List (List α → Nat → Bool)} {line : List α}
    (opening : forall find, find ∈ finds → forall column, column ≤ line.length →
      find line column = true →
        ∃ earlier, earlier ≤ line.findIdx visible ∧ find line earlier = true)
    (matched : ∃ find, find ∈ finds ∧ ∃ column, column ≤ line.length ∧ find line column = true) :
    (markEach sign finds line).find? visible = some sign := by
  induction finds with
  | nil =>
      rcases matched with ⟨find, member, -⟩
      cases member
  | cons find finds ih =>
      rw [markEach_cons]
      by_cases here : ∃ column, column ≤ line.length ∧ find line column = true
      · rcases here with ⟨column, bound, start⟩
        have opened := opening find List.mem_cons_self column bound start
        exact find?_markEach_of_eq_sign shown finds
          ((find?_mark_eq_sign_iff shown (find line) line).mpr (Or.inr opened))
      · have unmarked : mark sign (find line) line = line := by
          rw [mark_eq_self_iff]
          intro column bound
          rw [← Bool.not_eq_true]
          exact fun start => here ⟨column, bound, start⟩
        rw [unmarked]
        apply ih
        · intro later member
          exact opening later (List.mem_cons_of_mem find member)
        · rcases matched with ⟨later, member, found⟩
          rcases List.mem_cons.mp member with rfl | member
          · exact absurd found here
          · exact ⟨later, member, found⟩

end Marks

/-! ## Text that stands for itself -/

section Literal

variable {α : Type u} [DecidableEq α]

/-- Where the occurrences of a text start, when the next columns are taken by an
occurrence already. -/
def occurrences (text : List α) : Nat → List α → List Bool
  | _, [] => []
  | 0, c :: rest =>
      if text <+: c :: rest then true :: occurrences text (text.length - 1) rest
      else false :: occurrences text 0 rest
  | taken + 1, _ :: rest => false :: occurrences text taken rest

/-- A match of the text as it stands starts in this column. -/
def literalStarts (text line : List α) (column : Nat) : Bool :=
  (occurrences text 0 line).getD column false

theorem occurrences_sound {text : List α} {taken : Nat} {line : List α} {column : Nat}
    (start : (occurrences text taken line).getD column false = true) :
    text <+: line.drop column := by
  induction line generalizing taken column with
  | nil => simp [occurrences] at start
  | cons c rest ih =>
      cases taken with
      | zero =>
          by_cases here : text <+: c :: rest
          · cases column with
            | zero => exact here
            | succ column =>
                rw [occurrences, if_pos here, List.getD_cons_succ] at start
                exact ih start
          · rw [occurrences, if_neg here] at start
            cases column with
            | zero => cases start
            | succ column =>
                rw [List.getD_cons_succ] at start
                exact ih start
      | succ taken =>
          rw [occurrences] at start
          cases column with
          | zero => cases start
          | succ column =>
              rw [List.getD_cons_succ] at start
              exact ih start

theorem literalStarts_sound {text line : List α} {column : Nat}
    (start : literalStarts text line column = true) : text <+: line.drop column :=
  occurrences_sound start

/-- Where the text occurs, a match starts there or further left. -/
theorem exists_literalStarts {text line : List α} {column : Nat} (nonempty : text ≠ [])
    (occurs : text <+: line.drop column) :
    ∃ earlier, earlier ≤ column ∧ literalStarts text line earlier = true := by
  unfold literalStarts
  induction line generalizing column with
  | nil =>
      rw [List.drop_nil, List.prefix_nil] at occurs
      exact absurd occurs nonempty
  | cons c rest ih =>
      by_cases here : text <+: c :: rest
      · refine ⟨0, Nat.zero_le _, ?_⟩
        rw [occurrences, if_pos here, List.getD_cons_zero]
      · cases column with
        | zero => exact absurd occurs here
        | succ column =>
            rcases ih occurs with ⟨earlier, bound, start⟩
            refine ⟨earlier + 1, Nat.succ_le_succ bound, ?_⟩
            rw [occurrences, if_neg here, List.getD_cons_succ]
            exact start

end Literal

end KernelHacking
