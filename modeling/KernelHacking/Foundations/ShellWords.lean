import Mathlib.Data.List.Basic

namespace KernelHacking

/-!
# The words of a shell loop

A loop `for f in $(command)` runs over the words of what the command prints: the
text is split at blanks, and a word with a wildcard is replaced by the names that
it matches.  Text that has one word on each line, without blanks or wildcards in
them, is taken apart into these words.
-/

/-- A character of `IFS` as the shell sets it. -/
def isBlank (c : Char) : Bool := c == ' ' || c == '\t' || c == '\n'

/-- A character that makes a word a pattern for file names. -/
def isWildcard (c : Char) : Bool := c == '*' || c == '?' || c == '['

/-- Field splitting. -/
def fields (text : List Char) : List (List Char) :=
  (text.splitOnP isBlank).filter fun field => !field.isEmpty

/-- The words of a loop, given what a pattern is expanded to. -/
def loopWords (expand : List Char → List (List Char)) (text : List Char) : List (List Char) :=
  (fields text).flatMap fun word => if word.any isWildcard then expand word else [word]

/-- The text with one of these on each line. -/
def printLines (lines : List (List Char)) : List Char :=
  lines.flatMap fun line => line ++ ['\n']

/-- The word is kept together and as it is. -/
structure PlainWord (word : List Char) : Prop where
  nonempty : word ≠ []
  blank : forall c, c ∈ word → isBlank c = false
  wildcard : forall c, c ∈ word → isWildcard c = false

theorem plainWord_of_all {word : List Char} (nonempty : word ≠ [])
    (blank : (word.all fun c => !isBlank c) = true)
    (wildcard : (word.all fun c => !isWildcard c) = true) : PlainWord word := by
  rw [List.all_eq_true] at blank wildcard
  refine ⟨nonempty, ?_, ?_⟩
  · intro c member
    have checked := blank c member
    rwa [Bool.not_eq_true'] at checked
  · intro c member
    have checked := wildcard c member
    rwa [Bool.not_eq_true'] at checked

theorem fields_printLines {lines : List (List Char)}
    (plain : forall line, line ∈ lines → PlainWord line) : fields (printLines lines) = lines := by
  induction lines with
  | nil => rfl
  | cons line lines ih =>
      have first := plain line List.mem_cons_self
      have later := ih fun other member => plain other (List.mem_cons_of_mem _ member)
      have visible : (!line.isEmpty) = true := by
        rw [Bool.not_eq_true', List.isEmpty_eq_false_iff]
        exact first.nonempty
      rw [fields] at later ⊢
      rw [printLines, List.flatMap_cons, List.append_assoc, List.singleton_append,
        List.splitOnP_append_cons_of_forall_mem first.blank '\n' rfl]
      exact Eq.trans (List.filter_cons_of_pos visible) (congrArg (line :: ·) later)

theorem loopWords_printLines (expand : List Char → List (List Char)) {lines : List (List Char)}
    (plain : forall line, line ∈ lines → PlainWord line) :
    loopWords expand (printLines lines) = lines := by
  have kept : forall line, line ∈ lines →
      (if line.any isWildcard then expand line else [line]) = [line] := by
    intro line member
    apply if_neg
    rw [Bool.not_eq_true, List.any_eq_false]
    intro c inside
    rw [(plain line member).wildcard c inside]
    exact Bool.false_ne_true
  rw [loopWords, fields_printLines plain]
  exact (List.flatMap_congr kept).trans (List.flatMap_singleton' lines)

end KernelHacking
