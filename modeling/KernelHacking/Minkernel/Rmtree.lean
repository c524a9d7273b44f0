import KernelHacking.Foundations.LineMarks
import KernelHacking.Foundations.ShellWords
import Mathlib.Data.List.Dedup
import Mathlib.Data.List.DropRight
import Mathlib.Data.List.Forall2

namespace KernelHacking
namespace Minkernel

/-!
# Taking a subtree out of a Makefile and a Kconfig

`rmtree` of `kernel-prune` and `kernel-prune-git` looks for the lines that name
the subtree and comments each of them out: the line, without its outer blanks, is
pasted into `sed -i "s@${line}@#&@g"`, and sed runs over the whole file, once for
each distinct line that was found, on what the runs before it left.  The pasted
text is a regular expression for every line of the file.

How sed matches a regular expression is a parameter.  What is modelled is what
the script text becomes: a backslash at the end of the line takes the delimiter
away and sed rejects the script, and an `@` in the line ends the expression early
and turns the rest of the line into replacement, flags and commands.
-/

abbrev Line := List Char

/-! ## The tools -/

/-- How far the pattern of `s@text@#&@g` reaches. -/
inductive Scan
  | whole
  | unterminated
  | early
  deriving DecidableEq, Repr

def scan : List Char → Scan
  | [] => .whole
  | ['\\'] => .unterminated
  | '\\' :: _ :: rest => scan rest
  | '@' :: _ => .early
  | _ :: rest => scan rest

/-- What sed does with a pattern: whether it is an expression at all, and where in
a line its matches start; and what is left of a file by a script that is not the
intended one. -/
structure Sed where
  accepts : List Char → Bool
  starts : List Char → Line → Nat → Bool
  script : List Char → List Line → List Line

namespace Sed

variable (sed : Sed)

/-- In this column of the line a match starts, and gets its `#`. -/
def find (text : List Char) (line : Line) (column : Nat) : Bool :=
  decide (scan text = .whole) && sed.accepts text && sed.starts text line column

/-- `sed -i "s@${text}@#&@g"`.  A rejected script leaves the file as it is. -/
def commentOut (file : List Line) (text : List Char) : List Line :=
  match scan text with
  | .whole =>
      if sed.accepts text then file.map fun line => mark '#' (sed.starts text line) line
      else file
  | .unterminated => file
  | .early => sed.script text file

end Sed

/-- `sort | uniq`, in the order of the locale. -/
structure Sorter where
  sortUniq : List Line → List Line
  members : forall lines line, line ∈ sortUniq lines ↔ line ∈ lines

/-- `grep` for a text that stands for itself. -/
def contains (text : List Char) (line : Line) : Bool := decide (text <:+: line)

/-- `read -r line`: the blanks at both ends go. -/
def readLine (line : Line) : List Char := (line.dropWhile isBlank).rdropWhile isBlank

/-! ## `rmtree` -/

structure Files where
  makefile : List Line
  kconfig : List Line

section Functions

variable (sed : Sed) (sorter : Sorter)

/-- The texts that the loop runs over, in their order. -/
def patterns (selected : Line → Bool) (file : List Line) : List (List Char) :=
  (sorter.sortUniq (file.filter selected)).map readLine

/-- The treatment of one file: nothing to do unless a line has what is asked for,
else one run of sed for each selected line. -/
def rmtreeFile (asked selected : Line → Bool) (file : List Line) : List Line :=
  if file.any asked then (patterns sorter selected file).foldl sed.commentOut file else file

/-- `grep "[ \t]$f"/`.  Between brackets a backslash is a backslash. -/
def makefileSelected (f : List Char) (line : Line) : Bool :=
  [' ', '\\', 't'].any fun c => contains (c :: (f ++ ['/'])) line

/-- `grep "/${f}/"`. -/
def kconfigSelected (f : List Char) : Line → Bool := contains ('/' :: (f ++ ['/']))

def rmtree (f : List Char) (files : Files) : Files :=
  if f.isEmpty then files
  else
    { makefile := rmtreeFile sed sorter (contains (f ++ ['/'])) (makefileSelected f) files.makefile
      kconfig := rmtreeFile sed sorter (kconfigSelected f) (kconfigSelected f) files.kconfig }

end Functions

/-! ## The frame law -/

/-- The name of a subtree: letters, digits and underscores. -/
structure SubtreeName where
  chars : List Char
  nonempty : chars ≠ []
  word : forall c, c ∈ chars → c.isAlphanum = true ∨ c = '_'

/-- Not a blank. -/
def isVisible (c : Char) : Bool := !isBlank c

/-- The first character that is not a blank is a `#`. -/
def IsComment (line : Line) : Prop := line.find? isVisible = some '#'

instance (line : Line) : Decidable (IsComment line) := inferInstanceAs (Decidable (_ = _))

/-- A Makefile line with a space or a tab before the subtree's name. -/
def MakefileNames (f : SubtreeName) (line : Line) : Prop :=
  ∃ c, (c = ' ' ∨ c = '\t') ∧ c :: (f.chars ++ ['/']) <:+: line

def KconfigNames (f : SubtreeName) (line : Line) : Prop := '/' :: (f.chars ++ ['/']) <:+: line

instance (f : SubtreeName) (line : Line) : Decidable (MakefileNames f line) :=
  decidable_of_iff
    (' ' :: (f.chars ++ ['/']) <:+: line ∨ '\t' :: (f.chars ++ ['/']) <:+: line)
    ⟨fun names => names.elim (fun space => ⟨_, Or.inl rfl, space⟩) fun tab => ⟨_, Or.inr rfl, tab⟩,
      fun names => by
        rcases names with ⟨c, rfl | rfl, occurs⟩
        · exact Or.inl occurs
        · exact Or.inr occurs⟩

instance (f : SubtreeName) (line : Line) : Decidable (KconfigNames f line) :=
  inferInstanceAs (Decidable (_ <:+: _))

/-- A line that names the subtree has become a comment, any other is the same. -/
structure Edited (names : Line → Prop) (old new : Line) : Prop where
  commented : names old → IsComment new
  kept : ¬ names old → new = old

/-- Line by line, the two files have been edited where they should be. -/
structure EditsItsOwn (sed : Sed) (sorter : Sorter) (f : SubtreeName) (files : Files) : Prop where
  makefile : List.Forall₂ (Edited (MakefileNames f)) files.makefile
    (rmtree sed sorter f.chars files).makefile
  kconfig : List.Forall₂ (Edited (KconfigNames f)) files.kconfig
    (rmtree sed sorter f.chars files).kconfig

/-! ## When the law holds -/

/-- No script is ended early by the line that is pasted into it. -/
def Delimited (selected : Line → Bool) (file : List Line) : Prop :=
  forall found, found ∈ file → selected found = true → scan (readLine found) ≠ .early

/-- sed finds the text of the one line in the other. -/
def Matched (sed : Sed) (found line : Line) : Prop :=
  ∃ column, column ≤ line.length ∧ sed.find (readLine found) line column = true

/-- sed finds the text at the first visible character of the line or further left. -/
def Opened (sed : Sed) (found line : Line) : Prop :=
  ∃ column, column ≤ line.findIdx isVisible ∧ sed.find (readLine found) line column = true

/-- The lines that grep finds have texts that sed finds in no line that does not
name the subtree, and in each that does, unless it is a comment already. -/
structure Separated (sed : Sed) (selected : Line → Bool) (names : Line → Prop)
    (file : List Line) : Prop where
  spared : forall line, line ∈ file → ¬ names line →
    forall found, found ∈ file → selected found = true → ¬ Matched sed found line
  reached : forall line, line ∈ file → names line →
    IsComment line ∨ ∃ found, found ∈ file ∧ selected found = true ∧ Matched sed found line

/-- In a line that names the subtree, and is not a comment yet, no text is found
only behind the first visible character. -/
def Undivided (sed : Sed) (selected : Line → Bool) (names : Line → Prop) (file : List Line) :
    Prop :=
  forall line, line ∈ file → names line → ¬ IsComment line →
    forall found, found ∈ file → selected found = true → Matched sed found line →
      Opened sed found line

/-- A line as the runs for some texts leave it. -/
def edited (sed : Sed) (texts : List (List Char)) (line : Line) : Line :=
  markEach '#' (texts.map sed.find) line

section Runs

variable (sed : Sed) (sorter : Sorter)

theorem commentOut_eq_map (file : List Line) {text : List Char} (delimited : scan text ≠ .early) :
    sed.commentOut file text = file.map fun line => mark '#' (sed.find text line) line := by
  have nothing : (forall line column, sed.find text line column = false) →
      file = file.map fun line => mark '#' (sed.find text line) line := by
    intro none
    have same : (fun line => mark '#' (sed.find text line) line) = id := by
      funext line
      exact (mark_eq_self_iff '#' _ line).mpr fun column _ => none line column
    rw [same, List.map_id]
  unfold Sed.commentOut
  cases scanned : scan text with
  | early => exact absurd scanned delimited
  | unterminated =>
      apply nothing
      intro line column
      rw [Sed.find, scanned]
      rfl
  | whole =>
      cases accepted : sed.accepts text with
      | false =>
          apply nothing
          intro line column
          rw [Sed.find, accepted, Bool.and_false, Bool.false_and]
      | true =>
          have found : forall line, sed.find text line = sed.starts text line := by
            intro line
            funext column
            rw [Sed.find, scanned, accepted]
            rfl
          simp only [found, if_true]

theorem foldl_commentOut (texts : List (List Char)) (file : List Line)
    (delimited : forall text, text ∈ texts → scan text ≠ .early) :
    texts.foldl sed.commentOut file = file.map (edited sed texts) := by
  induction texts generalizing file with
  | nil => exact (List.map_id file).symm
  | cons text texts ih =>
      rw [List.foldl_cons, commentOut_eq_map sed file (delimited text List.mem_cons_self),
        ih _ fun later member => delimited later (List.mem_cons_of_mem _ member), List.map_map]
      rfl

theorem mem_patterns_iff (selected : Line → Bool) (file : List Line)
    (text : List Char) : text ∈ patterns sorter selected file ↔
      ∃ line, line ∈ file ∧ selected line = true ∧ readLine line = text := by
  rw [patterns, List.mem_map]
  constructor
  · rintro ⟨line, listed, read⟩
    rcases List.mem_filter.mp ((sorter.members _ line).mp listed) with ⟨member, found⟩
    exact ⟨line, member, found, read⟩
  · rintro ⟨line, member, found, read⟩
    exact ⟨line, (sorter.members _ line).mpr (List.mem_filter.mpr ⟨member, found⟩), read⟩

theorem patterns_eq_nil {selected : Line → Bool} {file : List Line}
    (none : forall line, line ∈ file → selected line = false) :
    patterns sorter selected file = [] := by
  have unselected : file.filter selected = [] := by
    rw [List.filter_eq_nil_iff]
    intro line member
    rw [none line member]
    exact Bool.false_ne_true
  rw [patterns, unselected, List.map_eq_nil_iff, List.eq_nil_iff_forall_not_mem]
  intro line member
  exact List.not_mem_nil ((sorter.members [] line).mp member)

/-- The first test decides nothing: where it finds no line, none is selected. -/
theorem rmtreeFile_eq_map {asked selected : Line → Bool} (file : List Line)
    (weaker : forall line, selected line = true → asked line = true)
    (delimited : Delimited selected file) :
    rmtreeFile sed sorter asked selected file =
      file.map (edited sed (patterns sorter selected file)) := by
  unfold rmtreeFile
  split
  next any =>
      apply foldl_commentOut
      intro text member
      rcases (mem_patterns_iff sorter selected file text).mp member with ⟨line, inFile, found, rfl⟩
      exact delimited line inFile found
  next any =>
      have none : forall line, line ∈ file → selected line = false := by
        intro line member
        rw [← Bool.not_eq_true]
        intro found
        exact any (List.any_eq_true.mpr ⟨line, member, weaker line found⟩)
      rw [patterns_eq_nil sorter none]
      exact (List.map_id file).symm

theorem edited_eq_self_iff (texts : List (List Char)) (line : Line) :
    edited sed texts line = line ↔ forall text, text ∈ texts →
      forall column, column ≤ line.length → sed.find text line column = false := by
  rw [edited, markEach_eq_self_iff, List.forall_mem_map]

/-- No run finds anything in a line in which no text is found. -/
theorem edited_patterns_eq_self_iff (selected : Line → Bool) (file : List Line) (line : Line) :
    edited sed (patterns sorter selected file) line = line ↔
      forall found, found ∈ file → selected found = true → ¬ Matched sed found line := by
  rw [edited_eq_self_iff]
  constructor
  · rintro none found member isFound ⟨column, bound, start⟩
    have text := (mem_patterns_iff sorter selected file _).mpr ⟨found, member, isFound, rfl⟩
    rw [none _ text column bound] at start
    cases start
  · intro none text member column bound
    rcases (mem_patterns_iff sorter selected file text).mp member with ⟨found, inFile, isFound, rfl⟩
    rw [← Bool.not_eq_true]
    exact fun start => none found inFile isFound ⟨column, bound, start⟩

theorem isComment_edited {selected : Line → Bool} {file : List Line} {line : Line}
    (opening : ¬ IsComment line → forall found, found ∈ file → selected found = true →
      Matched sed found line → Opened sed found line)
    (reached : IsComment line ∨
      ∃ found, found ∈ file ∧ selected found = true ∧ Matched sed found line) :
    IsComment (edited sed (patterns sorter selected file) line) := by
  by_cases already : IsComment line
  · exact find?_markEach_of_eq_sign rfl _ already
  · apply find?_markEach_eq_sign rfl
    · intro find listed column bound start
      rcases List.mem_map.mp listed with ⟨text, inPatterns, rfl⟩
      rcases (mem_patterns_iff sorter selected file text).mp inPatterns with
        ⟨found, member, isFound, rfl⟩
      exact opening already found member isFound ⟨column, bound, start⟩
    · rcases reached.resolve_left already with ⟨found, member, isFound, column, bound, start⟩
      have text := (mem_patterns_iff sorter selected file _).mpr ⟨found, member, isFound, rfl⟩
      exact ⟨_, List.mem_map_of_mem text, column, bound, start⟩

section OneFile

variable {asked selected : Line → Bool} (names : Line → Prop) (file : List Line)
  (weaker : forall line, selected line = true → asked line = true)
  (delimited : Delimited selected file)

include weaker delimited

/-- A file that is edited where it should be has lines that keep apart. -/
theorem separated_of_edited
    (edits : List.Forall₂ (Edited names) file (rmtreeFile sed sorter asked selected file)) :
    Separated sed selected names file := by
  rw [rmtreeFile_eq_map sed sorter file weaker delimited, List.forall₂_map_right_iff,
    List.forall₂_same] at edits
  constructor
  · intro line member other
    exact (edited_patterns_eq_self_iff sed sorter selected file line).mp
      ((edits line member).kept other)
  · intro line member named
    have comment := (edits line member).commented named
    by_cases reached : ∃ found, found ∈ file ∧ selected found = true ∧ Matched sed found line
    · exact Or.inr reached
    · left
      have unchanged := (edited_patterns_eq_self_iff sed sorter selected file line).mpr
        fun found inFile isFound matched => reached ⟨found, inFile, isFound, matched⟩
      rwa [unchanged] at comment

/-- Lines that keep apart and are not divided make the order of the runs immaterial. -/
theorem edited_of_separated (separated : Separated sed selected names file)
    (undivided : Undivided sed selected names file) :
    List.Forall₂ (Edited names) file (rmtreeFile sed sorter asked selected file) := by
  rw [rmtreeFile_eq_map sed sorter file weaker delimited, List.forall₂_map_right_iff,
    List.forall₂_same]
  intro line member
  constructor
  · intro named
    exact isComment_edited sed sorter (undivided line member named)
      (separated.reached line member named)
  · intro other
    exact (edited_patterns_eq_self_iff sed sorter selected file line).mpr
      (separated.spared line member other)

end OneFile

end Runs

/-- What the two files are asked for alike. -/
structure Both (law : (Line → Bool) → (Line → Prop) → List Line → Prop) (f : SubtreeName)
    (files : Files) : Prop where
  makefile : law (makefileSelected f.chars) (MakefileNames f) files.makefile
  kconfig : law (kconfigSelected f.chars) (KconfigNames f) files.kconfig

theorem makefileSelected_asked {f : List Char} {line : Line}
    (selected : makefileSelected f line = true) : contains (f ++ ['/']) line = true := by
  rcases List.any_eq_true.mp selected with ⟨c, -, found⟩
  have longer : c :: (f ++ ['/']) <:+: line := of_decide_eq_true found
  exact decide_eq_true ((List.suffix_cons c (f ++ ['/'])).isInfix.trans longer)

theorem rmtree_of_name (sed : Sed) (sorter : Sorter) (f : SubtreeName) (files : Files) :
    rmtree sed sorter f.chars files =
      { makefile := rmtreeFile sed sorter (contains (f.chars ++ ['/'])) (makefileSelected f.chars)
          files.makefile
        kconfig := rmtreeFile sed sorter (kconfigSelected f.chars) (kconfigSelected f.chars)
          files.kconfig } := by
  rw [rmtree, if_neg]
  rw [List.isEmpty_iff]
  exact f.nonempty

section Rmtree

variable (sed : Sed) (sorter : Sorter) {f : SubtreeName} {files : Files}
  (delimited : Both (fun selected _ => Delimited selected) f files)

include delimited

theorem separated_of_editsItsOwn (edits : EditsItsOwn sed sorter f files) :
    Both (Separated sed) f files := by
  rcases edits with ⟨makefile, kconfig⟩
  rw [rmtree_of_name] at makefile kconfig
  constructor
  · exact separated_of_edited sed sorter _ _ (fun _ => makefileSelected_asked) delimited.makefile
      makefile
  · exact separated_of_edited sed sorter _ _ (fun _ found => found) delimited.kconfig kconfig

theorem editsItsOwn_of_separated (separated : Both (Separated sed) f files)
    (undivided : Both (Undivided sed) f files) : EditsItsOwn sed sorter f files := by
  constructor
  · rw [rmtree_of_name]
    exact edited_of_separated sed sorter _ _ (fun _ => makefileSelected_asked) delimited.makefile
      separated.makefile undivided.makefile
  · rw [rmtree_of_name]
    exact edited_of_separated sed sorter _ _ (fun _ found => found) delimited.kconfig
      separated.kconfig undivided.kconfig

end Rmtree

/-- The law holds of lines that keep apart, are not divided and do not end their own
scripts early.  Without a line that does, it holds of no lines that do not keep apart. -/
theorem editsItsOwn_separated (sed : Sed) (sorter : Sorter) (f : SubtreeName) (files : Files) :
    (Both (fun selected _ => Delimited selected) f files ∧ Both (Separated sed) f files ∧
        Both (Undivided sed) f files → EditsItsOwn sed sorter f files) ∧
      (Both (fun selected _ => Delimited selected) f files → EditsItsOwn sed sorter f files →
        Both (Separated sed) f files) := by
  constructor
  · rintro ⟨delimited, separated, undivided⟩
    exact editsItsOwn_of_separated sed sorter delimited separated undivided
  · intro delimited edits
    exact separated_of_editsItsOwn sed sorter delimited edits

/-! ## Lines that stand for themselves -/

def isSpecial (c : Char) : Bool := ['.', '*', '[', '\\', '^', '@'].contains c

/-- A basic regular expression that is matched by itself only: a `$` is special at
its end, the other signs anywhere. -/
structure Plain (text : List Char) : Prop where
  ordinary : forall c, c ∈ text → isSpecial c = false
  last : text.getLast? ≠ some '$'

theorem plain_iff (text : List Char) :
    Plain text ↔ text.any isSpecial = false ∧ text.getLast? ≠ some '$' := by
  rw [List.any_eq_false]
  constructor
  · rintro ⟨ordinary, last⟩
    exact ⟨fun c member => Bool.eq_false_iff.mp (ordinary c member), last⟩
  · rintro ⟨ordinary, last⟩
    exact ⟨fun c member => Bool.eq_false_iff.mpr (ordinary c member), last⟩

instance (text : List Char) : Decidable (Plain text) := decidable_of_iff' _ (plain_iff text)

/-- Plain text is an expression, and it is matched where it occurs, from the left. -/
structure Sed.Literal (sed : Sed) : Prop where
  accepts : forall text, Plain text → sed.accepts text = true
  sound : forall text line column, Plain text → sed.starts text line column = true →
    text <+: line.drop column
  leftmost : forall text line column, Plain text → text ≠ [] → text <+: line.drop column →
    ∃ earlier, earlier ≤ column ∧ sed.starts text line earlier = true

/-- A sed for files in which every line that names the subtree is plain. -/
def literalSed : Sed where
  accepts _ := true
  starts := literalStarts
  script _ file := file

theorem literalSed_literal : literalSed.Literal where
  accepts _ _ := rfl
  sound _ _ _ _ start := literalStarts_sound start
  leftmost _ _ _ _ nonempty occurs := exists_literalStarts nonempty occurs

/-- Each line in the order of its first occurrence. -/
def stableSorter : Sorter where
  sortUniq := List.dedup
  members _ _ := List.mem_dedup

def shName : SubtreeName where
  chars := ['s', 'h']
  nonempty := List.cons_ne_nil _ _
  word := by
    intro c member
    rcases List.mem_cons.mp member with rfl | later
    · exact Or.inl (by decide)
    · rw [List.mem_singleton.mp later]
      exact Or.inl (by decide)

/-- A continuation line that holds a short directory name. -/
def hashFiles : Files where
  makefile := ["obj-y += sound.o \\".toList, " sh/".toList, "obj-y += hash/".toList]
  kconfig := []

/-- The line of `hash/` is changed although it does not name `sh`. -/
theorem hashMakefile_not_itsOwn :
    (rmtree literalSed stableSorter shName.chars hashFiles).makefile =
        ["obj-y += sound.o \\".toList, " #sh/".toList, "obj-y += ha#sh/".toList] ∧
      ¬ EditsItsOwn literalSed stableSorter shName hashFiles := by
  refine ⟨by decide, fun edits => ?_⟩
  have line := (List.forall₂_iff_get.mp edits.makefile).2 2 (by decide) (by decide)
  have other : ¬ MakefileNames shName "obj-y += hash/".toList := by decide
  exact absurd (line.kept other) (by decide)

theorem scan_cons {c : Char} (text : List Char) (noBackslash : c ≠ '\\') (noAt : c ≠ '@') :
    scan (c :: text) = scan text := by
  rw [scan]
  · exact fun same => absurd same noBackslash
  · intro next rest same
    exact absurd same noBackslash
  · exact noAt

theorem scan_ordinary {text : List Char} (ordinary : forall c, c ∈ text → isSpecial c = false) :
    scan text = .whole := by
  induction text with
  | nil => rfl
  | cons c rest ih =>
      have first := ordinary c List.mem_cons_self
      have noBackslash : c ≠ '\\' := by
        rintro rfl
        exact absurd first (by decide)
      have noAt : c ≠ '@' := by
        rintro rfl
        exact absurd first (by decide)
      rw [scan_cons rest noBackslash noAt]
      exact ih fun later member => ordinary later (List.mem_cons_of_mem c member)

theorem scan_backslash (text : List Char) (whole : scan text = .whole) :
    scan (text ++ ['\\']) = .unterminated := by
  fun_induction scan text with
  | case1 => rfl
  | case2 => cases whole
  | case3 next rest ih => exact ih whole
  | case4 rest => cases whole
  | case5 c rest single escaped noAt ih =>
      have noBackslash : c ≠ '\\' := by
        intro same
        cases rest with
        | nil => exact single same rfl
        | cons next rest => exact escaped next rest same rfl
      rw [List.cons_append, scan_cons _ noBackslash noAt]
      exact ih whole

/-- A line that goes on in the next one is never commented out by its own script. -/
theorem commentOut_continuation (sed : Sed) (file : List Line) {text : List Char}
    (whole : scan text = .whole) : sed.commentOut file (text ++ ['\\']) = file := by
  rw [Sed.commentOut, scan_backslash text whole]

/-- What is read of a line begins at its first visible character. -/
theorem readLine_starts (line : Line) : readLine line <+: line.drop (line.findIdx isVisible) := by
  have visible : line.dropWhile isBlank = line.drop (line.findIdx isVisible) :=
    List.dropWhile_eq_drop_findIdx_not
  rw [readLine, ← visible]
  exact List.rdropWhile_prefix isBlank _

theorem readLine_ne_nil {line : Line} {c : Char} (member : c ∈ line) (visible : isBlank c = false) :
    readLine line ≠ [] := by
  intro empty
  rw [readLine, List.rdropWhile_eq_nil_iff] at empty
  rw [← List.takeWhile_append_dropWhile (p := isBlank) (l := line), List.mem_append] at member
  rcases member with front | back
  · rw [List.mem_takeWhile_imp front] at visible
    cases visible
  · rw [empty c back] at visible
    cases visible

/-- Plain lines name the subtree, grep finds just these, and none of them occurs in
a line other than its own copies. -/
structure Alone (selected : Line → Bool) (names : Line → Prop) (file : List Line) : Prop where
  agree : forall line, line ∈ file → (selected line = true ↔ names line)
  plain : forall line, line ∈ file → names line → Plain (readLine line)
  apart : forall line, line ∈ file → names line → forall other, other ∈ file →
    readLine line <:+: other → names other ∧ readLine other = readLine line

section Alone

variable {sed : Sed} {sorter : Sorter} {selected : Line → Bool} {names : Line → Prop}
  {file : List Line}

/-- A run of sed that finds something in a line has a text that occurs there. -/
theorem occurs_of_find (literal : sed.Literal) {text : List Char} {line : Line} {column : Nat}
    (plain : Plain text) (found : sed.find text line column = true) : text <:+: line := by
  rw [Sed.find, Bool.and_eq_true] at found
  exact (literal.sound text line column plain found.2).isInfix.trans
    (List.drop_suffix column line).isInfix

theorem separated_of_alone (literal : sed.Literal) (slash : forall line, names line → '/' ∈ line)
    (alone : Alone selected names file) :
    Delimited selected file ∧ Separated sed selected names file ∧
      Undivided sed selected names file := by
  -- what is found in a line is a text that names the subtree, and the line's own
  have own : forall line, line ∈ file → forall found, found ∈ file → selected found = true →
      Matched sed found line → names line ∧ readLine line = readLine found := by
    rintro line member found inFile isFound ⟨column, -, start⟩
    have named := (alone.agree found inFile).mp isFound
    exact alone.apart found inFile named line member
      (occurs_of_find literal (alone.plain found inFile named) start)
  have opened : forall line, line ∈ file → names line → Opened sed line line := by
    intro line member named
    have plain := alone.plain line member named
    rcases literal.leftmost _ line _ plain (readLine_ne_nil (slash line named) (by decide))
      (readLine_starts line) with ⟨column, bound, start⟩
    refine ⟨column, bound, ?_⟩
    rw [Sed.find, scan_ordinary plain.ordinary, literal.accepts _ plain, start]
    rfl
  refine ⟨?_, ⟨?_, ?_⟩, ?_⟩
  · intro found inFile isFound
    rw [scan_ordinary (alone.plain found inFile ((alone.agree found inFile).mp isFound)).ordinary]
    exact fun same => Scan.noConfusion same
  · intro line member other found inFile isFound matched
    exact other (own line member found inFile isFound matched).1
  · intro line member named
    rcases opened line member named with ⟨column, bound, start⟩
    exact Or.inr ⟨line, member, (alone.agree line member).mpr named, column,
      bound.trans List.findIdx_le_length, start⟩
  · intro line member named _ found inFile isFound matched
    rw [Opened, ← (own line member found inFile isFound matched).2]
    exact opened line member named

theorem both_of_alone (literal : sed.Literal) {f : SubtreeName} {files : Files}
    (alone : Both Alone f files) :
    Both (fun selected _ => Delimited selected) f files ∧ Both (Separated sed) f files ∧
      Both (Undivided sed) f files := by
  have slashIn : forall (c : Char) (line : Line), c :: (f.chars ++ ['/']) <:+: line → '/' ∈ line := by
    intro c line occurs
    exact occurs.subset (List.mem_cons_of_mem c (List.mem_append_right _ (List.mem_singleton_self _)))
  rcases separated_of_alone literal
    (fun line named => named.elim fun c occurs => slashIn c line occurs.2) alone.makefile with
    ⟨delimited, separated, undivided⟩
  rcases separated_of_alone literal (slashIn '/') alone.kconfig with
    ⟨delimited', separated', undivided'⟩
  exact ⟨⟨delimited, delimited'⟩, ⟨separated, separated'⟩, ⟨undivided, undivided'⟩⟩

/-- What `rmtree` does on the files it is meant for. -/
theorem editsItsOwn_of_alone (literal : sed.Literal) {f : SubtreeName} {files : Files}
    (alone : Both Alone f files) : EditsItsOwn sed sorter f files := by
  rcases both_of_alone literal alone with ⟨delimited, separated, undivided⟩
  exact editsItsOwn_of_separated sed sorter delimited separated undivided

end Alone

/-- A tree with two subtrees. -/
def soundFiles : Files where
  makefile := ["obj-y += core/".toList, "obj-y += sh/".toList]
  kconfig := ["source sound/core/Kconfig".toList, "source sound/sh/Kconfig".toList]

theorem alone_soundFiles : Both Alone shName soundFiles where
  makefile := ⟨by decide, by decide, by decide⟩
  kconfig := ⟨by decide, by decide, by decide⟩

/-- The line of `sh/` in each of the two files is commented out, and no other. -/
theorem soundFiles_itsOwn : EditsItsOwn literalSed stableSorter shName soundFiles :=
  (editsItsOwn_separated literalSed stableSorter shName soundFiles).1
    (both_of_alone literalSed_literal alone_soundFiles)

end Minkernel
end KernelHacking
