import Mathlib.Data.List.Basic
import Mathlib.Data.List.Induction
import Mathlib.Data.List.Infix
import Mathlib.Logic.Function.Basic

namespace KernelHacking

/-!
# Files, directories and symbolic links

A tree gives the entry at each path from the root.  A path name that a program
uses is walked component by component, and a symbolic link on the way puts its
target in front of what is left of the name.  The kernel follows a limited number
of links in one walk.

Entries that are taken away never make a walk succeed that failed before.
-/

abbrev Name := List Char

abbrev Path := List Name

/-- The parts of a path name between slashes. -/
inductive Component where
  | here
  | up
  | name (name : Name)
  deriving DecidableEq

inductive Node where
  | file
  | directory
  | symlink (absolute : Bool) (target : List Component)
  deriving DecidableEq

abbrev FileTree := Path → Option Node

namespace FileTree

/-- Walk from a directory, given what becomes of a walk at a symbolic link. -/
def walkWith (tree : FileTree) (follow : Path → List Component → Option Path) :
    Path → List Component → Option Path
  | dir, [] => some dir
  | dir, .here :: rest => walkWith tree follow dir rest
  | dir, .up :: rest => walkWith tree follow dir.dropLast rest
  | dir, .name name :: rest =>
      match tree (dir ++ [name]) with
      | none => none
      | some .file => if rest = [] then some (dir ++ [name]) else none
      | some .directory => walkWith tree follow (dir ++ [name]) rest
      | some (.symlink absolute target) => follow (if absolute then [] else dir) (target ++ rest)

/-- Walk from a directory with a limit on the links to follow. -/
def walk (tree : FileTree) : Nat → Path → List Component → Option Path
  | 0 => tree.walkWith fun _ _ => none
  | links + 1 => tree.walkWith (walk tree links)

/-- What is at this path exists when symbolic links are followed. -/
def Follows (tree : FileTree) (links : Nat) (path : Path) : Prop :=
  (tree.walk links [] (path.map .name)).isSome = true

instance decidableFollows (tree : FileTree) (links : Nat) (path : Path) :
    Decidable (tree.Follows links path) :=
  inferInstanceAs (Decidable (_ = true))

/-- Every entry is in a directory. -/
def Tidy (tree : FileTree) : Prop :=
  forall path name, tree (path ++ [name]) ≠ none → tree path = some .directory

/-- Nothing but files are missing from the second tree. -/
def Prunes (tree pruned : FileTree) : Prop :=
  forall path, pruned path = tree path ∨ (pruned path = none ∧ tree path = some .file)

theorem Tidy.directory {tree : FileTree} (tidy : tree.Tidy) {path below : Path} (nonempty : below ≠ [])
    (entry : tree (path ++ below) ≠ none) : tree path = some .directory := by
  induction below using List.reverseRecOn with
  | nil => exact absurd rfl nonempty
  | append_singleton below name ih =>
      rw [← List.append_assoc] at entry
      have inner := tidy (path ++ below) name entry
      cases below with
      | nil => rwa [List.append_nil] at inner
      | cons first rest =>
          apply ih (List.cons_ne_nil _ _)
          rw [inner]
          exact Option.some_ne_none _

theorem Tidy.prune {tree pruned : FileTree} (tidy : tree.Tidy) (prunes : tree.Prunes pruned) :
    pruned.Tidy := by
  intro path name entry
  have original : tree (path ++ [name]) ≠ none := by
    rcases prunes (path ++ [name]) with same | ⟨gone, _⟩
    · rwa [same] at entry
    · exact absurd gone entry
  have directory := tidy path name original
  rcases prunes path with same | ⟨_, file⟩
  · rw [same, directory]
  · rw [directory] at file
    cases file

/-! ## Walks -/

section Walks

variable {tree tree' : FileTree}

theorem walkWith_directories {follow : Path → List Component → Option Path} {names : List Name}
    {dir : Path}
    (directories : forall before after, names = before ++ after → before ≠ [] →
      tree (dir ++ before) = some .directory) (rest : List Component) :
    tree.walkWith follow dir (names.map .name ++ rest) = tree.walkWith follow (dir ++ names) rest := by
  induction names generalizing dir with
  | nil => rw [List.append_nil, List.map_nil, List.nil_append]
  | cons name names ih =>
      have first := directories [name] names rfl (List.cons_ne_nil _ _)
      have later := @ih (dir ++ [name]) fun before after split _ => by
        rw [List.append_assoc]
        exact directories (name :: before) after (congrArg (name :: ·) split) (List.cons_ne_nil _ _)
      rw [List.append_assoc] at later
      simp only [List.map_cons, List.cons_append, walkWith, first]
      exact later

/-- A walk goes through directories to whatever is in the last of them. -/
theorem walk_directories {names : List Name} {dir : Path}
    (directories : forall before after, names = before ++ after → before ≠ [] →
      tree (dir ++ before) = some .directory) (links : Nat) (rest : List Component) :
    tree.walk links dir (names.map .name ++ rest) = tree.walk links (dir ++ names) rest := by
  cases links with
  | zero => exact walkWith_directories directories rest
  | succ links => exact walkWith_directories directories rest

theorem walk_here (links : Nat) (dir : Path) (rest : List Component) :
    tree.walk links dir (.here :: rest) = tree.walk links dir rest := by
  cases links with
  | zero => rfl
  | succ links => rfl

theorem walk_nil (links : Nat) (dir : Path) : tree.walk links dir [] = some dir := by
  cases links with
  | zero => rfl
  | succ links => rfl

theorem walk_file {dir : Path} {name : Name} (file : tree (dir ++ [name]) = some .file)
    (links : Nat) : tree.walk links dir [.name name] = some (dir ++ [name]) := by
  cases links with
  | zero => simp only [walk, walkWith, file, if_true]
  | succ links => simp only [walk, walkWith, file, if_true]

theorem walk_missing {dir : Path} {name : Name} (missing : tree (dir ++ [name]) = none)
    (links : Nat) : tree.walk links dir [.name name] = none := by
  cases links with
  | zero => simp only [walk, walkWith, missing]
  | succ links => simp only [walk, walkWith, missing]

theorem walkWith_mono (kept : forall path node, tree path = some node → tree' path = some node)
    {follow follow' : Path → List Component → Option Path}
    (follows : forall dir rest path, follow dir rest = some path → follow' dir rest = some path)
    {rest : List Component} {dir path : Path} (reached : tree.walkWith follow dir rest = some path) :
    tree'.walkWith follow' dir rest = some path := by
  induction rest generalizing dir with
  | nil => exact reached
  | cons component rest ih =>
      cases component with
      | here => exact ih reached
      | up => exact ih reached
      | name name =>
          rw [walkWith] at reached ⊢
          cases entry : tree (dir ++ [name]) with
          | none =>
              rw [entry] at reached
              cases reached
          | some node =>
              rw [kept _ node entry]
              rw [entry] at reached
              cases node with
              | file => exact reached
              | directory => exact ih reached
              | symlink absolute target => exact follows _ _ _ reached

/-- A walk that succeeds also succeeds in a tree with more entries. -/
theorem walk_mono (kept : forall path node, tree path = some node → tree' path = some node)
    {links : Nat} {rest : List Component} {dir path : Path}
    (reached : tree.walk links dir rest = some path) : tree'.walk links dir rest = some path := by
  induction links generalizing dir rest path with
  | zero =>
      exact walkWith_mono kept (fun _ _ _ impossible => by cases impossible) reached
  | succ links ih => exact walkWith_mono kept (fun _ _ _ later => ih later) reached

theorem Follows.mono (kept : forall path node, tree path = some node → tree' path = some node)
    {links : Nat} {path : Path} (follows : tree.Follows links path) : tree'.Follows links path := by
  rcases Option.isSome_iff_exists.mp follows with ⟨reached, walked⟩
  exact Option.isSome_iff_exists.mpr ⟨reached, walk_mono kept walked⟩

/-- In a directory, an entry is followed by its name alone. -/
theorem Tidy.follows_iff (tidy : tree.Tidy) {dir : Path} (directory : tree dir = some .directory)
    (links : Nat) (name : Name) :
    tree.Follows links (dir ++ [name]) ↔ (tree.walk links dir [.name name]).isSome = true := by
  have directories : forall before after, dir = before ++ after → before ≠ [] →
      tree ([] ++ before) = some .directory := by
    intro before after split _
    rw [List.nil_append]
    cases after with
    | nil =>
        rw [List.append_nil] at split
        rw [← split, directory]
    | cons next after =>
        apply tidy.directory (List.cons_ne_nil next after)
        rw [← split, directory]
        exact Option.some_ne_none _
  rw [Follows, List.map_append, List.map_singleton, walk_directories directories, List.nil_append]

end Walks

/-! ## Path names -/

def componentOf (part : List Char) : Component :=
  if part = [] ∨ part = ['.'] then .here
  else if part = ['.', '.'] then .up
  else .name part

/-- The components of a relative path name. -/
def components (text : List Char) : List Component :=
  (text.splitOn '/').map componentOf

/-- The name is one that an entry can have. -/
structure ValidName (name : Name) : Prop where
  slash : '/' ∉ name
  nonempty : name ≠ []
  here : name ≠ ['.']
  up : name ≠ ['.', '.']

theorem componentOf_valid {name : Name} (valid : ValidName name) : componentOf name = .name name := by
  rw [componentOf, if_neg (not_or.mpr ⟨valid.nonempty, valid.here⟩), if_neg valid.up]

/-- The name that `find` prints for an entry below the directory it starts from. -/
def render (path : Path) : List Char :=
  ['/'].intercalate (['.'] :: path)

theorem components_render {path : Path} (valid : forall name, name ∈ path → ValidName name) :
    components (render path) = .here :: path.map .name := by
  have free : forall part, part ∈ ['.'] :: path → '/' ∉ part := by
    intro part member
    rcases List.mem_cons.mp member with same | member
    · rw [same]
      decide
    · exact (valid part member).slash
  rw [components, render, List.splitOn_intercalate '/' free (List.cons_ne_nil _ _), List.map_cons]
  refine congrArg₂ List.cons rfl ?_
  apply List.map_congr_left
  intro name member
  exact componentOf_valid (valid name member)

/-- `test -f`. -/
def isRegular (tree : FileTree) (links : Nat) (cwd : Path) (text : List Char) : Bool :=
  match tree.walk links cwd (components text) with
  | some path => tree path == some .file
  | none => false

/-- `test -e`. -/
def entryExists (tree : FileTree) (links : Nat) (cwd : Path) (text : List Char) : Bool :=
  (tree.walk links cwd (components text)).isSome

/-- `rm`, of an entry that is no directory. -/
def rm (tree : FileTree) (links : Nat) (cwd : Path) (text : List Char) : FileTree :=
  match tree.walk links cwd (components text).dropLast, (components text).getLast? with
  | some dir, some (.name name) => Function.update tree (dir ++ [name]) none
  | _, _ => tree

theorem rm_missing {tree : FileTree} {path : Path} (missing : tree path = none) (links : Nat)
    (cwd : Path) (text : List Char) : tree.rm links cwd text path = none := by
  have cleared : forall other, Function.update tree other none path = none := by
    intro other
    rw [Function.update_apply, missing, ite_self]
  unfold rm
  rcases tree.walk links cwd (components text).dropLast with _ | dir
  · exact missing
  · rcases (components text).getLast? with _ | _ | _ | name
    · exact missing
    · exact missing
    · exact missing
    · exact cleared _

end FileTree
end KernelHacking
