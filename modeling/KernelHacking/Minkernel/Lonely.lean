import KernelHacking.Foundations.FileTree
import KernelHacking.Foundations.ShellWords

namespace KernelHacking
namespace Minkernel

/-!
# Source files without an object file

`kernel-prune` and `kernel-prune-git` take away the `.c` files that a build has
made no `.o` file from.  `getlonely` prints them and `rmlonely` removes them, one
after another, each tested when its turn comes.  Both loops run over what `find`
printed at the beginning.

The test asks whether the object file exists, and for a symbolic link that means
what it leads to.  A removal can make such a link lead nowhere.
-/

open FileTree

/-- `"$f" == *.c`. -/
def endsInC (f : List Char) : Bool := ['.', 'c'].isSuffixOf f

/-- `"${f%.c}.o"`. -/
def objectOf (f : List Char) : List Char :=
  (if endsInC f then f.take (f.length - 2) else f) ++ ['.', 'o']

section Functions

variable (links : Nat) (cwd : Path)

/-- `islonely`. -/
def islonely (tree : FileTree) (f : List Char) : Bool :=
  !f.isEmpty && (endsInC f && tree.isRegular links cwd f && !tree.entryExists links cwd (objectOf f))

/-- What `find -type f` prints when it comes to the files in this order. -/
def findTypeF (order : List Path) : List Char :=
  printLines (order.map render)

/-- The lines that `getlonely` prints. -/
def getlonely (expand : List Char → List (List Char)) (tree : FileTree) (order : List Path) :
    List (List Char) :=
  (loopWords expand (findTypeF order)).filter (islonely links cwd tree)

/-- One round of `rmlonely`. -/
def rmlonelyRound (tree : FileTree) (f : List Char) : FileTree :=
  if islonely links cwd tree f then tree.rm links cwd f else tree

/-- `rmlonely`. -/
def rmlonely (expand : List Char → List (List Char)) (tree : FileTree) (order : List Path) :
    FileTree :=
  (loopWords expand (findTypeF order)).foldl (rmlonelyRound links cwd) tree

end Functions

/-! ## The set of lonely files -/

/-- The path next to a `.c` file with the suffix `.o` instead. -/
def siblingObject (path : Path) : Option Path :=
  match path.getLast? with
  | some name => if endsInC name then some (path.dropLast ++ [objectOf name]) else none
  | none => none

/-- A regular file that ends in `.c` and has no entry of that name next to it. -/
def Lonely (tree : FileTree) (path : Path) : Prop :=
  tree path = some .file ∧ ∃ object, siblingObject path = some object ∧ tree object = none

instance decidableLonely (tree : FileTree) (path : Path) : Decidable (Lonely tree path) :=
  match sibling : siblingObject path with
  | none => isFalse (by
      rintro ⟨_, object, same, _⟩
      rw [sibling] at same
      cases same)
  | some object =>
      decidable_of_iff (tree path = some .file ∧ tree object = none) (by
        rw [Lonely, sibling]
        simp)

/-- The tree without the lonely files below the current directory. -/
def withoutLonely (cwd : Path) (tree : FileTree) : FileTree := fun path =>
  if cwd <+: path ∧ Lonely tree path then none else tree path

/-- The paths, from the current directory, of all regular files below it. -/
structure Lists (tree : FileTree) (cwd : Path) (order : List Path) : Prop where
  distinct : order.Nodup
  complete : forall path, path ∈ order ↔ tree (cwd ++ path) = some .file

/-- A tree whose paths have no whitespace or wildcards in them. -/
structure SourceTree where
  tree : FileTree
  links : Nat
  cwd : Path
  files : List Path
  tidy : tree.Tidy
  directory : tree cwd = some .directory
  listed : Lists tree cwd files
  valid : forall path, path ∈ files → forall name, name ∈ path → ValidName name
  plain : forall path, path ∈ files → PlainWord (render path)

/-- The law for one order of the listing: the dry run prints the lonely files, the
real run removes them and nothing else, and another one removes nothing. -/
structure MatchesDryRun (t : SourceTree) (expand : List Char → List (List Char))
    (order : List Path) : Prop where
  prints : forall line, line ∈ getlonely t.links t.cwd expand t.tree order ↔
    ∃ path, Lonely t.tree (t.cwd ++ path) ∧ line = render path
  removes : rmlonely t.links t.cwd expand t.tree order = withoutLonely t.cwd t.tree
  again : forall order', Lists (withoutLonely t.cwd t.tree) t.cwd order' →
    rmlonely t.links t.cwd expand (withoutLonely t.cwd t.tree) order' =
      withoutLonely t.cwd t.tree

/-- What stands next to a `.c` file as its object file leads to something, and still
does when the lonely files are gone. -/
def ObjectsLast (t : SourceTree) : Prop :=
  forall path object, path ∈ t.files → siblingObject (t.cwd ++ path) = some object →
    t.tree object ≠ none → (withoutLonely t.cwd t.tree).Follows t.links object

/-! ## Names and their suffixes -/

theorem render_concat (dir : Path) (name : Name) :
    render (dir ++ [name]) = render dir ++ '/' :: name := by
  have joined : forall (first : Name) (dir : Path),
      ['/'].intercalate (first :: (dir ++ [name])) =
        ['/'].intercalate (first :: dir) ++ '/' :: name := by
    intro first dir
    induction dir generalizing first with
    | nil =>
        rw [List.nil_append, List.intercalate_cons_cons, List.intercalate_singleton,
          List.intercalate_singleton]
        simp
    | cons next dir ih =>
        rw [List.cons_append, List.intercalate_cons_cons, ih, List.intercalate_cons_cons]
        simp
  exact joined ['.'] dir

theorem endsInC_iff (f : List Char) : endsInC f = true ↔ ∃ stem, f = stem ++ ['.', 'c'] := by
  rw [endsInC, List.isSuffixOf_iff_suffix]
  exact exists_congr fun stem => eq_comm

/-- The suffix of a path name is that of its last component. -/
theorem endsInC_slash (front name : List Char) : endsInC (front ++ '/' :: name) = endsInC name := by
  have reversed : (front ++ '/' :: name).reverse = name.reverse ++ '/' :: front.reverse := by
    rw [List.reverse_append, List.reverse_cons, List.append_assoc]
    rfl
  rw [endsInC, endsInC, List.isSuffixOf, List.isSuffixOf, reversed]
  rcases name.reverse with _ | ⟨last, _ | ⟨other, rest⟩⟩
  · rfl
  · simp [List.isPrefixOf]
  · rfl

theorem objectOf_append (stem : List Char) : objectOf (stem ++ ['.', 'c']) = stem ++ ['.', 'o'] := by
  have ends : endsInC (stem ++ ['.', 'c']) = true := (endsInC_iff _).mpr ⟨stem, rfl⟩
  rw [objectOf, if_pos ends, List.length_append]
  exact congrArg (· ++ ['.', 'o']) List.take_left

theorem objectOf_render {dir : Path} {name : Name} (ends : endsInC name = true) :
    objectOf (render (dir ++ [name])) = render (dir ++ [objectOf name]) := by
  rcases (endsInC_iff name).mp ends with ⟨stem, rfl⟩
  rw [objectOf_append, render_concat, render_concat]
  have grouped := objectOf_append (render dir ++ '/' :: stem)
  rw [List.append_assoc, List.append_assoc] at grouped
  exact grouped

theorem validName_objectOf {name : Name} (valid : ValidName name) (ends : endsInC name = true) :
    ValidName (objectOf name) := by
  rcases (endsInC_iff name).mp ends with ⟨stem, rfl⟩
  rw [objectOf_append]
  have clear : '/' ∉ stem := fun member => valid.slash (List.mem_append_left _ member)
  constructor
  · rw [List.mem_append, not_or]
    exact ⟨clear, by decide⟩
  · exact List.append_ne_nil_of_right_ne_nil _ (List.cons_ne_nil _ _)
  · intro same
    have lengths := congrArg List.length same
    rw [List.length_append] at lengths
    exact absurd lengths (Nat.ne_of_gt (Nat.lt_of_lt_of_le (by decide) (Nat.le_add_left 2 _)))
  · intro same
    have last := congrArg List.getLast? same
    rw [List.getLast?_append_of_ne_nil _ (List.cons_ne_nil _ _)] at last
    cases last

theorem siblingObject_concat (dir : Path) (name : Name) :
    siblingObject (dir ++ [name]) =
      if endsInC name then some (dir ++ [objectOf name]) else none := by
  rw [siblingObject, List.getLast?_concat, List.dropLast_concat]

theorem lonely_concat_iff (tree : FileTree) (dir : Path) (name : Name) :
    Lonely tree (dir ++ [name]) ↔
      tree (dir ++ [name]) = some .file ∧ endsInC name = true ∧
        tree (dir ++ [objectOf name]) = none := by
  rw [Lonely, siblingObject_concat]
  apply and_congr_right
  intro _
  split
  · next ends => simp [ends]
  · next other => simp [other]

/-! ## One test and one removal -/

namespace SourceTree

variable (t : SourceTree)

theorem path_split {path : Path} (member : path ∈ t.files) : ∃ dir name, path = dir ++ [name] := by
  rcases List.eq_nil_or_concat path with empty | ⟨dir, name, same⟩
  · have file := (t.listed.complete path).mp member
    rw [empty, List.append_nil, t.directory] at file
    cases file
  · exact ⟨dir, name, same.trans (List.concat_eq_append ..)⟩

variable {t} {dir : Path} {name : Name}

theorem entry_of_file {tree : FileTree} {path : Path} (file : tree path = some .file) :
    tree path ≠ none := by
  rw [file]
  exact Option.some_ne_none _

/-- On the way to an entry there are directories only. -/
theorem directories_above {tree : FileTree} (tidy : tree.Tidy)
    (entry : tree (t.cwd ++ (dir ++ [name])) ≠ none) :
    forall before after, dir = before ++ after → before ≠ [] →
      tree (t.cwd ++ before) = some .directory := by
  intro before after split _
  have below : after ++ [name] ≠ [] := List.append_ne_nil_of_right_ne_nil _ (List.cons_ne_nil _ _)
  apply tidy.directory below
  rw [List.append_assoc, ← List.append_assoc before, ← split]
  exact entry

/-- A walk to a name that stands next to a file of the tree. -/
theorem walk_render {tree : FileTree} (tidy : tree.Tidy)
    (file : tree (t.cwd ++ (dir ++ [name])) ≠ none)
    (valid : forall part, part ∈ dir → ValidName part) {other : Name} (validOther : ValidName other) :
    tree.walk t.links t.cwd (components (render (dir ++ [other]))) =
      tree.walk t.links (t.cwd ++ dir) [.name other] := by
  have every : forall part, part ∈ dir ++ [other] → ValidName part := by
    intro part member
    rcases List.mem_append.mp member with inDir | last
    · exact valid part inDir
    · rwa [List.mem_singleton.mp last]
  rw [components_render every, walk_here, List.map_append, List.map_singleton]
  exact walk_directories (directories_above tidy file) t.links [.name other]

/-- The test of a file that is still there. -/
theorem islonely_iff {tree : FileTree} (tidy : tree.Tidy)
    (file : tree (t.cwd ++ (dir ++ [name])) = some .file)
    (valid : forall part, part ∈ dir ++ [name] → ValidName part) :
    islonely t.links t.cwd tree (render (dir ++ [name])) = true ↔
      endsInC name = true ∧ ¬ tree.Follows t.links (t.cwd ++ (dir ++ [objectOf name])) := by
  have entry := entry_of_file file
  have validDir := fun part member => valid part (List.mem_append_left [name] member)
  have validName := valid name (List.mem_append_right dir List.mem_cons_self)
  have shown : (render (dir ++ [name])).isEmpty = false := by
    rw [render_concat, List.isEmpty_eq_false_iff]
    exact List.append_ne_nil_of_right_ne_nil _ (List.cons_ne_nil _ _)
  have ends : endsInC (render (dir ++ [name])) = endsInC name := by
    rw [render_concat, endsInC_slash]
  have regular : tree.isRegular t.links t.cwd (render (dir ++ [name])) = true := by
    have inside := file
    rw [← List.append_assoc] at inside
    rw [isRegular, walk_render tidy entry validDir validName, walk_file inside]
    simp only [inside, beq_self_eq_true]
  rw [islonely, shown, ends, regular, Bool.not_false, Bool.true_and, Bool.and_true,
    Bool.and_eq_true_iff]
  apply and_congr_right
  intro isC
  have inner : tree (t.cwd ++ dir) = some .directory := by
    rw [← List.append_assoc] at entry
    exact tidy _ _ entry
  rw [objectOf_render isC, entryExists,
    walk_render tidy entry validDir (validName_objectOf validName isC), ← List.append_assoc,
    tidy.follows_iff inner, Bool.not_eq_true']
  exact (Bool.not_eq_true _).symm.to_iff

theorem rm_render {tree : FileTree} (tidy : tree.Tidy)
    (file : tree (t.cwd ++ (dir ++ [name])) = some .file)
    (valid : forall part, part ∈ dir ++ [name] → ValidName part) :
    tree.rm t.links t.cwd (render (dir ++ [name])) =
      Function.update tree (t.cwd ++ (dir ++ [name])) none := by
  have walked : tree.walk t.links t.cwd (.here :: dir.map .name) = some (t.cwd ++ dir) := by
    rw [walk_here, ← List.append_nil (dir.map Component.name),
      walk_directories (directories_above tidy (entry_of_file file)), walk_nil]
  have shape : components (render (dir ++ [name])) = (.here :: dir.map .name) ++ [.name name] := by
    rw [components_render valid, List.map_append]
    rfl
  rw [rm, shape, List.dropLast_concat, List.getLast?_concat, walked]
  simp only [List.append_assoc]

/-! ## Whole loops -/

variable (t)

theorem loopWords_find (expand : List Char → List (List Char)) {order : List Path}
    (known : forall path, path ∈ order → path ∈ t.files) :
    loopWords expand (findTypeF order) = order.map render := by
  apply loopWords_printLines
  intro line member
  rcases List.mem_map.mp member with ⟨path, inOrder, rfl⟩
  exact t.plain path (known path inOrder)

/-- The tree after the lonely ones among these files have been removed. -/
def pruned (done : List Path) : FileTree := fun path =>
  if path ∈ done.map (t.cwd ++ ·) ∧ Lonely t.tree path then none else t.tree path

theorem prunes_pruned (done : List Path) : t.tree.Prunes (t.pruned done) := by
  intro path
  by_cases removed : path ∈ done.map (t.cwd ++ ·) ∧ Lonely t.tree path
  · exact Or.inr ⟨if_pos removed, removed.2.1⟩
  · exact Or.inl (if_neg removed)

theorem prunes_withoutLonely : t.tree.Prunes (withoutLonely t.cwd t.tree) := by
  intro path
  by_cases removed : t.cwd <+: path ∧ Lonely t.tree path
  · exact Or.inr ⟨if_pos removed, removed.2.1⟩
  · exact Or.inl (if_neg removed)

/-- In the middle of the loop there is all that is there at the end. -/
theorem kept_pruned (done : List Path) (path : Path) (node : Node)
    (last : withoutLonely t.cwd t.tree path = some node) : t.pruned done path = some node := by
  by_cases lonely : t.cwd <+: path ∧ Lonely t.tree path
  · rw [withoutLonely, if_pos lonely] at last
    cases last
  · rw [withoutLonely, if_neg lonely] at last
    rw [pruned, if_neg, last]
    rintro ⟨member, alone⟩
    rcases List.mem_map.mp member with ⟨rest, _, rfl⟩
    exact lonely ⟨List.prefix_append _ _, alone⟩

theorem pruned_nil : t.pruned [] = t.tree := by
  funext path
  apply if_neg
  rintro ⟨impossible, _⟩
  cases impossible

theorem pruned_file {done : List Path} {path : Path} (member : path ∈ t.files)
    (waiting : path ∉ done) : t.pruned done (t.cwd ++ path) = some .file := by
  rw [pruned, if_neg]
  · exact (t.listed.complete path).mp member
  · rintro ⟨gone, _⟩
    rcases List.mem_map.mp gone with ⟨other, earlier, same⟩
    exact waiting (List.append_cancel_left same ▸ earlier)

/-- Where object files last, a test has the same outcome at any time. -/
theorem islonely_iff_lonely (objects : ObjectsLast t) {tree : FileTree} (prunes : t.tree.Prunes tree)
    (kept : forall path node, withoutLonely t.cwd t.tree path = some node → tree path = some node)
    {path : Path} (member : path ∈ t.files) (file : tree (t.cwd ++ path) = some .file) :
    islonely t.links t.cwd tree (render path) = true ↔ Lonely t.tree (t.cwd ++ path) := by
  have original := (t.listed.complete path).mp member
  have valid := t.valid path member
  have tidy := t.tidy.prune prunes
  rcases t.path_split member with ⟨dir, name, rfl⟩
  have described := lonely_concat_iff t.tree (t.cwd ++ dir) name
  rw [List.append_assoc, List.append_assoc] at described
  rw [islonely_iff tidy file valid, described, and_iff_right original]
  apply and_congr_right
  intro ends
  have sibling : siblingObject (t.cwd ++ (dir ++ [name])) = some (t.cwd ++ (dir ++ [objectOf name])) := by
    rw [← List.append_assoc, siblingObject_concat, if_pos ends, List.append_assoc]
  constructor
  · intro nowhere
    by_contra entry
    exact nowhere ((objects _ _ member sibling entry).mono kept)
  · intro missing follows
    have gone : tree (t.cwd ++ dir ++ [objectOf name]) = none := by
      rw [List.append_assoc]
      rcases prunes (t.cwd ++ (dir ++ [objectOf name])) with same | ⟨gone, _⟩
      · rw [same, missing]
      · exact gone
    have inner : tree (t.cwd ++ dir) = some .directory := by
      apply tidy.directory (List.cons_ne_nil name [])
      rw [List.append_assoc]
      exact entry_of_file file
    rw [← List.append_assoc, tidy.follows_iff inner, walk_missing gone] at follows
    cases follows

theorem round_pruned (objects : ObjectsLast t) {done : List Path} {path : Path}
    (member : path ∈ t.files) (waiting : path ∉ done) :
    rmlonelyRound t.links t.cwd (t.pruned done) (render path) = t.pruned (done ++ [path]) := by
  have file := t.pruned_file member waiting
  have test := t.islonely_iff_lonely objects (t.prunes_pruned done) (t.kept_pruned done) member file
  have added : forall other, other ∈ (done ++ [path]).map (t.cwd ++ ·) ↔
      other ∈ done.map (t.cwd ++ ·) ∨ other = t.cwd ++ path := by
    intro other
    rw [List.map_append, List.mem_append, List.map_singleton, List.mem_singleton]
  by_cases lonely : Lonely t.tree (t.cwd ++ path)
  · have removed : (t.pruned done).rm t.links t.cwd (render path) =
        Function.update (t.pruned done) (t.cwd ++ path) none := by
      have valid := t.valid path member
      rcases t.path_split member with ⟨dir, name, rfl⟩
      exact rm_render (t.tidy.prune (t.prunes_pruned done)) file valid
    rw [rmlonelyRound, if_pos (test.mpr lonely), removed]
    funext other
    by_cases same : other = t.cwd ++ path
    · rw [same, Function.update_self, pruned, if_pos ⟨(added _).mpr (Or.inr rfl), lonely⟩]
    · rw [Function.update_of_ne same, pruned, pruned]
      simp only [added, same, or_false]
  · rw [rmlonelyRound, if_neg fun passed => lonely (test.mp passed)]
    funext other
    by_cases same : other = t.cwd ++ path
    · rw [same, pruned, pruned, if_neg fun both => lonely both.2, if_neg fun both => lonely both.2]
    · rw [pruned, pruned]
      simp only [added, same, or_false]

theorem rounds_pruned (objects : ObjectsLast t) {order done : List Path}
    (known : forall path, path ∈ order → path ∈ t.files) (distinct : (done ++ order).Nodup) :
    (order.map render).foldl (rmlonelyRound t.links t.cwd) (t.pruned done) =
      t.pruned (done ++ order) := by
  induction order generalizing done with
  | nil => rw [List.append_nil]; rfl
  | cons path order ih =>
      have waiting : path ∉ done := by
        intro earlier
        exact (List.nodup_append.mp distinct).2.2 path earlier path List.mem_cons_self rfl
      rw [List.map_cons, List.foldl_cons, t.round_pruned objects (known path List.mem_cons_self) waiting,
        ih (fun other member => known other (List.mem_cons_of_mem _ member))]
      · rw [List.append_assoc]
        rfl
      · rw [List.append_assoc]
        exact distinct

theorem pruned_all {order : List Path} (lists : Lists t.tree t.cwd order) :
    t.pruned order = withoutLonely t.cwd t.tree := by
  funext path
  have reached : path ∈ order.map (t.cwd ++ ·) ∧ Lonely t.tree path ↔
      t.cwd <+: path ∧ Lonely t.tree path := by
    apply and_congr_left
    intro lonely
    constructor
    · intro member
      rcases List.mem_map.mp member with ⟨rest, _, rfl⟩
      exact List.prefix_append _ _
    · rintro ⟨rest, rfl⟩
      exact List.mem_map.mpr ⟨rest, (lists.complete rest).mpr lonely.1, rfl⟩
  rw [pruned, withoutLonely]
  simp only [reached]

theorem files_of_lists {order : List Path} (lists : Lists t.tree t.cwd order) {path : Path} :
    path ∈ order ↔ path ∈ t.files :=
  (lists.complete path).trans (t.listed.complete path).symm

theorem files_of_listsAgain {order : List Path}
    (lists : Lists (withoutLonely t.cwd t.tree) t.cwd order) {path : Path} (member : path ∈ order) :
    path ∈ t.files ∧ ¬ Lonely t.tree (t.cwd ++ path) := by
  have file := (lists.complete path).mp member
  by_cases lonely : Lonely t.tree (t.cwd ++ path)
  · rw [withoutLonely, if_pos ⟨List.prefix_append _ _, lonely⟩] at file
    cases file
  · rw [withoutLonely, if_neg fun both => lonely both.2] at file
    exact ⟨(t.listed.complete path).mpr file, lonely⟩

/-- Another run finds nothing to remove. -/
theorem rounds_again (objects : ObjectsLast t) {order : List Path}
    (lists : Lists (withoutLonely t.cwd t.tree) t.cwd order) :
    (order.map render).foldl (rmlonelyRound t.links t.cwd) (withoutLonely t.cwd t.tree) =
      withoutLonely t.cwd t.tree := by
  have still : forall path, path ∈ order →
      rmlonelyRound t.links t.cwd (withoutLonely t.cwd t.tree) (render path) =
        withoutLonely t.cwd t.tree := by
    intro path member
    rcases t.files_of_listsAgain lists member with ⟨known, attended⟩
    have test := t.islonely_iff_lonely objects t.prunes_withoutLonely (fun _ _ last => last) known
      ((lists.complete path).mp member)
    rw [rmlonelyRound, if_neg fun passed => attended (test.mp passed)]
  clear lists
  induction order with
  | nil => rfl
  | cons path order ih =>
      rw [List.map_cons, List.foldl_cons, still path List.mem_cons_self]
      exact ih fun other member => still other (List.mem_cons_of_mem _ member)

theorem matches_of_objectsLast (objects : ObjectsLast t) (expand : List Char → List (List Char))
    {order : List Path} (lists : Lists t.tree t.cwd order) : MatchesDryRun t expand order where
  prints := by
    intro line
    have known := fun path (member : path ∈ order) => (t.files_of_lists lists).mp member
    have original : forall path node, withoutLonely t.cwd t.tree path = some node →
        t.tree path = some node := by
      have kept := t.kept_pruned []
      rwa [pruned_nil] at kept
    rw [getlonely, t.loopWords_find expand known, List.mem_filter, List.mem_map]
    constructor
    · rintro ⟨⟨path, member, rfl⟩, passed⟩
      have test := t.islonely_iff_lonely objects (fun _ => Or.inl rfl) original (known path member)
        ((lists.complete path).mp member)
      exact ⟨path, test.mp passed, rfl⟩
    · rintro ⟨path, lonely, rfl⟩
      have member := (lists.complete path).mpr lonely.1
      have test := t.islonely_iff_lonely objects (fun _ => Or.inl rfl) original (known path member)
        lonely.1
      exact ⟨⟨path, member, rfl⟩, test.mpr lonely⟩
  removes := by
    have known := fun path (member : path ∈ order) => (t.files_of_lists lists).mp member
    have rounds : _ = t.pruned ([] ++ order) := t.rounds_pruned objects known lists.distinct
    rw [pruned_nil, List.nil_append, t.pruned_all lists] at rounds
    rw [rmlonely, t.loopWords_find expand known, rounds]
  again := by
    intro order' again
    have known := fun path (member : path ∈ order') => (t.files_of_listsAgain again member).1
    rw [rmlonely, t.loopWords_find expand known, t.rounds_again objects again]

/-- Nothing comes back in a round. -/
theorem rounds_only_remove {links : Nat} {cwd : Path} {words : List (List Char)} {tree : FileTree}
    {path : Path} (gone : tree path = none) :
    words.foldl (rmlonelyRound links cwd) tree path = none := by
  induction words generalizing tree with
  | nil => exact gone
  | cons f words ih =>
      apply ih
      unfold rmlonelyRound
      split
      · exact rm_missing gone links cwd f
      · exact gone

/-- The files that are left, in an order that begins with this one. -/
theorem lists_from {path : Path} (member : path ∈ t.files)
    (attended : ¬ Lonely t.tree (t.cwd ++ path)) :
    ∃ order, Lists (withoutLonely t.cwd t.tree) t.cwd (path :: order) := by
  let left := t.files.filter fun other => ¬ Lonely t.tree (t.cwd ++ other)
  have complete : forall other, other ∈ left ↔
      withoutLonely t.cwd t.tree (t.cwd ++ other) = some .file := by
    intro other
    rw [List.mem_filter, t.listed.complete, withoutLonely]
    by_cases lonely : Lonely t.tree (t.cwd ++ other)
    · rw [if_pos ⟨List.prefix_append _ _, lonely⟩]
      simp [lonely]
    · rw [if_neg fun both => lonely both.2]
      simp [lonely]
  have inLeft : path ∈ left := List.mem_filter.mpr ⟨member, decide_eq_true attended⟩
  have turned := List.perm_cons_erase inLeft
  refine ⟨left.erase path, turned.nodup_iff.mp (t.listed.distinct.filter _), ?_⟩
  intro other
  rw [← turned.mem_iff, complete]

theorem objectsLast_of_matches (expand : List Char → List (List Char))
    (law : forall order, Lists t.tree t.cwd order → MatchesDryRun t expand order) :
    ObjectsLast t := by
  intro path object member sibling entry
  by_contra nowhere
  have attended : ¬ Lonely t.tree (t.cwd ++ path) := by
    rintro ⟨_, other, same, missing⟩
    rw [Option.some.inj (same.symm.trans sibling)] at missing
    exact entry missing
  rcases t.lists_from member attended with ⟨order, lists⟩
  have file := (lists.complete path).mp List.mem_cons_self
  have known := fun other (inOrder : other ∈ path :: order) => (t.files_of_listsAgain lists inOrder).1
  have unchanged := (law t.files t.listed).again _ lists
  rw [rmlonely, t.loopWords_find expand known, List.map_cons, List.foldl_cons] at unchanged
  have tidy := t.tidy.prune t.prunes_withoutLonely
  have valid := t.valid path member
  have gone : rmlonelyRound t.links t.cwd (withoutLonely t.cwd t.tree) (render path)
      (t.cwd ++ path) = none := by
    rcases t.path_split member with ⟨dir, name, rfl⟩
    rw [← List.append_assoc, siblingObject_concat] at sibling
    by_cases ends : endsInC name = true
    · rw [if_pos ends, List.append_assoc] at sibling
      rw [← Option.some.inj sibling] at nowhere
      have passed := (islonely_iff tidy file valid).mpr ⟨ends, nowhere⟩
      rw [rmlonelyRound, if_pos passed, rm_render tidy file valid, Function.update_self]
    · rw [if_neg ends] at sibling
      cases sibling
  have final := congrFun unchanged (t.cwd ++ path)
  rw [rounds_only_remove gone, file] at final
  cases final

end SourceTree

/-- For every order of the listing, the dry run prints the lonely files, the real run
removes exactly these and another one nothing, exactly when every object file next to a
`.c` file leads to something and still does without the lonely files. -/
theorem matchesDryRun_iff (t : SourceTree) (expand : List Char → List (List Char)) :
    (forall order, Lists t.tree t.cwd order → MatchesDryRun t expand order) ↔ ObjectsLast t :=
  ⟨t.objectsLast_of_matches expand, fun objects _ lists =>
    t.matches_of_objectsLast objects expand lists⟩

/-- Two source files `a.c` and `b.c`, and `a.o`, which is a link to `b.c`. -/
def linkedTree : FileTree := fun path =>
  if path = [] then some .directory
  else if path = [['a', '.', 'c']] ∨ path = [['b', '.', 'c']] then some .file
  else if path = [['a', '.', 'o']] then some (.symlink false [.name ['b', '.', 'c']])
  else none

theorem linkedTree_file_iff (path : Path) :
    linkedTree path = some .file ↔ path = [['a', '.', 'c']] ∨ path = [['b', '.', 'c']] := by
  unfold linkedTree
  split
  · next root => simp [root]
  · split
    · next file => simp [file]
    · next other =>
        split
        · simp [other]
        · simp [other]

def linkedSources : SourceTree where
  tree := linkedTree
  links := 40
  cwd := []
  files := [[['a', '.', 'c']], [['b', '.', 'c']]]
  tidy := by
    intro path name entry
    have single : path = [] := by
      by_contra nonempty
      have long : forall part, path ++ [name] ≠ [part] := by
        intro part same
        have lengths := congrArg List.length same
        have positive := List.length_pos_iff.mpr nonempty
        rw [List.length_append, List.length_singleton, List.length_singleton] at lengths
        omega
      apply entry
      simp only [linkedTree, long, List.append_ne_nil_of_right_ne_nil _ (List.cons_ne_nil name []),
        or_self, if_false]
    rw [single]
    rfl
  directory := rfl
  listed := {
    distinct := by decide
    complete := by
      intro path
      rw [List.nil_append, linkedTree_file_iff]
      simp }
  valid := by
    intro path member name inPath
    have names : name = ['a', '.', 'c'] ∨ name = ['b', '.', 'c'] := by
      rcases List.mem_cons.mp member with rfl | later
      · exact Or.inl (List.mem_singleton.mp inPath)
      · rw [List.mem_singleton.mp later] at inPath
        exact Or.inr (List.mem_singleton.mp inPath)
    rcases names with rfl | rfl
    · constructor <;> decide
    · constructor <;> decide
  plain := by
    intro path member
    rcases List.mem_cons.mp member with rfl | later
    · exact plainWord_of_all (List.cons_ne_nil _ _) (by decide) (by decide)
    · rw [List.mem_singleton.mp later]
      exact plainWord_of_all (List.cons_ne_nil _ _) (by decide) (by decide)

/-- When `b.c` comes first, `a.c` is removed as well, which the dry run does not print. -/
theorem linkedSources_not_matching :
    ¬ forall order, Lists linkedSources.tree linkedSources.cwd order →
      MatchesDryRun linkedSources (fun _ => []) order := by
  intro law
  have lists : Lists linkedSources.tree linkedSources.cwd [[['b', '.', 'c']], [['a', '.', 'c']]] := by
    refine ⟨by decide, fun path => ?_⟩
    rw [← linkedSources.listed.complete path]
    exact (List.Perm.swap _ _ _).mem_iff
  have removed := congrFun (law _ lists).removes [['a', '.', 'c']]
  revert removed
  decide +kernel

end Minkernel
end KernelHacking
