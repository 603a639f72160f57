import PromptLoom.Proofs.Paths

/-!
# Trees that stand elsewhere

A tree of files may stand below any location of another one. Following a path is assumed to be what
the operating system does to find a canonical location: step by step, where each step starts from a
directory that exists. So a path that never climbs above the root of the tree leads to the same place
of the tree wherever that stands, and references between its documents do too.
-/

namespace PromptLoom

set_option autoImplicit false

/-! ### Trees as they stand -/

/-- A name that an operating system accepts for a file. -/
structure Path.IsFileName (name : String) : Prop where
  plain : Path.IsName name
  notAbove : name ≠ ".."
  noZero : '\x00' ∉ name.toList
  fits : name.utf8ByteSize ≤ Tree.greatestNameSize

instance (name : String) : Decidable (Path.IsFileName name) :=
  decidable_of_iff (Path.IsName name ∧ name ≠ ".." ∧ '\x00' ∉ name.toList ∧
      name.utf8ByteSize ≤ Tree.greatestNameSize)
    ⟨fun ⟨plain, notAbove, noZero, fits⟩ => ⟨plain, notAbove, noZero, fits⟩,
      fun named => ⟨named.plain, named.notAbove, named.noZero, named.fits⟩⟩

namespace Tree

/-- Every file stands in a directory, under a name that files can have. -/
structure IsProper (tree : Tree) : Prop where
  named : ∀ location ∈ tree.locations, ∀ name ∈ location, Path.IsFileName name
  inside : ∀ location ∈ tree.locations, tree.isDirectory location.dropLast = true

instance (tree : Tree) : Decidable tree.IsProper :=
  decidable_of_iff ((∀ location ∈ tree.locations, ∀ name ∈ location, Path.IsFileName name) ∧
      ∀ location ∈ tree.locations, tree.isDirectory location.dropLast = true)
    ⟨fun ⟨named, inside⟩ => ⟨named, inside⟩, fun proper => ⟨proper.named, proper.inside⟩⟩

/-- A tree stands in another one below a root: what is there is what the tree has, and the way to the
root leads through directories. -/
structure StandsIn (tree host : Tree) (root : Location) : Prop where
  named : ∀ name ∈ root, Path.IsFileName name
  above : ∀ place, place <+: root → host.isDirectory place = true
  below : ∀ location, host.lookup (root ++ location) = tree.lookup location

/-- Nothing but a tree and the directories on the way to it. -/
def under (root : Location) (tree : Tree) : Tree :=
  ⟨root.inits.map (·, .directory) ++ tree.entries.map fun (place, entry) => (root ++ place, entry)⟩

/-- Whether steps never climb above the place from which the depth is counted. -/
def neverClimbs : Nat → List String → Bool
  | _, [] => true
  | depth, step :: rest =>
      if step = "" ∨ step = "." then neverClimbs depth rest
      else if step = ".." then 0 < depth && neverClimbs (depth - 1) rest
      else neverClimbs (depth + 1) rest

variable {tree host : Tree} {root location : Location}

theorem is_directory_iff : tree.isDirectory location = true ↔
    tree.lookup location = some .directory := by
  unfold isDirectory
  split
  · next found => simp [found]
  · next other => simpa using other

theorem has_of_directory (standing : tree.isDirectory location = true) :
    tree.has location = true := by
  rw [has, is_directory_iff.mp standing]
  rfl

theorem has_of_file (standing : tree.isFile location = true) : tree.has location = true := by
  unfold isFile at standing
  split at standing
  · next content found => rw [has, found]; rfl
  · cases standing

theorem lookup_filled (filled : location ≠ []) :
    tree.lookup location = tree.entries.lookup location := by
  cases location with
  | nil => exact absurd rfl filled
  | cons name rest => rfl

theorem lookup_directories (places : List Location) (place : Location) :
    (places.map (·, Entry.directory)).lookup place =
      if place ∈ places then some .directory else none := by
  induction places with
  | nil => rfl
  | cons first rest ih =>
      rw [List.map_cons, List.lookup_cons, ih]
      by_cases same : place = first
      · simp [same]
      · have apart : (place == first) = false := beq_false_of_ne same
        simp [apart, same]

theorem lookup_below (entries : List (Location × Entry)) (root location : Location) :
    (entries.map fun (place, entry) => (root ++ place, entry)).lookup (root ++ location) =
      entries.lookup location := by
  induction entries with
  | nil => rfl
  | cons first rest ih =>
      have same : (root ++ location == root ++ first.1) = (location == first.1) := by
        rw [Bool.eq_iff_iff, beq_iff_eq, beq_iff_eq, List.append_cancel_left_eq]
      rw [List.map_cons, List.lookup_cons, List.lookup_cons, same, ih]

theorem stands_under (tree : Tree) (named : ∀ name ∈ root, Path.IsFileName name) :
    tree.StandsIn (tree.under root) root where
  named := named
  above place way := by
    rw [is_directory_iff]
    cases place with
    | nil => rfl
    | cons name rest =>
        rw [lookup_filled (List.cons_ne_nil name rest), under, List.lookup_append,
          lookup_directories, if_pos ((List.mem_inits _ _).mpr way)]
        rfl
  below location := by
    by_cases top : location = []
    · subst top
      rw [List.append_nil]
      cases root with
      | nil => rfl
      | cons name rest =>
          rw [lookup_filled (List.cons_ne_nil name rest), under, List.lookup_append,
            lookup_directories, if_pos ((List.mem_inits _ _).mpr (List.prefix_refl _))]
          rfl
    · have beyond : ¬ root ++ location <+: root := fun way =>
        top (List.append_right_eq_self.mp (way.eq_of_length_le (by simp)))
      rw [lookup_filled (List.append_ne_nil_of_right_ne_nil root top), lookup_filled top, under,
        List.lookup_append, lookup_directories, if_neg (mt (List.mem_inits _ _).mp beyond),
        lookup_below]
      rfl

/-! ### Following steps -/

theorem walk_cons (tree : Tree) (location : Location) (step : String) (rest : List String) :
    tree.walk location (step :: rest) =
      if !tree.isDirectory location then .error .notDirectory
      else if step = "" ∨ step = "." then tree.walk location rest
      else if step = ".." then tree.walk location.dropLast rest
      else if greatestNameSize < step.utf8ByteSize then .error .nameTooLong
      else if tree.has (location ++ [step]) then tree.walk (location ++ [step]) rest
      else .error .notFound := rfl

theorem walk_down (names rest : List String) (named : ∀ name ∈ names, Path.IsFileName name)
    (directories : ∀ place, place <+: names → host.isDirectory (location ++ place) = true) :
    host.walk location (names ++ rest) = host.walk (location ++ names) rest := by
  induction names generalizing location with
  | nil => rw [List.nil_append, List.append_nil]
  | cons name names ih =>
      obtain ⟨first, others⟩ := List.forall_mem_cons.mp named
      have here : host.isDirectory location = true := by
        simpa using directories [] List.nil_prefix
      have next : host.has (location ++ [name]) = true :=
        has_of_directory (directories [name] (by simp))
      have stays : ¬ (name = "" ∨ name = ".") :=
        not_or.mpr ⟨first.plain.1, first.plain.2.1⟩
      rw [List.cons_append, walk_cons, here, if_neg (by simp), if_neg stays, if_neg first.notAbove,
        if_neg (Nat.not_lt_of_le first.fits), if_pos next, ih others]
      · rw [List.append_assoc, List.singleton_append]
      · intro place way
        rw [List.append_assoc, List.singleton_append]
        exact directories (name :: place) (List.cons_prefix_cons.mpr ⟨rfl, way⟩)

namespace StandsIn

variable (stands : tree.StandsIn host root)
include stands

theorem is_directory_below (location : Location) :
    host.isDirectory (root ++ location) = tree.isDirectory location := by
  rw [isDirectory, stands.below, isDirectory]

theorem has_below (location : Location) : host.has (root ++ location) = tree.has location := by
  rw [has, stands.below, has]

/-- One after another the steps lead to the same place of the tree. The depth of the place is what
a double dot may climb. -/
theorem walk_below (steps : List String) (bounded : neverClimbs location.length steps = true) :
    host.walk (root ++ location) steps = (tree.walk location steps).map (root ++ ·) := by
  induction steps generalizing location with
  | nil => rfl
  | cons step rest ih =>
      rw [neverClimbs] at bounded
      rw [walk_cons, walk_cons, stands.is_directory_below]
      by_cases directory : tree.isDirectory location = true
      · simp only [directory, Bool.not_true, Bool.false_eq_true, if_false]
        split
        · next stays =>
            rw [if_pos stays] at bounded
            exact ih bounded
        · next leaves =>
            rw [if_neg leaves] at bounded
            split
            · next climbs =>
                rw [if_pos climbs] at bounded
                obtain ⟨deep, later⟩ := Bool.and_eq_true_iff.mp bounded
                have filled : location ≠ [] := List.ne_nil_of_length_pos (of_decide_eq_true deep)
                rw [List.dropLast_append_of_ne_nil filled]
                exact ih (by rwa [List.length_dropLast])
            · next descends =>
                rw [if_neg descends] at bounded
                rw [List.append_assoc, stands.has_below]
                split
                · rfl
                · split
                  · exact ih (by rwa [List.length_append])
                  · rfl
      · rw [Bool.not_eq_true] at directory
        simp only [directory, Bool.not_false, if_true]
        rfl

end StandsIn

theorem IsProper.walk_has (proper : tree.IsProper) {steps : List String} {found : Location}
    (standing : tree.has location = true) (walked : tree.walk location steps = .ok found) :
    tree.has found = true := by
  induction steps generalizing location with
  | nil =>
      rw [← Except.ok.inj walked]
      exact standing
  | cons step rest ih =>
      rw [walk_cons] at walked
      split at walked
      · cases walked
      split at walked
      · exact ih standing walked
      split at walked
      · exact ih (has_of_directory (proper.inside location (lookup_mem standing))) walked
      split at walked
      · cases walked
      split at walked
      · next next_ => exact ih next_ walked
      · cases walked

theorem IsProper.resolve_has (proper : tree.IsProper) {path : Path} {found : Location}
    (directory : tree.isDirectory location = true)
    (leads : tree.resolve location path = .ok found) : tree.has found = true := by
  unfold resolve at leads
  split at leads
  · cases leads
  split at leads
  · cases leads
  split at leads
  · exact proper.walk_has rfl leads
  · exact proper.walk_has (has_of_directory directory) leads

theorem IsProper.above (proper : tree.IsProper) {place : Location}
    (directory : tree.isDirectory location = true) (way : place <+: location) :
    tree.isDirectory place = true := by
  induction location using List.reverseRecOn with
  | nil => rwa [List.prefix_nil.mp way]
  | append_singleton front name ih =>
      rcases List.prefix_concat_iff.mp way with rfl | way
      · exact directory
      · have above := proper.inside _ (lookup_mem (has_of_directory directory))
        rw [List.dropLast_concat] at above
        exact ih above way

/-! ### Following paths -/

section Standing

variable (stands : tree.StandsIn host root) (proper : tree.IsProper)
include stands proper

theorem StandsIn.all_named (standing : tree.has location = true) :
    ∀ name ∈ root ++ location, Path.IsFileName name := by
  intro name member
  rcases List.mem_append.mp member with above | below
  · exact stands.named name above
  · exact proper.named location (lookup_mem standing) name below

theorem StandsIn.all_directories (directory : tree.isDirectory location = true) {place : Location}
    (way : place <+: root ++ location) : host.isDirectory place = true := by
  rcases List.prefix_or_prefix_of_prefix way (List.prefix_append root location) with
    above | ⟨below, rfl⟩
  · exact stands.above place above
  · rw [stands.is_directory_below]
    exact proper.above directory (List.prefix_append_right_inj root |>.mp way)

theorem StandsIn.resolve_below (directory : tree.isDirectory location = true) {path : Path}
    (filled : path.text.isEmpty = false) (relative : path.isAbsolute = false)
    (bounded : neverClimbs location.length path.steps = true) (working : Location) :
    host.resolve working ((Path.ofLocation (root ++ location)).join path) =
      (tree.resolve location path).map (root ++ ·) := by
  have named := stands.all_named proper (has_of_directory directory)
  have steps := Path.steps_of_join (fun name member => (named name member).plain) path
  have zero : ((Path.ofLocation (root ++ location)).join path).text.toList.contains '\x00' =
      path.text.toList.contains '\x00' := by
    have noSlash : '\x00' ≠ '/' := by decide
    rw [Bool.eq_iff_iff, List.contains_iff_mem, List.contains_iff_mem,
      Path.mem_text_iff noSlash, Path.mem_text_iff noSlash, steps]
    constructor
    · rintro ⟨step, member, inside⟩
      rcases List.mem_append.mp member with leading | own
      · rcases List.mem_cons.mp leading with rfl | above
        · cases inside
        · exact absurd inside (named step above).noZero
      · exact ⟨step, own, inside⟩
    · rintro ⟨step, member, inside⟩
      exact ⟨step, List.mem_append_right _ member, inside⟩
  have some : ((Path.ofLocation (root ++ location)).join path).text.isEmpty = false :=
    Path.filled_of_absolute (Path.is_absolute_join _ _)
  have top : host.isDirectory [] = true := rfl
  rw [resolve, some, zero, resolve, filled, relative, Path.is_absolute_join, steps]
  simp only [Bool.false_eq_true, if_false, if_true, List.cons_append]
  split
  · rfl
  · rw [walk_cons, top, if_neg (by simp), if_pos (.inl rfl), walk_down _ _ named, List.nil_append,
      stands.walk_below _ bounded]
    intro place way
    exact stands.all_directories proper directory way

end Standing

end Tree

/-! ### References -/

namespace Workspace

theorem locate_error {workspace : Workspace} {reference : String} {source : Path} {field : String}
    {error : DocumentError} (failed : workspace.locate reference source field = .error error) :
    error.category = .path ∧ error.file = source ∧ error.field = some field := by
  unfold locate at failed
  dsimp only at failed
  split at failed
  · rw [← Except.error.inj failed]
    exact ⟨rfl, rfl, rfl⟩
  split at failed
  · rw [← Except.error.inj failed]
    exact ⟨rfl, rfl, rfl⟩
  split at failed
  · cases failed
  · rw [← Except.error.inj failed]
    exact ⟨rfl, rfl, rfl⟩

theorem locate_below {tree : Tree} {workspace : Workspace} {root location : Location}
    (stands : tree.StandsIn workspace.tree root) (proper : tree.IsProper) {name : String}
    (standing : tree.has (location ++ [name]) = true) {reference text : String}
    (read : Text.trimmed reference = text) (filled : text.isEmpty = false)
    (relative : Path.isAbsolute ⟨text⟩ = false)
    (bounded : Tree.neverClimbs location.length (Path.steps ⟨text⟩) = true) (field : String) :
    (workspace.locate reference (.ofLocation (root ++ (location ++ [name]))) field).toOption =
      (tree.resolve location ⟨text⟩).toOption.map (root ++ ·) := by
  have directory : tree.isDirectory location = true := by
    have above := proper.inside _ (Tree.lookup_mem standing)
    rwa [List.dropLast_concat] at above
  have named := stands.all_named proper standing
  rw [← List.append_assoc] at named
  have source := Path.directory_of_location fun step member => (named step member).plain
  have leads := stands.resolve_below proper directory filled relative bounded workspace.directory
  rw [locate, read, ← List.append_assoc, source]
  simp only [filled, relative, leads, Bool.false_eq_true, if_false]
  rcases tree.resolve location ⟨text⟩ with problem | place
  · rfl
  · rfl

/-- A tree may stand below any root of any workspace. A reference of one of its documents that never
climbs above the root leads to the same place of the tree wherever that stands, or nowhere wherever
it stands. Blank and absolute references are rejected, and whatever is rejected is a path error. -/
theorem references_relocate :
    (∀ (tree : Tree) (document : Location) (reference field : String), tree.IsProper →
      tree.isFile document = true →
      Tree.neverClimbs document.dropLast.length (Path.steps ⟨Text.trimmed reference⟩) = true →
      ∃ outcome : Option Location, (∀ place ∈ outcome, tree.has place = true) ∧
        ∀ (workspace : Workspace) (root : Location), tree.StandsIn workspace.tree root →
          (workspace.locate reference (.ofLocation (root ++ document)) field).toOption =
            outcome.map (root ++ ·)) ∧
    ∀ (workspace : Workspace) (reference : String) (source : Path) (field : String),
      (Text.isAllBlank reference.toList = true →
        workspace.locate reference source field = .error ⟨source, some field, .emptyReference⟩) ∧
      ((Text.trim reference.toList).head? = some '/' →
        workspace.locate reference source field =
          .error ⟨source, some field, .absoluteReference (Text.trimmed reference)⟩) ∧
      ∀ error, workspace.locate reference source field = .error error → error.category = .path := by
  constructor
  · intro tree document reference field proper file bounded
    have standing : tree.has document = true := Tree.has_of_file file
    obtain ⟨location, name, rfl⟩ := (List.eq_nil_or_concat' document).resolve_left
      (by rintro rfl; cases file)
    rw [List.dropLast_concat] at bounded
    cases rejected : (Text.trimmed reference).isEmpty || Path.isAbsolute ⟨Text.trimmed reference⟩ with
    | true =>
        refine ⟨none, fun place member => absurd member (Option.not_mem_none place),
          fun workspace root _ => ?_⟩
        rw [locate]
        rcases Bool.or_eq_true_iff.mp rejected with empty | absolute
        · simp only [empty, if_true]
          rfl
        · simp only [absolute, if_true]
          split
          · rfl
          · rfl
    | false =>
        obtain ⟨filled, relative⟩ := Bool.or_eq_false_iff.mp rejected
        refine ⟨(tree.resolve location ⟨Text.trimmed reference⟩).toOption, ?_,
          fun workspace root stands =>
            locate_below stands proper standing rfl filled relative bounded field⟩
        intro place leads
        have directory := proper.inside _ (Tree.lookup_mem standing)
        rw [List.dropLast_concat] at directory
        rcases led : tree.resolve location ⟨Text.trimmed reference⟩ with problem | found
        · rw [led] at leads
          cases leads
        · rw [led] at leads
          obtain rfl := Option.some.inj leads
          exact proper.resolve_has directory led
  · intro workspace reference source field
    refine ⟨?_, ?_, fun error failed => (locate_error failed).1⟩
    · intro blank
      have empty : Text.trim reference.toList = [] := by
        rw [← List.nil_append reference.toList,
          Text.trim_append_blanks [] (List.all_eq_true.mp blank)]
        rfl
      simp [locate, Text.trimmed, empty]
    · intro absolute
      obtain ⟨rest, whole⟩ := List.head?_eq_some_iff.mp absolute
      simp [locate, Text.trimmed, Path.isAbsolute, whole]

def salon : Tree := ⟨[
  (["prompts"], .directory),
  (["prompts", "p.yaml"], .file "name: p\n".toUTF8),
  (["vars"], .directory),
  (["vars", "hair.yaml"], .file "red: red hair\n".toUTF8)]⟩

theorem salon_references_relocate :
    salon.IsProper ∧ salon.isFile ["prompts", "p.yaml"] = true ∧
    Tree.neverClimbs 1 (Path.steps ⟨Text.trimmed " .././vars//hair.yaml"⟩) = true ∧
    (∀ root : Location, (∀ name ∈ root, Path.IsFileName name) →
      ((⟨salon.under root, []⟩ : Workspace).locate " .././vars//hair.yaml"
        (.ofLocation (root ++ ["prompts", "p.yaml"])) "imports.Hair").toOption =
          some (root ++ ["vars", "hair.yaml"])) := by
  have proper : salon.IsProper := by decide +kernel
  have file : salon.isFile ["prompts", "p.yaml"] = true := by decide +kernel
  have bounded : Tree.neverClimbs 1 (Path.steps ⟨Text.trimmed " .././vars//hair.yaml"⟩) = true := by
    decide +kernel
  refine ⟨proper, file, bounded, fun root named => ?_⟩
  obtain ⟨outcome, -, leads⟩ := references_relocate.1 salon ["prompts", "p.yaml"]
    " .././vars//hair.yaml" "imports.Hair" proper file bounded
  have here := leads ⟨salon.under [], []⟩ [] (salon.stands_under (List.forall_mem_nil _))
  have found : ((⟨salon.under [], []⟩ : Workspace).locate " .././vars//hair.yaml"
      (.ofLocation ["prompts", "p.yaml"]) "imports.Hair").toOption =
        some ["vars", "hair.yaml"] := by
    decide +kernel
  obtain rfl : outcome = some ["vars", "hair.yaml"] := by
    rw [List.nil_append, found] at here
    simpa using here.symm
  exact leads ⟨salon.under root, []⟩ root (salon.stands_under named)

end Workspace

end PromptLoom
