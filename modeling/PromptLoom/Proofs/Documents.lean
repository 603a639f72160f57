import PromptLoom.Proofs.Opening

/-!
# The documents of a tree

Names of files hold no slash, so a location is read back off its path, and what is remembered under
a path belongs to one document only. A cache that was filled by openings alone opens exactly what
stands in the tree, so what a reference leads to can be said without a cache.
-/

namespace PromptLoom

set_option autoImplicit false

/-- No name in the tree is empty or holds a slash. -/
def Tree.WellNamed (tree : Tree) : Prop :=
  ∀ location ∈ tree.locations, ∀ name ∈ location, name ≠ "" ∧ '/' ∉ name.toList

instance (tree : Tree) : Decidable tree.WellNamed :=
  inferInstanceAs (Decidable (∀ location ∈ tree.locations, ∀ name ∈ location,
    name ≠ "" ∧ '/' ∉ name.toList))

theorem slash_free_text {location : Location}
    (named : ∀ name ∈ location, name ≠ "" ∧ '/' ∉ name.toList) :
    (("/".intercalate location).toList).splitOn '/' =
      if location = [] then [[]] else location.map String.toList := by
  rw [String.toList_intercalate]
  split
  · next none =>
      subst none
      rfl
  · next some =>
      apply List.splitOn_intercalate
      · intro text member
        obtain ⟨name, inside, rfl⟩ := List.mem_map.mp member
        exact (named name inside).2
      · simpa using some

/-- The root has the path of a single slash, which no other location has, since names are not
empty. -/
theorem Path.of_location_injective {first second : Location}
    (firstNamed : ∀ name ∈ first, name ≠ "" ∧ '/' ∉ name.toList)
    (secondNamed : ∀ name ∈ second, name ≠ "" ∧ '/' ∉ name.toList)
    (same : Path.ofLocation first = Path.ofLocation second) : first = second := by
  have texts : "/".intercalate first = "/".intercalate second := by
    simpa [Path.ofLocation, ← String.toList_inj] using same
  have parts := slash_free_text firstNamed
  rw [texts, slash_free_text secondNamed] at parts
  have bare : ∀ location : Location, (∀ name ∈ location, name ≠ "" ∧ '/' ∉ name.toList) →
      location.map String.toList ≠ [[]] := by
    intro location named
    cases location with
    | nil => simp
    | cons name rest =>
        have : name.toList ≠ [] := by
          simpa using (named name (List.mem_cons_self ..)).1
        simp [this]
  split at parts
  · next noSecond =>
      split at parts
      · next noFirst => rw [noFirst, noSecond]
      · exact absurd parts.symm (bare first firstNamed)
  · split at parts
    · exact absurd parts (bare second secondNamed)
    · exact ((List.map_inj_right fun _ _ => String.toList_inj.mp).mp parts).symm

namespace Workspace

/-- A document of the tree: reading its location gives it. -/
def Holds (workspace : Workspace) (document : Document) : Prop :=
  workspace.read document.location = .ok document

def target (workspace : Workspace) (reference : String) (source : Path) (field : String) :
    Except DocumentError Document :=
  (workspace.locate reference source field).bind workspace.read

def stored (workspace : Workspace) (location : Location) : Document :=
  (workspace.read location).toOption.getD ⟨location, .null⟩

variable {workspace : Workspace}

theorem Holds.location_mem {document : Document} (held : workspace.Holds document) :
    document.location ∈ workspace.tree.locations := by
  apply Tree.lookup_mem
  unfold Holds Workspace.read Tree.readText at held
  unfold Tree.has
  cases standing : workspace.tree.lookup document.location with
  | none => simp [standing] at held
  | some entry => rfl

theorem Holds.eq_of_location {first second : Document} (one : workspace.Holds first)
    (two : workspace.Holds second) (same : first.location = second.location) : first = second := by
  unfold Holds at one two
  rw [same, two] at one
  exact (Except.ok.inj one).symm

theorem Holds.path_eq_iff {first second : Document} (named : workspace.tree.WellNamed)
    (one : workspace.Holds first) (two : workspace.Holds second) :
    first.path = second.path ↔ first.location = second.location := by
  constructor
  · intro same
    exact Path.of_location_injective (named _ one.location_mem) (named _ two.location_mem) same
  · intro same
    exact congrArg Path.ofLocation same

theorem Holds.eq_of_path {first second : Document} (named : workspace.tree.WellNamed)
    (one : workspace.Holds first) (two : workspace.Holds second)
    (same : first.path = second.path) : first = second :=
  one.eq_of_location two ((one.path_eq_iff named two).mp same)

theorem read_holds {location : Location} {document : Document}
    (read : workspace.read location = .ok document) : workspace.Holds document := by
  have place := read_location read
  unfold Holds
  rw [place]
  exact read

theorem read_ok_iff {location : Location} {document : Document} :
    workspace.read location = .ok document ↔
      document.location = location ∧ ∃ text, workspace.tree.readText location = .ok text ∧
        Yaml.Value.ofText text = .ok document.value := by
  obtain ⟨place, value⟩ := document
  unfold Workspace.read
  cases workspace.tree.readText location with
  | error problem => simp
  | ok text => cases parsed : Yaml.Value.ofText text <;> simp [parsed, eq_comm]

theorem stored_holds {location : Location} (standing : (workspace.read location).isOk = true) :
    workspace.Holds (workspace.stored location) := by
  unfold stored
  cases read : workspace.read location with
  | error problem =>
      rw [read] at standing
      cases standing
  | ok document => exact read_holds read

theorem Grown.find_kept {cache later : Cache} {location : Location} {document : Document}
    (grown : workspace.Grown cache later) (found : cache.find? location = some document) :
    later.find? location = some document := by
  induction grown with
  | same => exact found
  | opened before fresh read ih =>
      have elsewhere := read_location read
      rw [Cache.find?, List.find?_cons_of_neg]
      · exact ih
      · rintro place
        rw [← elsewhere, beq_iff_eq.mp place, ih] at fresh
        cases fresh

theorem Grown.documents_held {cache : Cache} (shown : workspace.Grown .empty cache) :
    ∀ document ∈ cache.documents,
      workspace.Holds document ∧ cache.find? document.location = some document := by
  induction shown with
  | same =>
      intro document member
      cases member
  | opened before fresh read ih =>
      intro document member
      rcases List.mem_cons.mp member with rfl | earlier
      · exact ⟨read_holds read, List.find?_cons_of_pos (beq_self_eq_true _)⟩
      · obtain ⟨held, found⟩ := ih document earlier
        exact ⟨held, (Grown.same.opened fresh read).find_kept found⟩

theorem open_at_result {cache : Cache} (shown : workspace.Grown .empty cache)
    (location : Location) : (workspace.openAt location cache).1 = workspace.read location := by
  rw [← shown.alike location]
  unfold openAt
  cases workspace.read location <;> rfl

/-- Whatever has been opened before, a reference leads to the same document or error. -/
theorem open_reference_result {cache : Cache} (shown : workspace.Grown .empty cache)
    (reference : String) (source : Path) (field : String) :
    (workspace.openReference reference source field cache).1 =
      workspace.target reference source field := by
  unfold openReference target
  cases workspace.locate reference source field with
  | error failure => rfl
  | ok location => exact open_at_result shown location

theorem open_reference_target {cache later : Cache} {reference field : String} {source : Path}
    {result : Except DocumentError Document} (shown : workspace.Grown .empty cache)
    (opened : workspace.openReference reference source field cache = (result, later)) :
    workspace.target reference source field = result := by
  rw [← open_reference_result shown, opened]

theorem target_holds {reference field : String} {source : Path} {document : Document}
    (leads : workspace.target reference source field = .ok document) :
    workspace.Holds document := by
  unfold target at leads
  cases located : workspace.locate reference source field with
  | error failure =>
      rw [located] at leads
      cases leads
  | ok location =>
      rw [located] at leads
      exact read_holds leads

/-- Nothing but the file system and the text of a file keeps a document from being opened. -/
theorem read_category {location : Location} {error : DocumentError}
    (failed : workspace.read location = .error error) :
    error.category = .structural ∨ error.category = .path := by
  unfold Workspace.read at failed
  split at failed
  · obtain rfl := Except.error.inj failed
    exact .inr rfl
  · split at failed
    · obtain rfl := Except.error.inj failed
      exact .inl rfl
    · cases failed

theorem locate_category {reference field : String} {source : Path} {error : DocumentError}
    (failed : workspace.locate reference source field = .error error) :
    error.category = .path := by
  simp only [locate] at failed
  split at failed
  · rw [← Except.error.inj failed]
    rfl
  · split at failed
    · rw [← Except.error.inj failed]
      rfl
    · split at failed
      · cases failed
      · rw [← Except.error.inj failed]
        rfl

theorem target_category {reference field : String} {source : Path} {error : DocumentError}
    (failed : workspace.target reference source field = .error error) :
    error.category = .structural ∨ error.category = .path := by
  unfold target at failed
  cases located : workspace.locate reference source field with
  | ok location =>
      rw [located] at failed
      exact read_category failed
  | error problem =>
      rw [located] at failed
      obtain rfl := Except.error.inj failed
      exact .inr (locate_category located)

theorem open_entry_category {path : Path} {cache later : Cache} {failure : DocumentError}
    (opened : workspace.openEntry path cache = (.error failure, later)) :
    failure.category = .structural ∨ failure.category = .path := by
  unfold openEntry at opened
  split at opened
  · next location _ =>
      unfold openAt at opened
      split at opened
      · cases opened
      · split at opened
        · cases opened
        · next unread =>
            obtain ⟨same, -⟩ := Prod.mk.inj opened
            rw [← Except.error.inj same]
            exact read_category unread
  · obtain ⟨same, -⟩ := Prod.mk.inj opened
    rw [← Except.error.inj same]
    exact .inr rfl

theorem open_entry_holds {cache : Cache} {path : Path} {document : Document}
    (shown : workspace.Grown .empty cache)
    (opened : (workspace.openEntry path cache).1 = .ok document) : workspace.Holds document := by
  unfold openEntry at opened
  split at opened
  · next location _ =>
      rw [open_at_result shown] at opened
      exact read_holds opened
  · cases opened

end Workspace

end PromptLoom
