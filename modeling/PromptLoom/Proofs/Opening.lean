import PromptLoom.Workspace

/-!
# What a cache shows

A cache only remembers what reading the tree would give, so the documents that can be opened are the
same before and after any openings. `Grown` lists what openings can do to a cache, and `Alike` says
that two caches show the same documents. Every operation that opens documents is shown to grow its
cache, and to answer alike caches alike.
-/

namespace PromptLoom

set_option autoImplicit false

namespace Workspace

/-- A cache after some openings. Each of them read a document that was not there. -/
inductive Grown (workspace : Workspace) (cache : Cache) : Cache → Prop where
  | same : Grown workspace cache cache
  | opened {later : Cache} {document : Document} {location : Location}
      (before : Grown workspace cache later)
      (fresh : later.find? location = none)
      (read : workspace.read location = .ok document) :
      Grown workspace cache ⟨document :: later.documents⟩

/-- Two caches from which the same documents are opened. -/
def Alike (workspace : Workspace) (left right : Cache) : Prop :=
  ∀ location, (workspace.openAt location left).1 = (workspace.openAt location right).1

theorem Alike.refl (workspace : Workspace) (cache : Cache) : workspace.Alike cache cache :=
  fun _ => rfl

theorem Alike.symm {workspace : Workspace} {left right : Cache}
    (alike : workspace.Alike left right) : workspace.Alike right left :=
  fun location => (alike location).symm

theorem Alike.trans {workspace : Workspace} {first second third : Cache}
    (one : workspace.Alike first second) (two : workspace.Alike second third) :
    workspace.Alike first third :=
  fun location => (one location).trans (two location)

theorem Grown.trans {workspace : Workspace} {first second third : Cache}
    (one : workspace.Grown first second) (two : workspace.Grown second third) :
    workspace.Grown first third := by
  induction two with
  | same => exact one
  | opened before fresh read ih => exact ih.opened fresh read

theorem read_location {workspace : Workspace} {location : Location} {document : Document}
    (read : workspace.read location = .ok document) : document.location = location := by
  unfold Workspace.read at read
  split at read
  · simp at read
  · split at read
    · simp at read
    · simp only [Except.ok.injEq] at read
      rw [← read]

/-- One opening changes nothing that is shown: the new document is the one that reading would have
given. -/
theorem alike_opened {workspace : Workspace} {cache : Cache} {document : Document}
    {location : Location} (fresh : cache.find? location = none)
    (read : workspace.read location = .ok document) :
    workspace.Alike cache ⟨document :: cache.documents⟩ := by
  intro other
  have place := read_location read
  by_cases same : other = location
  · subst same
    have known : Cache.find? ⟨document :: cache.documents⟩ other = some document := by
      simp [Cache.find?, place]
    simp [openAt, fresh, read, known]
  · have unchanged : Cache.find? ⟨document :: cache.documents⟩ other = cache.find? other := by
      have differ : (document.location == other) = false := by
        rw [place]
        exact beq_eq_false_iff_ne.mpr (Ne.symm same)
      simp [Cache.find?, differ]
    unfold openAt
    rw [unchanged]
    cases cache.find? other with
    | some found => rfl
    | none => cases workspace.read other <;> rfl

theorem Grown.alike {workspace : Workspace} {cache later : Cache}
    (grown : workspace.Grown cache later) : workspace.Alike cache later := by
  induction grown with
  | same => exact Alike.refl workspace cache
  | opened before fresh read ih => exact ih.trans (alike_opened fresh read)

theorem Alike.grown {workspace : Workspace} {left right leftLater rightLater : Cache}
    (alike : workspace.Alike left right) (leftGrown : workspace.Grown left leftLater)
    (rightGrown : workspace.Grown right rightLater) : workspace.Alike leftLater rightLater :=
  (leftGrown.alike.symm.trans alike).trans rightGrown.alike

theorem open_at_grown (workspace : Workspace) (location : Location) (cache : Cache) :
    workspace.Grown cache (workspace.openAt location cache).2 := by
  unfold openAt
  split
  · exact .same
  · next fresh =>
      split
      · next document read => exact Grown.same.opened fresh read
      · exact .same

theorem open_entry_grown (workspace : Workspace) (path : Path) (cache : Cache) :
    workspace.Grown cache (workspace.openEntry path cache).2 := by
  unfold openEntry
  split
  · exact open_at_grown workspace _ cache
  · exact .same

/-- Operations that only grow their cache and answer by what it shows give one result on alike
caches, and leave alike caches behind. -/
theorem Alike.same_result {Result : Type} {workspace : Workspace} {left right later : Cache}
    {result : Result} (operation : Cache → Result × Cache) (alike : workspace.Alike left right)
    (grows : ∀ cache, workspace.Grown cache (operation cache).2)
    (agrees : (operation left).1 = (operation right).1)
    (ran : operation left = (result, later)) :
    ∃ other, operation right = (result, other) ∧ workspace.Alike later other := by
  have leftGrown := grows left
  rw [ran] at leftGrown agrees
  exact ⟨(operation right).2, Prod.ext agrees.symm rfl, alike.grown leftGrown (grows right)⟩

theorem Alike.open_entry {workspace : Workspace} {left right later : Cache} {path : Path}
    {result : Except DocumentError Document} (alike : workspace.Alike left right)
    (opened : workspace.openEntry path left = (result, later)) :
    ∃ other, workspace.openEntry path right = (result, other) ∧ workspace.Alike later other := by
  refine alike.same_result (workspace.openEntry path) (open_entry_grown workspace path) ?_ opened
  unfold openEntry
  split
  · exact alike _
  · rfl

theorem open_reference_grown {workspace : Workspace} {reference field : String} {source : Path}
    {cache later : Cache} {result : Except DocumentError Document}
    (opened : workspace.openReference reference source field cache = (result, later)) :
    workspace.Grown cache later := by
  unfold openReference at opened
  split at opened
  · next location _ =>
      have grown := open_at_grown workspace location cache
      rw [opened] at grown
      exact grown
  · simp only [Prod.mk.injEq] at opened
    rw [← opened.2]
    exact .same

theorem Alike.open_reference {workspace : Workspace} {left right later : Cache}
    {reference field : String} {source : Path} {result : Except DocumentError Document}
    (alike : workspace.Alike left right)
    (opened : workspace.openReference reference source field left = (result, later)) :
    ∃ other, workspace.openReference reference source field right = (result, other) ∧
      workspace.Alike later other := by
  refine alike.same_result (workspace.openReference reference source field)
    (fun _ => open_reference_grown (Prod.eta _).symm) ?_ opened
  unfold openReference
  split
  · exact alike _
  · rfl

section Folds

variable {State Item : Type} {workspace : Workspace} (step : State → Item → State)
  (cacheOf : State → Cache) (put : State → Cache → State)

theorem foldl_grown
    (grows : ∀ state item, workspace.Grown (cacheOf state) (cacheOf (step state item)))
    (items : List Item) (state : State) :
    workspace.Grown (cacheOf state) (cacheOf (items.foldl step state)) := by
  induction items generalizing state with
  | nil => exact .same
  | cons item rest ih => exact (grows state item).trans (ih (step state item))

theorem foldl_alike
    (agrees : ∀ {state other} item, workspace.Alike (cacheOf state) other →
      ∃ cache, workspace.Alike (cacheOf (step state item)) cache ∧
        step (put state other) item = put (step state item) cache)
    (items : List Item) (state : State) {other : Cache}
    (alike : workspace.Alike (cacheOf state) other) :
    ∃ cache, workspace.Alike (cacheOf (items.foldl step state)) cache ∧
      items.foldl step (put state other) = put (items.foldl step state) cache := by
  induction items generalizing state other with
  | nil => exact ⟨other, alike, rfl⟩
  | cons item rest ih =>
      obtain ⟨second, follows, again⟩ := agrees item alike
      rw [List.foldl_cons, List.foldl_cons, again]
      exact ih _ follows

end Folds

end Workspace

end PromptLoom
