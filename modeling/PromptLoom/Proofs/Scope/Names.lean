import PromptLoom.Document.Config
import PromptLoom.Proofs.NameMap
import PromptLoom.Scope

/-!
# The names of a scope

Resolving an import makes known only the names that its declaration registers, which can be told
without resolving it, and a scope keeps its names in order.
-/

namespace PromptLoom

set_option autoImplicit false

/-- Every name of a scope is one of some names. -/
def Scope.NamesIn (scope : Scope) (names : List String) : Prop :=
  ∀ name, scope.contains name = true → name ∈ names

theorem Scope.NamesIn.insert {scope : Scope} {names : List String} {name : String}
    (known : scope.NamesIn names) (registered : name ∈ names) (set : VariationSet) :
    Scope.NamesIn (NameMap.insert scope name set) names := by
  intro other inside
  rcases NameMap.contains_insert.mp inside with rfl | before
  · exact registered
  · exact known other before

namespace ScopeRun

variable {Kept : Type} {opener : Opener Kept}

mutual

/-- What holds of a scope and is kept when a registered name is inserted holds of the scope after a
declaration is resolved. -/
theorem resolve_spec_keeps (holds : Scope → Prop) (origin : Path)
    (name : String) {run : ScopeRun Kept} (before : holds run.scope) : ∀ spec : ImportSpec,
    (∀ registered ∈ spec.registeredNames name, ∀ (scope : Scope) (set : VariationSet),
      holds scope → holds (scope.insert registered set)) →
    holds (resolveSpec opener origin name run spec).scope
  | .document reference => by
      intro keeps
      unfold resolveSpec
      split
      · exact keeps name (by simp [ImportSpec.registeredNames]) run.scope _ before
      · exact before
  | .list entries => by
      intro keeps
      unfold resolveSpec
      dsimp only
      split
      · exact before
      · exact keeps name (by simp [ImportSpec.registeredNames]) run.scope _ before
  | .group members => by
      intro keeps
      unfold resolveSpec
      exact resolve_members_keeps holds origin name before members
        (by simpa [ImportSpec.registeredNames] using keeps)

theorem resolve_members_keeps (holds : Scope → Prop) (origin : Path)
    (name : String) {run : ScopeRun Kept} (before : holds run.scope) :
    ∀ members : List (String × ImportSpec),
    (∀ registered ∈ ImportSpec.memberNames name members, ∀ (scope : Scope) (set : VariationSet),
      holds scope → holds (scope.insert registered set)) →
    holds (resolveMembers opener origin name run members).scope
  | [] => by
      intro keeps
      unfold resolveMembers
      exact before
  | (member, spec) :: rest => by
      intro keeps
      unfold resolveMembers
      refine resolve_members_keeps holds origin name
        (resolve_spec_keeps holds origin _ before spec ?_) rest ?_
      · intro registered inside
        apply keeps
        simp [ImportSpec.memberNames, inside]
      · intro registered inside
        apply keeps
        simp [ImportSpec.memberNames, inside]

end

theorem resolve_decls_keeps (holds : Scope → Prop)
    {decls : NameMap ImportDecl} (cache : Kept) (start : holds .empty)
    (keeps : ∀ entry ∈ decls.entries, ∀ registered ∈ entry.2.spec.registeredNames entry.1,
      ∀ (scope : Scope) (set : VariationSet), holds scope → holds (scope.insert registered set)) :
    holds (resolveDecls opener decls cache).scope := by
  obtain ⟨entries⟩ := decls
  have before : holds (ScopeRun.mk cache .empty []).scope := start
  unfold resolveDecls
  generalize ScopeRun.mk cache .empty [] = run at before
  induction entries generalizing run with
  | nil => exact before
  | cons entry rest ih =>
      obtain ⟨first, others⟩ := List.forall_mem_cons.mp keeps
      exact ih others _ (resolve_spec_keeps holds entry.2.origin entry.1 before entry.2.spec first)

/-! ### What is registered -/

theorem contains_kept {names : List String} {name : String} :
    ∀ registered ∈ names, ∀ (scope : Scope) (set : VariationSet),
      scope.contains name = true → NameMap.contains (scope.insert registered set) name = true :=
  fun _ _ _ _ known => NameMap.contains_insert.mpr (.inr known)

/-- A merge of a list that has failed has left an error. -/
def Honest (state : ListMerge Kept) : Prop := state.failed = true → state.errors ≠ []

theorem merge_variation_honest {name : String} {origin source : Path} {state : ListMerge Kept}
    (honest : Honest state) (variation : Variation) :
    Honest (mergeVariation name origin source state variation) := by
  unfold mergeVariation
  split
  · exact fun _ => List.append_ne_nil_of_right_ne_nil _ (List.cons_ne_nil _ _)
  · exact honest

theorem merge_entry_honest {name field : String} {origin : Path}
    {state : ListMerge Kept} (honest : Honest state) (entry : String) :
    Honest (mergeEntry opener name origin field state entry) := by
  unfold mergeEntry
  split
  · exact honest
  · split
    · exact fun _ => List.append_ne_nil_of_right_ne_nil _ (List.cons_ne_nil _ _)
    · next source set cache _ =>
        have start : Honest { state with cache } := honest
        exact List.foldlRecOn set.entries _ start
          fun _ before variation _ => merge_variation_honest before variation

theorem merge_entries_honest {name field : String} {origin : Path}
    {state : ListMerge Kept} (honest : Honest state) (entries : List String) :
    Honest (entries.foldl (mergeEntry opener name origin field) state) :=
  List.foldlRecOn entries _ honest fun _ before entry _ => merge_entry_honest before entry

mutual

theorem resolve_spec_registers (origin : Path) (name : String)
    {run : ScopeRun Kept} : ∀ spec : ImportSpec,
    (resolveSpec opener origin name run spec).errors = [] →
    run.errors = [] ∧ ∀ registered ∈ spec.registeredNames name,
      (resolveSpec opener origin name run spec).scope.contains registered = true
  | .document reference => by
      intro clean
      unfold resolveSpec at clean ⊢
      split at clean
      · refine ⟨clean, ?_⟩
        intro registered own
        rw [ImportSpec.registeredNames, List.mem_singleton] at own
        exact NameMap.contains_insert.mpr (.inl own)
      · exact absurd clean (List.append_ne_nil_of_right_ne_nil _ (List.cons_ne_nil _ _))
  | .list entries => by
      intro clean
      unfold resolveSpec at clean ⊢
      obtain ⟨before, silent⟩ := List.append_eq_nil_iff.mp clean
      have start : Honest ⟨run.cache, .empty, [], false, []⟩ := fun failed => nomatch failed
      refine ⟨before, ?_⟩
      intro registered own
      rw [ImportSpec.registeredNames, List.mem_singleton] at own
      dsimp only
      rw [if_neg fun failed => merge_entries_honest start entries failed silent]
      exact NameMap.contains_insert.mpr (.inl own)
  | .group members => by
      intro clean
      unfold resolveSpec at clean ⊢
      simpa [ImportSpec.registeredNames] using
        resolve_members_register origin name members clean

theorem resolve_members_register (origin : Path) (name : String)
    {run : ScopeRun Kept} : ∀ members : List (String × ImportSpec),
    (resolveMembers opener origin name run members).errors = [] →
    run.errors = [] ∧ ∀ registered ∈ ImportSpec.memberNames name members,
      (resolveMembers opener origin name run members).scope.contains registered = true
  | [] => by
      intro clean
      unfold resolveMembers at clean
      refine ⟨clean, ?_⟩
      intro registered own
      cases own
  | (member, spec) :: rest => by
      intro clean
      unfold resolveMembers at clean ⊢
      obtain ⟨middle, others⟩ := resolve_members_register origin name rest clean
      obtain ⟨before, first⟩ := resolve_spec_registers origin (name ++ "." ++ member) spec middle
      refine ⟨before, ?_⟩
      intro registered own
      rw [ImportSpec.memberNames, List.mem_append] at own
      rcases own with own | later
      · exact resolve_members_keeps (fun scope => scope.contains registered = true) origin name
          (first registered own) rest contains_kept
      · exact others registered later

end

theorem resolve_decls_register {decls : NameMap ImportDecl} {cache : Kept}
    (clean : (resolveDecls opener decls cache).errors = []) :
    ∀ entry ∈ decls.entries, ∀ registered ∈ entry.2.spec.registeredNames entry.1,
      (resolveDecls opener decls cache).scope.contains registered = true := by
  obtain ⟨entries⟩ := decls
  let step := fun (run : ScopeRun Kept) (entry : String × ImportDecl) =>
    resolveSpec opener entry.2.origin entry.1 run entry.2.spec
  suffices all : ∀ run : ScopeRun Kept, (entries.foldl step run).errors = [] → run.errors = [] ∧
      (∀ name, run.scope.contains name = true →
        (entries.foldl step run).scope.contains name = true) ∧
      ∀ entry ∈ entries, ∀ registered ∈ entry.2.spec.registeredNames entry.1,
        (entries.foldl step run).scope.contains registered = true by
    exact (all ⟨cache, .empty, []⟩ clean).2.2
  clear clean
  induction entries with
  | nil => exact fun run clean => ⟨clean, fun _ known => known, fun _ member => nomatch member⟩
  | cons entry rest ih =>
      intro run clean
      obtain ⟨middle, kept, others⟩ := ih (step run entry) clean
      obtain ⟨before, own⟩ := resolve_spec_registers entry.2.origin entry.1 entry.2.spec middle
      refine ⟨before, ?_, ?_⟩
      · intro name known
        exact kept name (resolve_spec_keeps (fun scope => scope.contains name = true) _ _ known
          entry.2.spec contains_kept)
      · intro other member registered registers
        rcases List.mem_cons.mp member with rfl | later
        · exact kept registered (own registered registers)
        · exact others other later registered registers

end ScopeRun

theorem Scope.resolve_run {workspace : Workspace} {decls : NameMap ImportDecl} {cache : Cache}
    {scope : Scope} (resolved : (Scope.resolve workspace decls cache).1 = .ok scope) :
    (ScopeRun.resolveDecls (ScopeRun.openSet workspace) decls cache).scope = scope ∧
      (ScopeRun.resolveDecls (ScopeRun.openSet workspace) decls cache).errors = [] := by
  simp only [Scope.resolve] at resolved
  split at resolved
  · next clean => exact ⟨Except.ok.inj resolved, List.isEmpty_iff.mp clean⟩
  · cases resolved

theorem Scope.resolve_names {workspace : Workspace} {decls : NameMap ImportDecl}
    {cache later : Cache} {scope : Scope} {names : List String}
    (resolved : Scope.resolve workspace decls cache = (.ok scope, later))
    (registered : ∀ entry ∈ decls.entries,
      ∀ name ∈ entry.2.spec.registeredNames entry.1, name ∈ names) :
    scope.NamesIn names := by
  rw [← (Scope.resolve_run (congrArg Prod.fst resolved)).1]
  apply ScopeRun.resolve_decls_keeps (fun scope => scope.NamesIn names)
  · intro name inside
    cases inside
  · intro entry member name own before set known
    exact known.insert (registered entry member name own) set

theorem Scope.resolve_registers {workspace : Workspace} {decls : NameMap ImportDecl} {cache : Cache}
    {scope : Scope} (resolved : (Scope.resolve workspace decls cache).1 = .ok scope) :
    ∀ entry ∈ decls.entries, ∀ registered ∈ entry.2.spec.registeredNames entry.1,
      scope.contains registered = true := by
  obtain ⟨same, clean⟩ := Scope.resolve_run resolved
  rw [← same]
  exact ScopeRun.resolve_decls_register clean

theorem Scope.resolve_ordered {workspace : Workspace} {decls : NameMap ImportDecl} {cache : Cache}
    {scope : Scope} (resolved : (Scope.resolve workspace decls cache).1 = .ok scope) :
    scope.Ordered := by
  rw [← (Scope.resolve_run resolved).1]
  apply ScopeRun.resolve_decls_keeps NameMap.Ordered cache NameMap.empty_ordered
  intro entry _ name _ before set ordered
  exact NameMap.insert_ordered ordered name set

end PromptLoom
