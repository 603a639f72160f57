import PromptLoom.Proofs.Scope.Conflicts
import PromptLoom.Proofs.Scope.Faults
import PromptLoom.Proofs.Scope.Names

/-!
# What resolving imports opens and registers

The references of a declaration and the names that it registers can be listed without opening
anything. To compare the first list with what is opened, imports are also resolved over a way of
opening that writes down each reference. The result is the same, with the references of the
declaration written down in order.
-/

namespace PromptLoom

open Workspace

set_option autoImplicit false

namespace ScopeRun

variable {Kept : Type} {workspace : Workspace}

/-! ### Writing down what is opened -/

/-- Opens as before, and writes down the reference. -/
def logging (opener : Opener Kept) : Opener (Kept × List String) :=
  fun reference origin field kept =>
    let (result, later) := opener reference origin field kept.1
    (result, later, kept.2 ++ [reference])

def logged (run : ScopeRun Kept) (log : List String) : ScopeRun (Kept × List String) :=
  run.withCache (run.cache, log)

theorem logging_parallel (opener : Opener Kept) :
    opener.Parallel (logging opener) fun log one other => other = (one, log) := by
  rintro log one _ reference origin field rfl
  exact ⟨(_, log ++ [reference]), rfl, rfl⟩

/-- Writing down what is opened changes nothing else, and the references of the declaration are
what is written, in order. -/
theorem resolve_spec_logged (opener : Opener Kept) (origin : Path) (name : String)
    (run : ScopeRun Kept) (log : List String) (spec : ImportSpec) :
    resolveSpec (logging opener) origin name (run.logged log) spec =
      (resolveSpec opener origin name run spec).logged (log ++ spec.documentRefs) := by
  obtain ⟨_, same, rfl⟩ :=
    resolve_spec_parallel (logging_parallel opener) origin name log run rfl spec
  exact same

theorem resolve_decls_logged (opener : Opener Kept) (decls : NameMap ImportDecl) (cache : Kept) :
    resolveDecls (logging opener) decls (cache, []) =
      (resolveDecls opener decls cache).logged
        (decls.entries.flatMap fun entry => entry.2.spec.documentRefs) := by
  obtain ⟨_, same, rfl⟩ :=
    resolve_each_parallel (logging_parallel opener) decls.entries [] ⟨cache, .empty, []⟩ rfl
  exact same

/-! ### Declarations whose documents load -/

def keysBehind? (workspace : Workspace) (origin : Path) (field reference : String) :
    Option (List String) :=
  (openSet workspace reference origin field .empty).1.toOption.map fun found => found.2.keys

mutual

/-- Every document of a declaration loads as a variation set, and no two documents of one list share
a key. -/
def LoadsApart (workspace : Workspace) (origin : Path) (name : String) : ImportSpec → Prop
  | .document reference =>
      (keysBehind? workspace origin (Config.importField name) reference).isSome = true
  | .list entries =>
      let keys := keysBehind? workspace origin (Config.importField name)
      (∀ reference ∈ (ImportSpec.list entries).documentRefs, (keys reference).isSome = true) ∧
        (ImportSpec.list entries).documentRefs.Pairwise fun one other =>
          ∀ key ∈ (keys one).getD [], key ∉ (keys other).getD []
  | .group members => MembersLoadApart workspace origin name members

def MembersLoadApart (workspace : Workspace) (origin : Path) (name : String) :
    List (String × ImportSpec) → Prop
  | [] => True
  | (member, spec) :: rest =>
      LoadsApart workspace origin (name ++ "." ++ member) spec ∧
        MembersLoadApart workspace origin name rest

end

theorem opened_keys {origin source : Path} {field reference : String} {set : VariationSet}
    (opened : (openSet workspace reference origin field .empty).1 = .ok (source, set)) :
    keysBehind? workspace origin field reference = some set.keys := by
  simp only [keysBehind?, opened, Except.toOption, Option.map_some]

theorem supply_keys {origin source : Path} {field entry : String} {set : VariationSet}
    (brought : Supply.of workspace .empty origin field entry = .loaded source set) :
    ∃ reference, (ImportEntry.classify entry).reference? = some reference ∧
      keysBehind? workspace origin field reference = some set.keys := by
  unfold Supply.of at brought
  split at brought
  · cases brought
  · next reference classified =>
      split at brought
      · next opened =>
          obtain ⟨rfl, rfl⟩ := Supply.loaded.inj brought
          exact ⟨reference, by rw [classified]; rfl, opened_keys opened⟩
      · cases brought

theorem owner_holds {key : String} {first : Path} {supplies : List Supply}
    (owned : Supply.owner? key supplies = some first) :
    ∃ set, .loaded first set ∈ supplies ∧ key ∈ set.keys := by
  induction supplies with
  | nil => cases owned
  | cons supply rest ih =>
      cases supply with
      | literal | failed =>
          obtain ⟨set, member, holds⟩ := ih owned
          exact ⟨set, List.mem_cons_of_mem _ member, holds⟩
      | loaded source set =>
          rw [Supply.owner?] at owned
          split at owned
          · next holds =>
              rw [Option.some.inj owned]
              exact ⟨set, List.mem_cons_self .., holds⟩
          · obtain ⟨other, member, holds⟩ := ih owned
            exact ⟨other, List.mem_cons_of_mem _ member, holds⟩

theorem owned_behind {origin first : Path} {field key : String} {entries : List String}
    (owned : Supply.owner? key (entries.map (Supply.of workspace .empty origin field)) =
      some first) :
    ∃ reference ∈ (ImportSpec.list entries).documentRefs,
      key ∈ (keysBehind? workspace origin field reference).getD [] := by
  obtain ⟨set, member, holds⟩ := owner_holds owned
  obtain ⟨entry, inside, supplied⟩ := List.mem_map.mp member
  obtain ⟨reference, named, keys⟩ := supply_keys supplied
  refine ⟨reference, ?_, ?_⟩
  · rw [ImportSpec.documentRefs]
    exact List.mem_filterMap.mpr ⟨entry, inside, named⟩
  · rw [keys]
    exact holds

theorem list_unfaulted {origin : Path} {name : String} {entries : List String}
    (apart : LoadsApart workspace origin name (.list entries)) :
    Supply.allErrors name origin
      (entries.map (Supply.of workspace .empty origin (Config.importField name))) = [] := by
  -- from the end, since an entry conflicts with those before it
  induction entries using List.reverseRecOn with
  | nil => rfl
  | append_singleton entries entry ih =>
      simp only [LoadsApart, ImportSpec.documentRefs, List.filterMap_append, List.mem_append,
        List.pairwise_append] at apart ih
      obtain ⟨loads, before, -, between⟩ := apart
      have clean := ih ⟨fun reference member => loads reference (.inl member), before⟩
      rw [List.map_append, List.map_singleton, Supply.all_errors_snoc, clean, List.nil_append]
      cases classified : ImportEntry.classify entry with
      | literal text => simp only [Supply.of, classified, Supply.failure, Supply.conflicts,
          List.append_nil]
      | document reference =>
          have last : reference ∈ [entry].filterMap fun entry =>
              (ImportEntry.classify entry).reference? := by
            simp [classified, ImportEntry.reference?]
          have loaded := loads reference (.inr last)
          rcases opened : (openSet workspace reference origin (Config.importField name) .empty).1
            with failure | ⟨source, set⟩
          · simp [keysBehind?, opened, Except.toOption] at loaded
          simp only [Supply.of, classified, opened, Supply.failure, Supply.conflicts,
            List.nil_append]
          apply List.filterMap_eq_nil_iff.mpr
          intro key own
          rw [Option.map_eq_none_iff, Option.eq_none_iff_forall_ne_some]
          intro first owned
          obtain ⟨earlier, listed, holds⟩ := owned_behind owned
          rw [ImportSpec.documentRefs] at listed
          refine between earlier listed reference last key holds ?_
          rw [opened_keys opened]
          exact own

mutual

theorem load_apart_clean (origin : Path) (name : String) : ∀ spec,
    LoadsApart workspace origin name spec → specErrors workspace origin name spec = []
  | .document reference => by
      intro apart
      unfold LoadsApart keysBehind? at apart
      unfold specErrors resolveSpec
      rcases opened : openSet workspace reference origin (Config.importField name) .empty
        with ⟨failure | ⟨source, set⟩, later⟩
      · simp [opened, Except.toOption] at apart
      · rfl
  | .list entries => by
      intro apart
      obtain ⟨-, errors, -⟩ :=
        resolve_list_reports workspace origin name ⟨.empty, .empty, []⟩ entries
      exact errors.trans (list_unfaulted apart)
  | .group members => by
      intro apart
      unfold LoadsApart at apart
      unfold specErrors resolveSpec
      exact members_load_apart_clean origin name members apart

theorem members_load_apart_clean (origin : Path) (name : String) : ∀ members,
    MembersLoadApart workspace origin name members →
      memberErrors workspace origin name members = []
  | [] => by
      intro apart
      unfold memberErrors resolveMembers
      rfl
  | (member, spec) :: rest => by
      intro apart
      unfold MembersLoadApart at apart
      have grown := resolve_spec_grown workspace origin (name ++ "." ++ member)
        ⟨.empty, .empty, []⟩ spec
      unfold memberErrors resolveMembers
      rw [resolve_members_errors origin name grown rest,
        members_load_apart_clean origin name rest apart.2, List.append_nil]
      exact load_apart_clean origin _ spec apart.1

end

/-- Declarations whose documents load, without two documents of a list sharing a key, are resolved.
The scope then holds exactly the names that they register, and what is opened, for all of them and
for any by itself, are the references that they list, in order. -/
theorem imports_match_outlines {cache : Cache} (shown : workspace.Grown .empty cache)
    {decls : NameMap ImportDecl}
    (apart : ∀ entry ∈ decls.entries, LoadsApart workspace entry.2.origin entry.1 entry.2.spec) :
    ∃ scope, Scope.resolve workspace decls cache =
        (.ok scope, (resolveDecls (openSet workspace) decls cache).cache) ∧
      (∀ name, scope.contains name = true ↔
        ∃ entry ∈ decls.entries, name ∈ entry.2.spec.registeredNames entry.1) ∧
      resolveDecls (logging (openSet workspace)) decls (cache, []) =
        (resolveDecls (openSet workspace) decls cache).logged
          (decls.entries.flatMap fun entry => entry.2.spec.documentRefs) ∧
      ∀ entry ∈ decls.entries, ∀ (run : ScopeRun Cache) (log : List String),
        resolveSpec (logging (openSet workspace)) entry.2.origin entry.1 (run.logged log)
            entry.2.spec =
          (resolveSpec (openSet workspace) entry.2.origin entry.1 run entry.2.spec).logged
            (log ++ entry.2.spec.documentRefs) := by
  obtain ⟨scope, resolved⟩ := Scope.resolve_clean shown fun entry member =>
    load_apart_clean entry.2.origin entry.1 entry.2.spec (apart entry member)
  have whole : Scope.resolve workspace decls cache =
      (.ok scope, (resolveDecls (openSet workspace) decls cache).cache) := Prod.ext resolved rfl
  refine ⟨scope, whole, ?_, resolve_decls_logged _ decls cache, ?_⟩
  · intro name
    constructor
    · intro known
      have listed : scope.NamesIn
          (decls.entries.flatMap fun entry => entry.2.spec.registeredNames entry.1) :=
        Scope.resolve_names whole fun entry member registered own =>
          List.mem_flatMap.mpr ⟨entry, member, own⟩
      exact List.mem_flatMap.mp (listed name known)
    · rintro ⟨entry, member, registered⟩
      exact Scope.resolve_registers resolved entry member name registered
  · intro entry _ run log
    exact resolve_spec_logged _ entry.2.origin entry.1 run log entry.2.spec

def palettes : Workspace where
  tree := ⟨[(["v.yaml"], .file "red: crimson\n".toUTF8), (["w.yaml"], .file "pale: gold\n".toUTF8)]⟩
  directory := []

/-- A group in a group with a list, a name that a group registers too, and a group of nothing. -/
def paletteImports : NameMap ImportDecl :=
  ⟨[("Hair", ⟨.group [("Dark", .document "v.yaml"),
      ("Light", .group [("Pale", .list ["silver hair", " w.yaml ", "v.yaml"])])], ⟨"/p"⟩⟩),
    ("Hair.Dark", ⟨.document "w.yaml", ⟨"/p"⟩⟩), ("None", ⟨.group [], ⟨"/p"⟩⟩)]⟩

theorem palettes_outlined :
    ∃ scope, Scope.resolve palettes paletteImports .empty =
        (.ok scope, (resolveDecls (openSet palettes) paletteImports .empty).cache) ∧
      (∀ name, scope.contains name = true ↔ name = "Hair.Dark" ∨ name = "Hair.Light.Pale") ∧
      resolveDecls (logging (openSet palettes)) paletteImports (.empty, []) =
        (resolveDecls (openSet palettes) paletteImports .empty).logged
          ["v.yaml", "w.yaml", "v.yaml", "w.yaml"] := by
  have apart : ∀ entry ∈ paletteImports.entries,
      LoadsApart palettes entry.2.origin entry.1 entry.2.spec := by
    simp only [paletteImports, List.forall_mem_cons, List.not_mem_nil, LoadsApart,
      MembersLoadApart, false_imp_iff, implies_true, and_true]
    decide +kernel
  obtain ⟨scope, resolved, names, opened, -⟩ := imports_match_outlines .same apart
  refine ⟨scope, resolved, ?_, ?_⟩
  · intro name
    rw [names]
    simpa [paletteImports, ImportSpec.registeredNames, ImportSpec.memberNames] using Or.inl
  · have refs : (paletteImports.entries.flatMap fun entry => entry.2.spec.documentRefs) =
        ["v.yaml", "w.yaml", "v.yaml", "w.yaml"] := by
      decide +kernel
    rw [opened, refs]

end ScopeRun

end PromptLoom
