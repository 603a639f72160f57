import PromptLoom.Inheritance.Config
import PromptLoom.Text.Identifier
import PromptLoom.Workspace

/-!
# Imports in scope

A scope knows a variation set for each import name. A declaration of one document takes over its
set; a list is merged in the order written, where literals get keys of their own and two documents
may not share a key; a group makes its members known under dotted names. A declaration that fails
registers nothing, and the others are not affected.
-/

namespace PromptLoom

open Text

set_option autoImplicit false

abbrev Scope := NameMap VariationSet

/-- A way of opening variation sets: from a reference, the document and the field that it stands in,
and what earlier openings have left. -/
abbrev Opener (Kept : Type) :=
  String → Path → String → Kept → Except DocumentError (Path × VariationSet) × Kept

/-- What resolving imports leads to. Openings keep something from one to the next: over a tree, the
documents opened. -/
structure ScopeRun (Kept : Type) where
  cache : Kept
  scope : Scope
  errors : List DocumentError

/-- A list import while it is merged. `owners` tells which document gave each key. -/
structure ListMerge (Kept : Type) where
  cache : Kept
  merged : VariationSet
  owners : List (String × Path)
  failed : Bool
  errors : List DocumentError

namespace ScopeRun

def openSet (workspace : Workspace) (reference : String) (origin : Path) (field : String)
    (cache : Cache) : Except DocumentError (Path × VariationSet) × Cache :=
  match workspace.openReference reference origin field cache with
  | (.error error, cache) => (.error error, cache)
  | (.ok document, cache) =>
      match document.read with
      | .ok (.variations set) => (.ok (document.path, set), cache)
      | .ok other => (.error ⟨origin, some field, .notVariationSet reference other.kind⟩, cache)
      | .error faults => (.error (Document.firstFault document.path faults), cache)

variable {Kept : Type}

def mergeVariation (name : String) (origin source : Path) (state : ListMerge Kept)
    (variation : Variation) : ListMerge Kept :=
  match state.owners.lookup variation.key with
  | some first =>
      { state with
        failed := true
        errors := state.errors ++
          [⟨origin, some (Config.importField name),
            .keyConflict name variation.key first source⟩] }
  | none =>
      { state with
        merged := state.merged.insert variation.key variation.value
        owners := (variation.key, source) :: state.owners }

def mergeEntry (opener : Opener Kept) (name : String) (origin : Path) (field : String)
    (state : ListMerge Kept) (entry : String) : ListMerge Kept :=
  match ImportEntry.classify entry with
  -- A literal owns its key for no document, so a later document does not conflict with it.
  | .literal text => { state with merged := state.merged.pushLiteral text }
  | .document reference =>
      match opener reference origin field state.cache with
      | (.error error, cache) =>
          { state with cache, failed := true, errors := state.errors ++ [error] }
      | (.ok (source, set), cache) =>
          set.entries.foldl (mergeVariation name origin source) { state with cache }

mutual

def resolveSpec (opener : Opener Kept) (origin : Path) (name : String) (run : ScopeRun Kept) :
    ImportSpec → ScopeRun Kept
  | .document reference =>
      match opener reference origin (Config.importField name) run.cache with
      | (.ok (_, set), cache) => { run with cache, scope := run.scope.insert name set }
      | (.error error, cache) => { run with cache, errors := run.errors ++ [error] }
  | .list entries =>
      let done := entries.foldl (mergeEntry opener name origin (Config.importField name))
        ⟨run.cache, .empty, [], false, []⟩
      { cache := done.cache
        -- One entry that fails keeps the whole list out of the scope.
        scope := if done.failed then run.scope else run.scope.insert name done.merged
        errors := run.errors ++ done.errors }
  | .group members => resolveMembers opener origin name run members

def resolveMembers (opener : Opener Kept) (origin : Path) (name : String) (run : ScopeRun Kept) :
    List (String × ImportSpec) → ScopeRun Kept
  | [] => run
  | (member, spec) :: rest =>
      resolveMembers opener origin name
        (resolveSpec opener origin (name ++ "." ++ member) run spec) rest

end

def resolveDecls (opener : Opener Kept) (decls : NameMap ImportDecl) (cache : Kept) :
    ScopeRun Kept :=
  decls.entries.foldl
    (fun run (name, decl) => resolveSpec opener decl.origin name run decl.spec)
    ⟨cache, .empty, []⟩

end ScopeRun

def Scope.resolve (workspace : Workspace) (decls : NameMap ImportDecl) (cache : Cache) :
    Except (List DocumentError) Scope × Cache :=
  let run := ScopeRun.resolveDecls (ScopeRun.openSet workspace) decls cache
  (if run.errors.isEmpty then .ok run.scope else .error run.errors, run.cache)

namespace ValueRef

def isKeyChar (c : Char) : Bool := isIdentRest c || c == '~' || c == '-'

/-- The import name and the key of a reference such as `Hair.red`: a dotted name, a dot, and a key
without blanks or further dots. -/
def parse? (text : List Char) : Option (List Char × List Char) :=
  (cutAtLastChar '.' text).filter fun (name, key) =>
    isDotted name && !key.isEmpty && key.all isKeyChar

def isRef (value : String) : Bool := (parse? (trim value.toList)).isSome

def lookup (name : String) (scopes : List Scope) : Option VariationSet :=
  scopes.findSome? fun scope => scope.get? name

/-- The text of a value: what stands behind a leading backslash, the variation that it refers to, or
the value itself. -/
def resolve (value : String) (scopes : List Scope) (file : Path) (field : String) :
    Except DocumentError String :=
  let trimmed := trim value.toList
  match trimmed with
  | '\x5c' :: literal => .ok (String.ofList literal)
  | _ =>
      match parse? trimmed with
      | none => .ok value
      | some (name, key) =>
          let reference := String.ofList trimmed
          let importName := String.ofList name
          let keyText := String.ofList key
          match lookup importName scopes with
          | none => .error ⟨file, some field, .unknownValueImport reference importName⟩
          | some set =>
              match set.get? keyText with
              | some variation => .ok variation.value
              | none => .error ⟨file, some field, .unknownValueKey reference keyText importName⟩

end ValueRef

end PromptLoom
