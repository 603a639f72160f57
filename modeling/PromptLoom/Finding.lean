import PromptLoom.Error

/-!
# Findings and reports

A finding is an error or a warning about a file. A report lists findings in the order in which they
were made, each once: a finding that is already listed adds nothing.
-/

namespace PromptLoom

set_option autoImplicit false

inductive Severity where
  | error
  | warning
  deriving Repr, DecidableEq, Inhabited

def Severity.label : Severity → String
  | error => "error"
  | warning => "warning"

structure Finding where
  severity : Severity
  category : Category
  file : Path
  field : Option String
  message : String
  deriving Repr, DecidableEq, Inhabited

inductive Notice where
  | bodyReplaced (parent : Path)
  | negativeReplaced (parent : Path)
  | chunkBodyReplaced (parent : Path)
  | untypedParent (parent : Path) (childType : String)
  | lorasNotRendered
  | bindingNotUsed (param chunk : String)
  deriving Repr, DecidableEq

namespace Notice

def category : Notice → Category
  | bodyReplaced _ | negativeReplaced _ | chunkBodyReplaced _ | untypedParent _ _ => .inheritance
  | lorasNotRendered | bindingNotUsed _ _ => .template

def message : Notice → String
  | bodyReplaced parent =>
      parent.text ++ " has no " ++ Cause.braced "prompt" ++
        " marker; this body replaces it entirely"
  | negativeReplaced parent =>
      parent.text ++ " has no " ++ Cause.braced "negprompt" ++
        " marker; this negative prompt replaces it entirely"
  | chunkBodyReplaced parent => "this body replaces the body of " ++ parent.text ++ " entirely"
  | untypedParent parent childType =>
      "parent " ++ parent.text ++ s!" has no type; inferred `{childType}` from this chunk"
  | lorasNotRendered => "loras are declared but no body renders " ++ Cause.braced "loras"
  | bindingNotUsed param chunk => s!"binding `{param}` is not used by chunk `{chunk}`"

def finding (notice : Notice) (file : Path) (field : String) : Finding :=
  ⟨.warning, notice.category, file, some field, notice.message⟩

end Notice

namespace Finding

def ofError (error : DocumentError) : Finding :=
  ⟨.error, error.category, error.file, error.field, error.message⟩

def isError (finding : Finding) : Bool := finding.severity == .error

/-- Whether two findings say the same. Files are compared by the components of their paths. -/
def agrees (a b : Finding) : Bool :=
  a.severity == b.severity && a.category == b.category && a.file.agrees b.file &&
    a.field == b.field && a.message == b.message

def display (finding : Finding) : String :=
  let place := match finding.field with
    | some field => " (" ++ field ++ ")"
    | none => ""
  finding.severity.label ++ " [" ++ finding.category.label ++ "] " ++ finding.file.text ++ place ++
    ": " ++ finding.message

end Finding

structure Report where
  findings : List Finding
  deriving Repr, DecidableEq, Inhabited

namespace Report

def empty : Report := ⟨[]⟩

/-- Adds a finding unless it is listed. -/
def push (report : Report) (finding : Finding) : Report :=
  if report.findings.any finding.agrees then report else ⟨report.findings ++ [finding]⟩

def extend (report : Report) (findings : List Finding) : Report := findings.foldl push report

def error (report : Report) (error : DocumentError) : Report := report.push (.ofError error)

def errors (report : Report) (errors : List DocumentError) : Report :=
  report.extend (errors.map .ofError)

def hasErrors (report : Report) : Bool := report.findings.any Finding.isError

def errorCount (report : Report) : Nat := (report.findings.filter Finding.isError).length

def warningCount (report : Report) : Nat :=
  (report.findings.filter fun finding => !finding.isError).length

def inCategory (report : Report) (category : Category) : List Finding :=
  report.findings.filter fun finding => finding.category == category

end Report

end PromptLoom
