import Transpiler.Diagnostic.Abort
import Transpiler.Diagnostic.Basic

/-!
Contract: why a statement has no generated code.

A failure names the generator, the rule that had no answer and the kind of node it
was given; the three joined by slashes are the path that messages show.
-/

namespace Transpiler

/-- Where generation failed. -/
structure FailureSite where
  /-- The path of the generator. -/
  generator : String
  /-- The rule that had no answer. -/
  category : String
  /-- The kind of node that the rule was given. -/
  kindName : String
  span : Span
deriving DecidableEq, Repr

def FailureSite.path (site : FailureSite) : String :=
  site.generator ++ "/" ++ site.category ++ "/" ++ site.kindName

inductive GenerationError where
  /-- The rule has no case for the node; `detail` tells more about the node than its kind. -/
  | unsupported (site : FailureSite) (detail : Option String)
  /-- The rule needs a node of another kind. -/
  | malformed (site : FailureSite) (expected : String)
deriving DecidableEq, Repr

namespace GenerationError

def site : GenerationError → FailureSite
  | .unsupported site _ => site
  | .malformed site _ => site

def message : GenerationError → String
  | .unsupported site _ => "Feature not yet supported: " ++ site.path
  | .malformed site _ => "Malformed construct: " ++ site.path

def abortCode : GenerationError → AbortCode
  | .unsupported .. => .unsupportedFeature
  | .malformed .. => .malformedConstruct

/-- The failure as a diagnostic. Nodes that were not read from a source get no label. -/
def diagnostic (error : GenerationError) : Diagnostic :=
  let site := error.site
  let noted :=
    match error with
    | .unsupported _ detail =>
        (Diagnostic.error .unsupportedFeature error.message).withNote
          ("the `" ++ site.category ++ "` rule has no case for `"
            ++ detail.getD site.kindName ++ "`")
    | .malformed _ expected =>
        (Diagnostic.error .malformedConstruct error.message).withNote
          ("expected `" ++ expected ++ "`, found `" ++ site.kindName ++ "`")
  if site.span.isDummy then noted
  else noted.withLabel site.span ("`" ++ site.kindName ++ "` cannot be generated here")

end GenerationError
end Transpiler
