import FeatureAlignment.Failure
import FeatureAlignment.Template.Reader

/-!
# Rendering templates

* `Template.Query.eval?` gives the value of an expression, `Template.Part.render?`
  the text of a part; there is none where a value cannot be used as asked.
* `MappingDocument.renderWith` lays out a document by a template.
-/

namespace FeatureAlignment

namespace Template

/-- The values that names stand for, the innermost first. -/
abbrev Scope : Type := List (String × Value)

/-- A filter applied to a value. The only filter writes text as character data. -/
def applyFilter? (filter : String) : Value → Option Value
  | .text s => if filter = "xml" then some (.text (Xml.escape s)) else none
  | _ => none

/-- **The value of an expression.** -/
def Query.eval? (scope : Scope) : Query → Option Value
  | .path name fields =>
    fields.foldlM (fun v field => v.field? field) ((scope.lookup name).getD .missing)
  | .filtered filter q => (q.eval? scope).bind (applyFilter? filter)
  | .either first second => do
    let v ← first.eval? scope
    if v.isTrue then some v else second.eval? scope

mutual

/-- **The text of a part.** -/
def Part.render? (scope : Scope) : Part → Option String
  | .text s => some s
  | .output q => (q.eval? scope).map Value.display
  | .loop name range body => do
    let items ← (← range.eval? scope).items?
    let texts ← items.mapM (fun item => renderParts? ((name, item) :: scope) body)
    some (Text.concat texts)
  | .branch condition body => do
    let v ← condition.eval? scope
    if v.isTrue then renderParts? scope body else some ""

/-- The text of parts, one after the other. -/
def renderParts? (scope : Scope) : List Part → Option String
  | [] => some ""
  | p :: ps => do
    let text ← p.render? scope
    let rest ← renderParts? scope ps
    some (text ++ rest)

end

end Template

/-- **A document laid out by a template text.** -/
def MappingDocument.renderWith (template : String) (d : MappingDocument) : Except Failure String :=
  match (Template.read? template).bind (Template.renderParts? d.templateFields) with
  | some s => .ok s
  | none => .error .template

end FeatureAlignment
