import Stencil.Text.Quoted
/-!
What can be wrong with a template or a page, and how each fault is told.
-/
namespace Stencil.Markup

/-- Faults of the block of document values at the top of a page. -/
inductive FrontmatterError where
  | unclosed
  | invalidYaml
  deriving DecidableEq, Repr

/-- Faults of markup. -/
inductive Error where
  | invalidTemplateId (id : String)
  | reservedName (id : String)
  | missingTemplate
  | multipleTemplates (count : Nat)
  | duplicateSlot (name : String)
  | frontmatter (cause : FrontmatterError)
  deriving DecidableEq, Repr

def FrontmatterError.message : FrontmatterError → String
  | .unclosed => "Unclosed frontmatter block - missing closing ---"
  | .invalidYaml => "Invalid YAML in frontmatter"

def Error.message : Error → String
  | .invalidTemplateId id =>
    "Invalid template id " ++ Text.quoted id ++
      ": must be a lowercase custom element name containing a hyphen"
  | .reservedName id => "Template id " ++ Text.quoted id ++ " is a reserved element name"
  | .missingTemplate => "Missing <template> element"
  | .multipleTemplates count =>
    "Expected exactly one <template> element, found " ++ toString count
  | .duplicateSlot name => "Duplicate slot name " ++ Text.quoted name
  | .frontmatter cause => "Frontmatter error: " ++ cause.message

end Stencil.Markup
