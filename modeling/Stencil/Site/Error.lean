import Stencil.Collection.Basic
import Stencil.Component.Error
import Stencil.Files.Enumerate
/-!
Why a site cannot be loaded, compiled or saved.
-/
namespace Stencil

inductive SiteError where
  | files (cause : EnumerateError)
  | unwritable (path : String)
  | collection (cause : CollectionError Markup.Error)
  | compile (page : String) (cause : CompileError)
  /-- The path is neither below the pages nor below the templates. -/
  | unwatched (path : String)
  | duplicatePlugin (name : String)
  deriving Repr

def EnumerateError.message : EnumerateError → String
  | .missingDirectory dir => "Directory not found: " ++ dir
  | .unreadable path => "Failed to read " ++ path

def SiteError.message : SiteError → String
  | .files cause => cause.message
  | .unwritable path => "Failed to write " ++ path
  | .collection cause => cause.message Markup.Error.message
  | .compile page cause => "Failed to compile " ++ page ++ ": " ++ cause.message
  | .unwatched path => path ++ " is outside the page and template directories"
  | .duplicatePlugin name => "Plugin " ++ Text.quoted name ++ " is registered twice"

end Stencil
