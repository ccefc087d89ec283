import Stencil.Markup.Sites
/-!
How a site is built.
-/
namespace Stencil

structure SiteConfig where
  pagesDir : String := "pages"
  templatesDir : String := "templates"
  outputDir : String := "dist"
  /-- Scripts of pages are shortened. -/
  minify : Bool := true
  /-- How many milliseconds a behavior script may take. -/
  scriptBudget : Nat := 5000
  /-- How many bytes of memory a behavior script may take. -/
  scriptMemory : Nat := 32 * 1024 * 1024
  ignore : List Markup.IgnoreRule := []
  /-- Names of files and directories that are left out. -/
  exclude : List String := []

/-- Extensions of templates. -/
def templateExtensions : List String := ["html"]

/-- Extensions of pages. -/
def pageExtensions : List String := ["html", "htm", "md", "markdown"]

/-- Extensions of script files that templates may import. -/
def scriptExtensions : List String := ["js", "mjs", "json"]

end Stencil
