import Stencil.Component.Client
import Stencil.Component.Library
import Stencil.Script.Sandbox
/-!
Plugins. A plugin may give templates, a function for behavior scripts and code for every page, and
it may keep documents out of the collections.
-/
namespace Stencil

structure Plugin where
  name : String
  method : Option Script.PluginMethod := none
  templates : List Record := []
  client : Option ClientModule := none
  /-- Lets a page in. -/
  acceptsPage : Item Markup.Page → Bool := fun _ => true
  /-- Lets a page take the place of an earlier one. -/
  acceptsPageUpdate : Item Markup.Page → Item Markup.Page → Bool := fun _ next => acceptsPage next
  acceptsTemplate : Item Component → Bool := fun _ => true
  acceptsTemplateUpdate : Item Component → Item Component → Bool :=
    fun _ next => acceptsTemplate next

/-- Documents that every plugin lets in. -/
def Schema.guarded {α ε : Type} (s : Schema α ε) (plugins : List Plugin)
    (accepts : Plugin → Item α → Bool) (acceptsUpdate : Plugin → Item α → Item α → Bool) :
    Schema α ε :=
  { s with
    beforeSet item := if plugins.all (accepts · item) then s.beforeSet item else .skip
    beforeUpdate old next :=
      if plugins.all (acceptsUpdate · old next) then s.beforeUpdate old next else .skip }

end Stencil
