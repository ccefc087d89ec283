import Stencil.Json.Reader
import Stencil.Json.Writer
import Stencil.Markup.Template
import Stencil.Markup.Entity
import Stencil.Markup.Frontmatter
import Stencil.Text.Capital
import Stencil.Text.Word
import Stencil.Collection.Basic
import Stencil.Component.Client
import Stencil.Component.Expansion
import Stencil.Files.Enumerate
import Stencil.Script.Action
import Stencil.Script.Convert
import Stencil.Script.Evaluate
import Stencil.Script.Library.Basic
import Stencil.Script.Library.Catalog
import Stencil.Script.Link
import Stencil.Script.Machine
import Stencil.Script.Module
import Stencil.Script.Realm
import Stencil.Script.Sandbox
import Stencil.Site.Basic
import Stencil.Site.Change
import Stencil.Site.Scaffold
import Stencil.Site.Settings
import Stencil.Proofs.Expansion.Run
import Stencil.Proofs.Expansion.Context
import Stencil.Proofs.Markup.Custom
import Stencil.Proofs.Expansion.Reach
import Stencil.Proofs.Collection.Usage
import Stencil.Proofs.Collection.Sound
import Stencil.Proofs.Site.Reached
import Stencil.Proofs.Files.Path
import Stencil.Proofs.Site.Dependents
import Stencil.Proofs.Files.Place
import Stencil.Proofs.Files.Listing
import Stencil.Proofs.Collection.Edit
import Stencil.Proofs.Site.Loading
import Stencil.Proofs.Site.Changes
import Stencil.Proofs.Site.ChangeOrder
import Stencil.Proofs.Collection.Index
import Stencil.Proofs.Collection.Roster
import Stencil.Proofs.Expansion.Exhaustive
import Stencil.Proofs.Markup.Reread
import Stencil.Proofs.Markup.Built
import Stencil.Proofs.Expansion.Stamp
import Stencil.Proofs.Component.Client
import Stencil.Proofs.Site.Output
import Stencil.Proofs.Site.History
import Stencil.Proofs.Expansion.Loop
import Stencil.Proofs.Markup.Filtered
import Stencil.Proofs.Collection.Handle
import Stencil.Proofs.Component.Payload
import Stencil.Proofs.Component.Mention
import Stencil.Proofs.Expansion.Lossless
import Stencil.Proofs.Component.Decoding
import Stencil.Proofs.Site.Removal
import Stencil.Proofs.Expansion.Instance
import Stencil.Proofs.Site.Walk
import Stencil.Proofs.Expansion.Simultaneous
import Stencil.Proofs.Script.Link
import Stencil.Proofs.Markup.OffsetTexts
import Stencil.Proofs.Markup.Reference
import Stencil.Proofs.Markup.Escaped
import Stencil.Proofs.Markup.Edits
import Stencil.Proofs.Expansion.Spelling
import Stencil.Proofs.Expansion.References
import Stencil.Proofs.Expansion.Forwarding
import Stencil.Proofs.Markup.Naming
import Stencil.Proofs.Markup.Delimiter
import Stencil.Proofs.Site.Format
import Stencil.Proofs.Markup.Notes
import Stencil.Proofs.Markup.Verbatim
import Stencil.Proofs.Script.PluginModule
