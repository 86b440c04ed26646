import DefinitionTree.Main
import DefinitionTree.Definition.Hooks
import DefinitionTree.Schema.Draft
import DefinitionTree.Proofs.Canonical.Checked
import DefinitionTree.Proofs.Canonical.Extension
import DefinitionTree.Proofs.Canonical.Form
import DefinitionTree.Proofs.Canonical.Presence
import DefinitionTree.Proofs.Canonical.Residue
import DefinitionTree.Proofs.Canonical.Resolution
import DefinitionTree.Proofs.Canonical.Stable
import DefinitionTree.Proofs.Definition.Agreement
import DefinitionTree.Proofs.Definition.KeyOrder
import DefinitionTree.Proofs.Definition.Naming
import DefinitionTree.Proofs.Definition.Rerun
import DefinitionTree.Proofs.Definition.Restoring
import DefinitionTree.Proofs.Definition.RootTag
import DefinitionTree.Proofs.Definition.RoundTrip
import DefinitionTree.Proofs.Definition.Summarizing
import DefinitionTree.Proofs.Definition.Unreadable
import DefinitionTree.Proofs.Json.Canonical
import DefinitionTree.Proofs.Schema.Draft
import DefinitionTree.Proofs.Wire.Union
import DefinitionTree.Proofs.Xml.PlainText
import DefinitionTree.Proofs.Xml.Protection
