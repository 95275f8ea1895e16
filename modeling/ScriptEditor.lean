import ScriptEditor.Main
import ScriptEditor.Proofs.Indent.Body
import ScriptEditor.Proofs.Indent.Level
import ScriptEditor.Proofs.Indent.Nesting
import ScriptEditor.Proofs.Indent.Aligned
import ScriptEditor.Proofs.Document.PageEnd
import ScriptEditor.Proofs.Editor.Entering
import ScriptEditor.Proofs.Document.Content
import ScriptEditor.Proofs.Document.Timeline
import ScriptEditor.Proofs.Editor.IndentEdits
import ScriptEditor.Proofs.Document.WholePage
import ScriptEditor.Proofs.Editor.IndentAll
import ScriptEditor.Proofs.Editor.Reachable
import ScriptEditor.Proofs.Editor.IndentOnly
import ScriptEditor.Proofs.Document.Between
import ScriptEditor.Proofs.Editor.BreakText
import ScriptEditor.Proofs.Editor.OneStep
import ScriptEditor.Proofs.Window.Unsaved
import ScriptEditor.Proofs.Preferences.Stored
import ScriptEditor.Proofs.Window.InStep
import ScriptEditor.Proofs.Window.Reopened
import ScriptEditor.Proofs.Editor.CursorPlaces
import ScriptEditor.Proofs.Editor.WellFormed
import ScriptEditor.Proofs.Text.Halves
import ScriptEditor.Proofs.Text.Runs
import ScriptEditor.Proofs.Text.IdentifierAt
import ScriptEditor.Proofs.Document.Places
import ScriptEditor.Proofs.Document.Sound
import ScriptEditor.Proofs.Indent.Reach
import ScriptEditor.Proofs.Editor.SelectionLayout
import ScriptEditor.Proofs.Window.GivenUp
import ScriptEditor.Proofs.Window.Status
import ScriptEditor.Proofs.Indent.Dependence
import ScriptEditor.Proofs.Editor.IndentOnce
import ScriptEditor.Proofs.Script.Quotes
import ScriptEditor.Proofs.Script.Grammar
import ScriptEditor.Proofs.Script.TableOrder
import ScriptEditor.Proofs.Indent.Outdent
import ScriptEditor.Proofs.Indent.Faults
import ScriptEditor.Proofs.Indent.TabStops
import ScriptEditor.Proofs.Editor.CursorFollows
import ScriptEditor.Proofs.Highlight.Strings
import ScriptEditor.Proofs.Highlight.Painted
import ScriptEditor.Proofs.Highlight.LeadingWord
import ScriptEditor.Proofs.Highlight.Numbers
import ScriptEditor.Proofs.Highlight.Apart
import ScriptEditor.Proofs.Preferences.Loaded
import ScriptEditor.Proofs.Number.WholeText
import ScriptEditor.Proofs.Preferences.Whole
