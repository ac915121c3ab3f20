import DocPage.Files.Tree
import DocPage.Main
import DocPage.Proofs.Document.Outline
import DocPage.Proofs.Outline.Forest
import DocPage.Proofs.Render.Headings
import DocPage.Proofs.Tag.Spans
import DocPage.Proofs.Body.RawMarkup
import DocPage.Json.Parse
import DocPage.Proofs.Json.Grammar
import DocPage.Proofs.Dom.Balanced
import DocPage.Proofs.Json.Attribute
import DocPage.Proofs.Render.Braces
import DocPage.Proofs.Render.Frame
import DocPage.Proofs.Render.Composition
import DocPage.Proofs.Dom.Reading
import DocPage.Proofs.Dom.Escaped
import DocPage.Proofs.Markdown.Nesting
import DocPage.Proofs.Render.Markup
import DocPage.Proofs.Tag.Substitute
import DocPage.Proofs.Tag.Residue
import DocPage.Proofs.Body.Comments
import DocPage.Proofs.Body.Sentinel
import DocPage.Proofs.Render.Region
import DocPage.Proofs.Render.Anchors
import DocPage.Proofs.Render.Placeholders
import DocPage.Proofs.Document.Cleanup
import DocPage.Proofs.Document.Passes
import DocPage.Proofs.Document.Regions
import DocPage.Proofs.Document.Restore
import DocPage.Proofs.Document.Conservation
import DocPage.Proofs.Document.TagWeight
import DocPage.Proofs.Document.Wrapping
import DocPage.Proofs.Document.Recursion
import DocPage.Proofs.Document.OutlineScope
import DocPage.Proofs.Config.FileValues
import DocPage.Proofs.Files.Path
import DocPage.Proofs.Config.Precedence
import DocPage.Proofs.Tag.Kind
import DocPage.Proofs.Document.Variants
import DocPage.Proofs.Document.DocstringRecord
import DocPage.Proofs.Json.Pretty
import DocPage.Proofs.Files.Access
import DocPage.Proofs.CommandLine.Outcome
import DocPage.Proofs.Dom.LeadTerm
import DocPage.Proofs.Docstring.Harvest
import DocPage.Proofs.Docstring.BraceGuard
import DocPage.Proofs.Docstring.Markup
import DocPage.Proofs.Base64
import DocPage.Proofs.Text.Lines
import DocPage.Proofs.Component
import DocPage.Proofs.Code.Transcript
import DocPage.Proofs.Code.Payload
import DocPage.Proofs.Document.Excerpt
import DocPage.Proofs.Markdown.Line
import DocPage.Proofs.Markdown.Fence
import DocPage.Proofs.Document.IncludedFence
import DocPage.Proofs.Config.BracedForm
import DocPage.Proofs.Outline.ExplicitAnchor
import DocPage.Proofs.Render.Numbering
import DocPage.Proofs.Render.Paragraph
import DocPage.Proofs.Render.Image
import DocPage.Proofs.Unicode.LowerCase
import DocPage.Proofs.Outline.DerivedAnchor
import DocPage.Proofs.Body.Region
import DocPage.Proofs.Render.Table
import DocPage.Proofs.Render.TextCut
import DocPage.Proofs.Text.Replace
import DocPage.Proofs.Document.DoctestLines
import DocPage.Proofs.Admonition
import DocPage.Proofs.Files.Tree
import DocPage.Proofs.Files.GlobPattern
import DocPage.Proofs.Files.Glob
import DocPage.Proofs.Body.Search
import DocPage.Proofs.Text.Words
import DocPage.Proofs.Document.ImageLinks
