import LiveMarkup.Number.Shortest
import LiveMarkup.Text.Quoted
import LiveMarkup.Literal.SegmentReader
import LiveMarkup.Markup.Lexer
import LiveMarkup.Markup.Forest
import LiveMarkup.Markup.Html
import LiveMarkup.Template.Survey
import LiveMarkup.Value.AttributeText
import LiveMarkup.Document.View
import LiveMarkup.Document.Stage
import LiveMarkup.Template.Workshop
import LiveMarkup.Render.Renderer
import LiveMarkup.Proofs.History
import LiveMarkup.Proofs.Lexing
import LiveMarkup.Proofs.Building
import LiveMarkup.Proofs.Rewording
import LiveMarkup.Proofs.Lockstep.Segments
import LiveMarkup.Proofs.Confinement
import LiveMarkup.Proofs.Exposure
import LiveMarkup.Proofs.Genuine
import LiveMarkup.Proofs.Cutting
import LiveMarkup.Proofs.Printing.Draft
import LiveMarkup.Proofs.Printing.Positions
import LiveMarkup.Proofs.Printing.RoundTrip
import LiveMarkup.Proofs.Planting.Commuting
import LiveMarkup.Proofs.Planting.Identity
import LiveMarkup.Proofs.Planting.Isolation
import LiveMarkup.Proofs.Planting.Vacating
import LiveMarkup.Proofs.Workshops
import LiveMarkup.Proofs.Returning
import LiveMarkup.Proofs.Committing
import LiveMarkup.Proofs.Depths
import LiveMarkup.Proofs.Planting.Retending
import LiveMarkup.Proofs.Planting.Rerendering
import LiveMarkup.Proofs.Lockstep.Naming
import LiveMarkup.Proofs.Twins
import LiveMarkup.Proofs.Burial
import LiveMarkup.Proofs.Spots
import LiveMarkup.Proofs.Mattering
import LiveMarkup.Proofs.Acceptance
import LiveMarkup.Proofs.Sharing
import LiveMarkup.Proofs.Planting.Locating
import LiveMarkup.Proofs.Printing.Legible
import LiveMarkup.Proofs.Printing.Rereading
import LiveMarkup.Proofs.Printing.Serialization
import LiveMarkup.Proofs.Limited.Containment
import LiveMarkup.Proofs.Reordering
import LiveMarkup.Proofs.Integrity
import LiveMarkup.Proofs.Shape
import LiveMarkup.Proofs.Touring
import LiveMarkup.Proofs.Splitting
import LiveMarkup.Proofs.Capturing
import LiveMarkup.Proofs.Planting.Attachment
import LiveMarkup.Proofs.Bytes.Keeping
import LiveMarkup.Proofs.Bytes.Joining
