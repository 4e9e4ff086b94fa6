import Flowchart.Text.Character
import Flowchart.Text.Word
import Flowchart.Text.Path
import Flowchart.Fault
import Flowchart.Datum
import Flowchart.Line
import Flowchart.Diagram.Reading
import Flowchart.Diagram.Writing
import Flowchart.LinkStyle
import Flowchart.NodeId
import Flowchart.Graph
import Flowchart.Edit
import Flowchart.Link
import Flowchart.Validation
import Flowchart.Thumbnail
import Flowchart.Render
import Flowchart.Session
import Flowchart.Proofs.Classification
import Flowchart.Proofs.EdgeLines
import Flowchart.Proofs.WrittenLines
import Flowchart.Proofs.EdgeNumbers
import Flowchart.Proofs.ModelReading
import Flowchart.Proofs.Rebuilding
import Flowchart.Proofs.FreshIds
import Flowchart.Proofs.EditSteps
import Flowchart.Proofs.Creation
import Flowchart.Proofs.EdgeIds
import Flowchart.Proofs.EdgeRemoval
import Flowchart.Proofs.Deletion
import Flowchart.Proofs.Incidence
import Flowchart.Proofs.Decimals
import Flowchart.Proofs.StyleLines
import Flowchart.Proofs.EdgeStyles
import Flowchart.Proofs.NodeStyles
import Flowchart.Proofs.NodeUpdate
import Flowchart.Proofs.EdgeUpdate
import Flowchart.Proofs.DirectiveShift
import Flowchart.Proofs.UntargetedLines
import Flowchart.Proofs.Runs
import Flowchart.Proofs.ShapeCoding
import Flowchart.Proofs.ModelWriting
import Flowchart.Proofs.FiniteWidths
import Flowchart.Proofs.ReadingFaults
import Flowchart.Proofs.NodeLines
import Flowchart.Proofs.EditFaults
import Flowchart.Proofs.SavedTexts
import Flowchart.Proofs.SessionCourse
import Flowchart.Proofs.Revisions
import Flowchart.Proofs.Octets
import Flowchart.Proofs.SharedLinks
import Flowchart.Proofs.Announcements
import Flowchart.Proofs.AnnouncementOrder
import Flowchart.Proofs.LateOverlays
import Flowchart.Proofs.SuccessiveRemovals
import Flowchart.Proofs.LineOrder
import Flowchart.Proofs.Idempotence
import Flowchart.Proofs.LabelGuards
import Flowchart.Proofs.Withdrawal
import Flowchart.Proofs.GraphView
import Flowchart.Proofs.TopologicalOrder
import Flowchart.Proofs.Clicks
import Flowchart.Proofs.ThumbnailBounds
import Flowchart.Proofs.EdgeAddresses
import Flowchart.Proofs.RejectedEdits
