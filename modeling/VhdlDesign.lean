import VhdlDesign.Main
import VhdlDesign.Workspace.Documents
import VhdlDesign.Proofs.Sharing
import VhdlDesign.Proofs.Truth
import VhdlDesign.Proofs.Batch
import VhdlDesign.Proofs.Limits
import VhdlDesign.Proofs.Ending
import VhdlDesign.Proofs.Loading
import VhdlDesign.Proofs.Conservation
import VhdlDesign.Proofs.Verdict
import VhdlDesign.Proofs.Folding
import VhdlDesign.Proofs.Renaming
import VhdlDesign.Proofs.Unread
import VhdlDesign.Proofs.Reordering
import VhdlDesign.Proofs.Reading
import VhdlDesign.Proofs.Transcript
import VhdlDesign.Proofs.Anatomy
import VhdlDesign.Proofs.Regularity
import VhdlDesign.Proofs.Drawing
import VhdlDesign.Proofs.Planting
import VhdlDesign.Build.Context
import VhdlDesign.Proofs.History
import VhdlDesign.Proofs.Walking
import VhdlDesign.Proofs.Collecting
import VhdlDesign.Proofs.Fields
import VhdlDesign.Proofs.Resolution
import VhdlDesign.Proofs.Flattening
import VhdlDesign.Proofs.Rendering
import VhdlDesign.Proofs.Signs
import VhdlDesign.Proofs.Lines
import VhdlDesign.Proofs.Linking
import VhdlDesign.Proofs.Agreement
import VhdlDesign.Proofs.Documents
import VhdlDesign.Proofs.Revision
import VhdlDesign.Proofs.Numbers
import VhdlDesign.Proofs.Quotation
