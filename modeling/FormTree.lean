import FormTree.Action.Describe
import FormTree.Proofs.Action.Cancelling
import FormTree.Proofs.Action.Independence
import FormTree.Proofs.Action.Padding
import FormTree.Proofs.Attribute.Ordering
import FormTree.Proofs.Attribute.Reports
import FormTree.Proofs.Data.Interchange
import FormTree.Proofs.Document.Addressing
import FormTree.Proofs.Document.Clashes
import FormTree.Proofs.Document.Grammar
import FormTree.Proofs.Editing.Additions
import FormTree.Proofs.Editing.Lookups
import FormTree.Proofs.Editing.Removal
import FormTree.Proofs.Editing.Validation
import FormTree.Proofs.Execution.Aggregation
import FormTree.Proofs.Execution.Course
import FormTree.Proofs.Execution.Ending
import FormTree.Proofs.Execution.Following
import FormTree.Proofs.Execution.Isolation
import FormTree.Proofs.Execution.Registering
import FormTree.Proofs.Validity.Mirror
import FormTree.Session.Run
import FormTree.Session.Values
import FormTree.Settings.Reader
