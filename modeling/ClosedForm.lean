import ClosedForm.CommandLine.Serve
import ClosedForm.Expr.Alike
import ClosedForm.Main
import ClosedForm.Proofs.Simplify
import ClosedForm.Proofs.Binary64.Integers
import ClosedForm.Proofs.IntegerValued
import ClosedForm.Proofs.Document.Polynomial
import ClosedForm.Proofs.Expr.Budget
import ClosedForm.Proofs.Expr.Estimate
import ClosedForm.Proofs.Expr.Nameless
import ClosedForm.Proofs.Document.Rounding
import ClosedForm.Proofs.Json.Extent
import ClosedForm.Proofs.Samples
import ClosedForm.Proofs.Server.Counting
import ClosedForm.Proofs.Server.ToolRoute
import ClosedForm.Proofs.Tool.Checking
import ClosedForm.Proofs.Poly.Canonical
import ClosedForm.Proofs.Poly.Semiring
import ClosedForm.Proofs.Expr.Renaming
import ClosedForm.Proofs.Expr.Printed
import ClosedForm.Proofs.Poly.Rendering
import ClosedForm.Proofs.Expr.Substitution
import ClosedForm.Proofs.Expr.Construction
import ClosedForm.Proofs.Poly.Exact
import ClosedForm.Proofs.Poly.Digest
import ClosedForm.Proofs.Error.Concatenation
import ClosedForm.Proofs.Yaml.Documents
