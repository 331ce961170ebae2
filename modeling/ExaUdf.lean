import ExaUdf.Equiv.Admission
import ExaUdf.Equiv.Artifact
import ExaUdf.Equiv.Attribution
import ExaUdf.Equiv.Boundary
import ExaUdf.Equiv.Closing
import ExaUdf.Equiv.Delivery
import ExaUdf.Equiv.EmitPack
import ExaUdf.Equiv.Ending
import ExaUdf.Equiv.Estimate
import ExaUdf.Equiv.Failure
import ExaUdf.Equiv.FastParse
import ExaUdf.Equiv.InputRows
import ExaUdf.Equiv.Iteration
import ExaUdf.Equiv.Ledger
import ExaUdf.Equiv.Literal
import ExaUdf.Equiv.Lockstep
import ExaUdf.Equiv.Payload
import ExaUdf.Equiv.Pings
import ExaUdf.Equiv.Proto
import ExaUdf.Equiv.ProtocolRun
import ExaUdf.Equiv.Rehearsal
import ExaUdf.Equiv.Returns
import ExaUdf.Equiv.SchemaCheck
import ExaUdf.Equiv.SingleCall
import ExaUdf.Equiv.SpecJson
import ExaUdf.Equiv.StringBlock
import ExaUdf.Equiv.Teardown
import ExaUdf.Equiv.TestContext
import ExaUdf.Equiv.Validate
import ExaUdf.Equiv.Writers
