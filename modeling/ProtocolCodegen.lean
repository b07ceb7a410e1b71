import ProtocolCodegen.Files.FileTree
import ProtocolCodegen.Main
import ProtocolCodegen.Proofs.Lowering.Transparency
import ProtocolCodegen.Proofs.Lowering.UnionIdentity
import ProtocolCodegen.Proofs.Outline.SharedLedger
import ProtocolCodegen.Proofs.Schema.Reachability
import ProtocolCodegen.Proofs.Schema.Places
import ProtocolCodegen.Proofs.Outline.Flattening
import ProtocolCodegen.Proofs.Lowering.References
import ProtocolCodegen.Proofs.Schema.Closures
import ProtocolCodegen.Proofs.Outline.DeclaredTypes
import ProtocolCodegen.Proofs.Outline.Proposed
import ProtocolCodegen.Proofs.Outline.DocumentOrder
import ProtocolCodegen.Proofs.Files.Preservation
import ProtocolCodegen.Proofs.Outline.TypeNames
import ProtocolCodegen.Proofs.Target.Proto.FieldTypes
import ProtocolCodegen.Proofs.Target.Go.UnionCases
import ProtocolCodegen.Proofs.Outline.InheritedFields
import ProtocolCodegen.Proofs.Lowering.TableForm
import ProtocolCodegen.Proofs.CommandLine.ToldOutput
import ProtocolCodegen.Proofs.Lowering.MemberOrder
import ProtocolCodegen.Proofs.Target.RenderableTypes
import ProtocolCodegen.Proofs.Lowering.HiddenCollections
import ProtocolCodegen.Proofs.Target.Proto.AliasTransparency
import ProtocolCodegen.Proofs.Target.Proto.Endlessness
import ProtocolCodegen.Proofs.Outline.Identifiers
import ProtocolCodegen.Proofs.Target.Proto.Termination
import ProtocolCodegen.Proofs.Lowering.Override
import ProtocolCodegen.Proofs.Outline.Override
import ProtocolCodegen.Proofs.Target.Proto.MessageFields
import ProtocolCodegen.Proofs.Target.Proto.OneofFields
import ProtocolCodegen.Proofs.Target.Proto.EnumNumbers
import ProtocolCodegen.Proofs.Target.Go.StringLiteral
import ProtocolCodegen.Proofs.Target.Kotlin.StringLiteral
import ProtocolCodegen.Proofs.Target.Kotlin.DocComment
import ProtocolCodegen.Proofs.Target.LineComments
import ProtocolCodegen.Proofs.Target.Kotlin.UnionShapes
import ProtocolCodegen.Proofs.Files.SingleWrite
import ProtocolCodegen.Proofs.Target.IntegerConstants
import ProtocolCodegen.Proofs.Target.Go.Imports
import ProtocolCodegen.Proofs.Target.Kotlin.Imports
import ProtocolCodegen.Proofs.Files.Batches
import ProtocolCodegen.Proofs.Target.Proto.AliasWays
import ProtocolCodegen.Proofs.Outline.SinglePass
