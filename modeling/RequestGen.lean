import RequestGen.Main
import RequestGen.Record.Catalogue
import RequestGen.Proofs.Request.Senders
import RequestGen.Proofs.Request.LiteralOptions
import RequestGen.Proofs.Request.Convention
import RequestGen.Proofs.Distinct
import RequestGen.Proofs.Group.Results
import RequestGen.Proofs.Request.LocalNames
import RequestGen.Proofs.Request.CallerOptions
import RequestGen.Proofs.Request.RestFields
import RequestGen.Proofs.Group.StatusTypes
import RequestGen.Proofs.Group.FactoryExports
import RequestGen.Proofs.Group.Histories
import RequestGen.Proofs.Reference.Chain
import RequestGen.Proofs.Reference.Passes
import RequestGen.Proofs.Reference.Marks
import RequestGen.Proofs.Reference.LookAlikes
import RequestGen.Proofs.Request.ParameterDocuments
import RequestGen.Proofs.Group.SecondParameter
import RequestGen.Proofs.Group.PackageImports
import RequestGen.Proofs.Group.ImportClashes
import RequestGen.Proofs.Group.DeclaredNames
import RequestGen.Proofs.Job.Loading
import RequestGen.Proofs.Group.Documents
import RequestGen.Proofs.Request.HookFunctions
import RequestGen.Proofs.Command.Faults
import RequestGen.Proofs.Request.SentBody
import RequestGen.Proofs.Request.GatheredNames
import RequestGen.Proofs.Request.RouteNames
import RequestGen.Proofs.Request.SharedParameters
import RequestGen.Proofs.Request.RenamedBody
import RequestGen.Proofs.Request.WrappedBody
import RequestGen.Proofs.Request.MergedOptions
import RequestGen.Proofs.Request.FetchInit
import RequestGen.Proofs.Code.UniqueLiterals
import RequestGen.Proofs.Request.ConfigEntries
import RequestGen.Proofs.Request.PropertyNames
import RequestGen.Proofs.Code.LineEnds
import RequestGen.Proofs.Request.ObjectEntries
import RequestGen.Proofs.Request.BindingNames
import RequestGen.Proofs.Group.DeclaredIdentifiers
import RequestGen.Proofs.Client.ReferencedExports
import RequestGen.Proofs.Group.CollectedImports
import RequestGen.Proofs.Group.DefaultStatuses
import RequestGen.Proofs.Client.TableHistories
import RequestGen.Proofs.Naming.WordSplits
import RequestGen.Proofs.Reference.PointerTexts
import RequestGen.Proofs.Request.ParameterOrder
import RequestGen.Proofs.Naming.Recasing
import RequestGen.Proofs.Request.GatheredPathParams
import RequestGen.Proofs.Request.RouteTemplates
