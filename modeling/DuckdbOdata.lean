import DuckdbOdata.Auth.BearerToken
import DuckdbOdata.Common.IndexedQuery
import DuckdbOdata.Common.StdLib
import DuckdbOdata.Common.StringUtil
import DuckdbOdata.Compiler.ExpressionCompiler
import DuckdbOdata.Compiler.SqlCompiler
import DuckdbOdata.Execution.Database
import DuckdbOdata.Execution.IndexedEncoder
import DuckdbOdata.Execution.Ledger
import DuckdbOdata.Execution.QueryExecutor
import DuckdbOdata.Execution.ResultSerializer
import DuckdbOdata.Execution.Store
import DuckdbOdata.Execution.WriteExecutor
import DuckdbOdata.Foundation.Base64
import DuckdbOdata.Foundation.Binary64
import DuckdbOdata.Foundation.DecimalPlaces
import DuckdbOdata.Foundation.HttpMessage
import DuckdbOdata.Foundation.Instances
import DuckdbOdata.Foundation.Interleaving
import DuckdbOdata.Foundation.JsonFailures
import DuckdbOdata.Foundation.JsonReader
import DuckdbOdata.Foundation.Listings
import DuckdbOdata.Foundation.Lookahead
import DuckdbOdata.Foundation.NearestDouble
import DuckdbOdata.Foundation.Program
import DuckdbOdata.Foundation.Reading
import DuckdbOdata.Foundation.Recorded
import DuckdbOdata.Foundation.Run
import DuckdbOdata.Foundation.SqlChange
import DuckdbOdata.Foundation.SqlGrammar
import DuckdbOdata.Foundation.SqlLexer
import DuckdbOdata.Foundation.SqlLogic
import DuckdbOdata.Foundation.SqlParameters
import DuckdbOdata.Foundation.SqlPrecedence
import DuckdbOdata.Foundation.SqlSelect
import DuckdbOdata.Foundation.Substrings
import DuckdbOdata.Foundation.Text
import DuckdbOdata.Foundation.TextSearch
import DuckdbOdata.Foundation.Trimming
import DuckdbOdata.Foundation.Upsert
import DuckdbOdata.Foundation.XmlReader
import DuckdbOdata.Metadata.EdmModel
import DuckdbOdata.Metadata.MetadataGenerator
import DuckdbOdata.Parser.Ast
import DuckdbOdata.Parser.IndexedParser
import DuckdbOdata.Parser.Lexer
import DuckdbOdata.Parser.ODataParser
import DuckdbOdata.Proofs.Addressing
import DuckdbOdata.Proofs.AdvertisedUrls
import DuckdbOdata.Proofs.Base64RoundTrip
import DuckdbOdata.Proofs.BearerTokens
import DuckdbOdata.Proofs.BodyFraming
import DuckdbOdata.Proofs.CompileCalls
import DuckdbOdata.Proofs.Concurrency
import DuckdbOdata.Proofs.Configuration
import DuckdbOdata.Proofs.Confinement
import DuckdbOdata.Proofs.ConnectionThreads
import DuckdbOdata.Proofs.DoubleTexts
import DuckdbOdata.Proofs.Entities
import DuckdbOdata.Proofs.EntityNames
import DuckdbOdata.Proofs.Exposure
import DuckdbOdata.Proofs.Extensions
import DuckdbOdata.Proofs.FilterDepth
import DuckdbOdata.Proofs.FilterErrors
import DuckdbOdata.Proofs.FilterGrammar
import DuckdbOdata.Proofs.FilterPrinting
import DuckdbOdata.Proofs.HandlerCalls
import DuckdbOdata.Proofs.HttpTargets
import DuckdbOdata.Proofs.JsonBodies
import DuckdbOdata.Proofs.JsonEscapes
import DuckdbOdata.Proofs.JsonTexts
import DuckdbOdata.Proofs.KeyReferences
import DuckdbOdata.Proofs.KeyRoutes
import DuckdbOdata.Proofs.Lexemes
import DuckdbOdata.Proofs.LexerRoundTrip
import DuckdbOdata.Proofs.LiteralFidelity
import DuckdbOdata.Proofs.LiteralTypes
import DuckdbOdata.Proofs.LocationRoundTrip
import DuckdbOdata.Proofs.MetadataDocument
import DuckdbOdata.Proofs.MetadataReading
import DuckdbOdata.Proofs.NestedTypes
import DuckdbOdata.Proofs.NextLinks
import DuckdbOdata.Proofs.NullSemantics
import DuckdbOdata.Proofs.Numerals
import DuckdbOdata.Proofs.Paging
import DuckdbOdata.Proofs.ParserProgress
import DuckdbOdata.Proofs.PathDecoding
import DuckdbOdata.Proofs.PayloadNames
import DuckdbOdata.Proofs.Precedence
import DuckdbOdata.Proofs.QueryStrings
import DuckdbOdata.Proofs.Quiescence
import DuckdbOdata.Proofs.RecursionDepth
import DuckdbOdata.Proofs.RegistrationChecks
import DuckdbOdata.Proofs.Registrations
import DuckdbOdata.Proofs.ReportedTables
import DuckdbOdata.Proofs.RequestEffects
import DuckdbOdata.Proofs.RequestHeads
import DuckdbOdata.Proofs.ResponseSizes
import DuckdbOdata.Proofs.ResponseWires
import DuckdbOdata.Proofs.Responses
import DuckdbOdata.Proofs.Routes
import DuckdbOdata.Proofs.Segmentation
import DuckdbOdata.Proofs.SelectStatements
import DuckdbOdata.Proofs.SelectedNames
import DuckdbOdata.Proofs.SelectedRows
import DuckdbOdata.Proofs.ServedResponses
import DuckdbOdata.Proofs.ServerAddresses
import DuckdbOdata.Proofs.SqlContents
import DuckdbOdata.Proofs.SqlStatements
import DuckdbOdata.Proofs.SqlTokens
import DuckdbOdata.Proofs.StringFunctions
import DuckdbOdata.Proofs.TableReferences
import DuckdbOdata.Proofs.Validation
import DuckdbOdata.Proofs.Watchdogs
import DuckdbOdata.Proofs.WriteAlignment
import DuckdbOdata.Proofs.WriteAtomicity
import DuckdbOdata.Proofs.WritePlans
import DuckdbOdata.Proofs.WriteStatements
import DuckdbOdata.Proofs.WrittenRows
import DuckdbOdata.Server.Admission
import DuckdbOdata.Server.ConnectionThread
import DuckdbOdata.Server.Endpoint
import DuckdbOdata.Server.Extension
import DuckdbOdata.Server.HttpRequest
import DuckdbOdata.Server.HttpResponse
import DuckdbOdata.Server.HttpServer
import DuckdbOdata.Server.Lifecycle
import DuckdbOdata.Server.ODataServer
import DuckdbOdata.Server.Registry
import DuckdbOdata.Server.Routing
