import SimpleRest.Spec.UrlParser
import SimpleRest.TargetGrammar
import SimpleRest.TargetParser
import SimpleRest.QueryDecoding
import SimpleRest.Spec.Connection
import SimpleRest.HeadParsing
import SimpleRest.HeadFields
import SimpleRest.ResponseFraming
import SimpleRest.Spec.Restful
import SimpleRest.Lib.FirstMatch
import SimpleRest.RouteMatching
import SimpleRest.Routing
import SimpleRest.HandlerOutcome
import SimpleRest.HeadTruncation
import SimpleRest.BodyReading
import SimpleRest.Spec.Server
import SimpleRest.ServerSteps
import SimpleRest.Shutdown
import SimpleRest.AcceptorPresence
import SimpleRest.StartStop
import SimpleRest.Lib.KeyIndex
import SimpleRest.Registry
import SimpleRest.Cpp.File
import SimpleRest.Spec.SendFile
import SimpleRest.FileSending
import SimpleRest.EndCall
import SimpleRest.Lib.Template
import SimpleRest.PathParts
import SimpleRest.RouteTemplates
import SimpleRest.BodyPrefix
import SimpleRest.Lib.Cut
import SimpleRest.ResponseDecoding
import SimpleRest.UnroutedAnswer
import SimpleRest.MimeTable
import SimpleRest.FileTypes
import SimpleRest.ContentTypes
import SimpleRest.Redirecting
import SimpleRest.ParameterSafety
import SimpleRest.PathAlphabet
import SimpleRest.RequestLine
import SimpleRest.SubMatchLoop
import SimpleRest.Lib.Progress
import SimpleRest.Spec.System
import SimpleRest.JobSteps
import SimpleRest.Serving
import SimpleRest.Draining
import SimpleRest.StopProgress
import SimpleRest.Availability
import SimpleRest.BodyTiming
import SimpleRest.Lib.TemplateOrder
import SimpleRest.RouteChoice
import SimpleRest.RouteOrder
import SimpleRest.Delivery
import SimpleRest.Exchange
import SimpleRest.Spec.RequestBody
import SimpleRest.Upload
import SimpleRest.Spec.Throwing
import SimpleRest.FileRoutes
import SimpleRest.Spec.Program
import SimpleRest.Catching
import SimpleRest.Termination
import SimpleRest.Lib.SelfDelimiting
import SimpleRest.Spec.Serialized
import SimpleRest.Conversation
