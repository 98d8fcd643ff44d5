import XMLHttpRequest.Library.Transition
import XMLHttpRequest.Library.Unwinding
import XMLHttpRequest.Library.OrderedMultimap
import XMLHttpRequest.Library.KeyedStore
import XMLHttpRequest.Library.Regex
import XMLHttpRequest.Base.Bytes
import XMLHttpRequest.Base.SessionUtil
import XMLHttpRequest.Http.HeaderToken
import XMLHttpRequest.Http.Message
import XMLHttpRequest.Session.Stream
import XMLHttpRequest.Session.Callbacks
import XMLHttpRequest.Session.StreamView
import XMLHttpRequest.Url.UrlParser
import XMLHttpRequest.Base.JsFunctions
import XMLHttpRequest.Url.Uri
import XMLHttpRequest.Session.Isolation
import XMLHttpRequest.Session.ResponseAssembly
import XMLHttpRequest.Library.Pipe
import XMLHttpRequest.Session.State
import XMLHttpRequest.Session.Operations
import XMLHttpRequest.Session.System
import XMLHttpRequest.Session.Frames
import XMLHttpRequest.Session.Halting
import XMLHttpRequest.Session.Locking
import XMLHttpRequest.Session.Listening
import XMLHttpRequest.Session.Negotiation
import XMLHttpRequest.Session.OutboundStream
import XMLHttpRequest.Request.State
import XMLHttpRequest.Request.Operations
import XMLHttpRequest.Request.System
import XMLHttpRequest.Request.Frames
import XMLHttpRequest.Request.Target
import XMLHttpRequest.Request.Timeout
import XMLHttpRequest.Library.Register
import XMLHttpRequest.Request.ReadyOrder
import XMLHttpRequest.Request.Whole
import XMLHttpRequest.Request.Pointers
import XMLHttpRequest.Request.PostBody
import XMLHttpRequest.Library.Monitor
import XMLHttpRequest.Session.Lifecycle
import XMLHttpRequest.Session.ClosedStreams
import XMLHttpRequest.Request.FailedOpen
import XMLHttpRequest.Session.Queued
import XMLHttpRequest.Session.Closures
import XMLHttpRequest.Session.Pinging
import XMLHttpRequest.Session.SingleFlight
import XMLHttpRequest.Session.StopNotice
import XMLHttpRequest.Session.WriteBuffer
import XMLHttpRequest.Request.Answers
import XMLHttpRequest.Request.Recording
import XMLHttpRequest.Request.OwnResponse
import XMLHttpRequest.Base.Alpn
import XMLHttpRequest.Library.Outcome
import XMLHttpRequest.Library.Spelling
import XMLHttpRequest.Library.Base64
import XMLHttpRequest.Base.PercentCoding
import XMLHttpRequest.Base.Base64Text
import XMLHttpRequest.Request.SubmitReport
import XMLHttpRequest.Session.Requests
import XMLHttpRequest.Request.Submissions
import XMLHttpRequest.Request.Methods
import XMLHttpRequest.Library.RegexRules
import XMLHttpRequest.Library.RegexLanguage
import XMLHttpRequest.Url.UriForm
import XMLHttpRequest.Url.HostForm
import XMLHttpRequest.Url.Elements
import XMLHttpRequest.Url.UrlText
import XMLHttpRequest.Url.HostText
import XMLHttpRequest.Url.UrlParts
import XMLHttpRequest.Session.SubmittedPath
import XMLHttpRequest.Url.Agreement
import XMLHttpRequest.Session.BodyProvider
import XMLHttpRequest.Base.ComponentErrors
import XMLHttpRequest.Base.Base64Safety
import XMLHttpRequest.Request.HeaderCalls
import XMLHttpRequest.Http.Reading
import XMLHttpRequest.Session.SavedFields
import XMLHttpRequest.Request.ResponseHeaders
import XMLHttpRequest.Session.Promises
import XMLHttpRequest.Request.SentHeaders
import XMLHttpRequest.Base.StringSplit
import XMLHttpRequest.Base.DecimalText
import XMLHttpRequest.Base.AlpnScan
import XMLHttpRequest.Request.HeaderCase
import XMLHttpRequest.Library.Refinement
import XMLHttpRequest.Session.Heard
import XMLHttpRequest.Session.Registry
import XMLHttpRequest.Session.Inert
import XMLHttpRequest.Session.Handlers
import XMLHttpRequest.Session.Silence
import XMLHttpRequest.Session.Orders
import XMLHttpRequest.Session.Delivery
import XMLHttpRequest.Request.Lifetime
import XMLHttpRequest.Request.Mirror
import XMLHttpRequest.Request.Delivery
import XMLHttpRequest.Request.Calls
import XMLHttpRequest.Request.Deadline
import XMLHttpRequest.Request.Jobs
import XMLHttpRequest.Request.Synchronous
import XMLHttpRequest.Library.Scanner
import XMLHttpRequest.Url.Spelling
import XMLHttpRequest.Url.Authority
import XMLHttpRequest.Url.AuthorityFields
import XMLHttpRequest.Url.AuthorityText
import XMLHttpRequest.Url.Fragment
import XMLHttpRequest.Url.Absolute
