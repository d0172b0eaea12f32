import Photogram.AnotherServerConnection
import Photogram.AuthCoalesced
import Photogram.AuthConnection
import Photogram.AuthDatabase
import Photogram.AuthDispatch
import Photogram.AuthFormData
import Photogram.AuthFormEncoding
import Photogram.AuthFormParts
import Photogram.AuthGuard
import Photogram.AuthHeaders
import Photogram.AuthHttpParser
import Photogram.AuthLogin
import Photogram.AuthParserSafety
import Photogram.AuthPhotoForm
import Photogram.AuthPhotos
import Photogram.AuthReceive
import Photogram.AuthRegistration
import Photogram.AuthRegistrationForm
import Photogram.AuthReplies
import Photogram.AuthRequest
import Photogram.AuthRequestRuns
import Photogram.AuthResponse
import Photogram.AuthResponseWire
import Photogram.AuthSession
import Photogram.AuthTextFields
import Photogram.BoundedLoop
import Photogram.ContentConnection
import Photogram.ContentHandlers
import Photogram.ContentLikes
import Photogram.ContentPosts
import Photogram.ContentRoutes
import Photogram.ContentStatus
import Photogram.CxxString
import Photogram.EffectLog
import Photogram.FormDataParser
import Photogram.FormDataRoundTrip
import Photogram.FormDataRounds
import Photogram.HttpReader
import Photogram.JsonValue
import Photogram.JwtToken
import Photogram.LikeCounters
import Photogram.LikePattern
import Photogram.LikeToggle
import Photogram.ListPages
import Photogram.PagedQuery
import Photogram.PostAtomicity
import Photogram.PostOwners
import Photogram.PostPhotos
import Photogram.QueryPieces
import Photogram.QueryRoundTrip
import Photogram.QuerySafety
import Photogram.QueryString
import Photogram.RequestTarget
import Photogram.RowTable
import Photogram.Schedule
import Photogram.ServerInquiry
import Photogram.TwoServers
import Photogram.UserSearch
import Photogram.AuthSocket
import Photogram.AuthPhotoRange
import Photogram.FormDataFields
import Photogram.FormDataTypes
import Photogram.FormDataBounds
import Photogram.AuthFormOrders
import Photogram.AuthMessagePath
import Photogram.MultipartBoundary
import Photogram.ServedOnce
import Photogram.LinkRuns
import Photogram.TokenOrigins
import Photogram.AuthStore
import Photogram.SocialNetwork
import Photogram.SharedStore
import Photogram.StoreNetwork
import Photogram.NetworkReads
import Photogram.Bystanders
import Photogram.AuthProcess
import Photogram.AuthAnswers
import Photogram.Verdicts
import Photogram.ContentAnswers
import Photogram.WholeSystem
import Photogram.PublishedPhotos
import Photogram.LeftAlone
import Photogram.ToldClients
