import GoodThing.Lib.Run
import GoodThing.Lib.Rmw
import GoodThing.Lib.Firestore
import GoodThing.Lib.Swift
import GoodThing.Model
import GoodThing.Controller.Form
import GoodThing.Controller.Group
import GoodThing.Proofs.Group
import GoodThing.Controller.Memory
import GoodThing.Proofs.MemoryWall
import GoodThing.Controller.User
import GoodThing.Proofs.User
import GoodThing.Spec.Friendship
import GoodThing.Proofs.Friends
import GoodThing.Lib.Calendar
import GoodThing.Controller.Task
import GoodThing.Proofs.TaskPool
import GoodThing.Proofs.TaskQuery
import GoodThing.Controller.Letter
import GoodThing.Controller.Comment
import GoodThing.Controller.GroupList
import GoodThing.Lib.Merge
import GoodThing.Proofs.GroupList
import GoodThing.Proofs.Letter
import GoodThing.Proofs.SignIn
import GoodThing.Controller.Response
import GoodThing.Proofs.Response
import GoodThing.Controller.Media
import GoodThing.Proofs.Media
import GoodThing.Lib.Codec
import GoodThing.Proofs.Decoding
import GoodThing.Controller.Picture
import GoodThing.Proofs.Picture
import GoodThing.Controller.Upload
import GoodThing.Proofs.Upload
import GoodThing.Lib.Clock
import GoodThing.Controller.DailyTask
import GoodThing.Proofs.DailyTask
import GoodThing.Controller.DatePicker
import GoodThing.Proofs.DatePicker
import GoodThing.Controller.Profile
import GoodThing.Proofs.Profile
import GoodThing.Controller.Recorder
import GoodThing.Controller.Editing
import GoodThing.Proofs.Recorder
import GoodThing.Proofs.Editing
import GoodThing.Controller.Preview
import GoodThing.Proofs.Preview
import GoodThing.Controller.Downloader
import GoodThing.Proofs.Downloader
import GoodThing.Controller.AppleSignIn
import GoodThing.Lib.Fibre
import GoodThing.Proofs.AppleSignIn
import GoodThing.Controller.ExclusiveTask
import GoodThing.Proofs.ExclusiveTask
import GoodThing.Lib.Stamp
import GoodThing.Proofs.TimeOrder
import GoodThing.Helper.DateHelper
import GoodThing.Proofs.DateHelper
import GoodThing.Lib.Rounding
import GoodThing.Firebase.View
import GoodThing.Firebase.QueryListener
import GoodThing.Proofs.View
import GoodThing.Proofs.QueryListener
import GoodThing.Proofs.Session
import GoodThing.Proofs.Limit
import GoodThing.Proofs.Snapshots
import GoodThing.Firebase.Transaction
import GoodThing.Proofs.AddFriend
import GoodThing.Firebase.WriteStream
import GoodThing.Proofs.Ledger
import GoodThing.Proofs.WriteStream
import GoodThing.Firebase.Mutation
import GoodThing.Proofs.ObjectValue
import GoodThing.Proofs.Overlay
import GoodThing.Firebase.LocalStore
import GoodThing.Proofs.LocalStore
import GoodThing.Proofs.LocalView
