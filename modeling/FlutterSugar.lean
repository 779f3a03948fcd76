import FlutterSugar.Dart.Core
import FlutterSugar.Dart.DateFormat
import FlutterSugar.Dart.DateTime
import FlutterSugar.Dart.Int64
import FlutterSugar.Dart.WallClock
import FlutterSugar.Firestore
import FlutterSugar.Lib.Calendar
import FlutterSugar.Lib.CodeUnit
import FlutterSugar.Lib.Cursor
import FlutterSugar.Lib.Numeral
import FlutterSugar.Lib.OrderedMap
import FlutterSugar.Lib.Pool
import FlutterSugar.Lib.Run
import FlutterSugar.Lib.SortedMap
import FlutterSugar.Lib.Transaction
import FlutterSugar.Listen.Client
import FlutterSugar.Listen.Events
import FlutterSugar.Listen.OwnWrites
import FlutterSugar.Listen.QueryListener
import FlutterSugar.Listen.Streams
import FlutterSugar.Listen.View
import FlutterSugar.Local.Changes
import FlutterSugar.Local.Coherence
import FlutterSugar.Local.Effect
import FlutterSugar.Local.LocalStore
import FlutterSugar.Local.Mutation
import FlutterSugar.Local.ObjectValue
import FlutterSugar.Local.Writes
import FlutterSugar.Profile.App
import FlutterSugar.Profile.Fields
import FlutterSugar.Profile.HistoryRow
import FlutterSugar.Profile.Home
import FlutterSugar.Profile.Streamed
import FlutterSugar.Profile.WellFormed
import FlutterSugar.Profile.Wizard
import FlutterSugar.Record.Cached
import FlutterSugar.Record.Calls
import FlutterSugar.Record.Chart
import FlutterSugar.Record.DayMap
import FlutterSugar.Record.Failure
import FlutterSugar.Record.Isolation
import FlutterSugar.Record.Keys
import FlutterSugar.Record.Output
import FlutterSugar.Record.Overlap
import FlutterSugar.Record.Paging
import FlutterSugar.Record.Pdfcreator
import FlutterSugar.Record.Push3
import FlutterSugar.Record.ReadYourRecord
import FlutterSugar.Record.Session
import FlutterSugar.Record.Settle
import FlutterSugar.Record.UpdateUser
import FlutterSugar.Record.Views
import FlutterSugar.Remote.Closing
import FlutterSugar.Remote.Filling
import FlutterSugar.Remote.RemoteStore
import FlutterSugar.Remote.WritePipeline
