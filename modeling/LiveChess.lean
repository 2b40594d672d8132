import LiveChess.Arbiter
import LiveChess.Board.Attack
import LiveChess.Board.Basic
import LiveChess.Board.Castling
import LiveChess.Board.Move
import LiveChess.Board.Record
import LiveChess.Color
import LiveChess.Connections
import LiveChess.Duration
import LiveChess.Fault
import LiveChess.Hall
import LiveChess.Hall.Held
import LiveChess.Ident
import LiveChess.Json.Basic
import LiveChess.Json.Printer
import LiveChess.Json.Range
import LiveChess.Json.Reader
import LiveChess.Match.Game
import LiveChess.Match.Record
import LiveChess.Match.Snapshot
import LiveChess.Match.Status
import LiveChess.Message
import LiveChess.Piece
import LiveChess.Proofs.Courses
import LiveChess.Proofs.Departures
import LiveChess.Proofs.Followers
import LiveChess.Proofs.GameSteps
import LiveChess.Proofs.Handling
import LiveChess.Proofs.LifeCycle
import LiveChess.Proofs.Maps
import LiveChess.Proofs.MatchRun
import LiveChess.Proofs.Permanence
import LiveChess.Proofs.Play
import LiveChess.Proofs.Playable
import LiveChess.Proofs.Rebuild
import LiveChess.Proofs.Refusals
import LiveChess.Proofs.Reload
import LiveChess.Proofs.Requests
import LiveChess.Proofs.Squares
import LiveChess.Proofs.Standing
import LiveChess.Proofs.TableSteps
import LiveChess.Proofs.Updates
import LiveChess.Proofs.Upkeep
import LiveChess.Proofs.Watching
import LiveChess.Proofs.World
import LiveChess.Server.Basic
import LiveChess.Server.Http
import LiveChess.Server.Sockets
import LiveChess.Settings
import LiveChess.SortedMap
import LiveChess.Square
import LiveChess.Store
import LiveChess.Table
import LiveChess.Text.Blank
import LiveChess.Text.Hex
import LiveChess.Text.Quoted
import LiveChess.Text.Shapeless
import LiveChess.Uuid
import LiveChess.Web.Frame
import LiveChess.Web.Percent
import LiveChess.Web.Target
import LiveChess.Wire.Command
import LiveChess.Wire.Notice
import LiveChess.Wire.Record
import LiveChess.Proofs.Kings
import LiveChess.Proofs.CastlingRights
import LiveChess.Proofs.Calls
import LiveChess.Proofs.Replay
import LiveChess.Proofs.Seating
import LiveChess.Proofs.Locality
import LiveChess.Proofs.Independence
import LiveChess.Proofs.FanOut
import LiveChess.Proofs.Arrays
import LiveChess.Proofs.Material
import LiveChess.Proofs.CheckedRules
import LiveChess.Proofs.CheckedGames
import LiveChess.Proofs.CheckedRequests
import LiveChess.Proofs.CheckedRuns
import LiveChess.Proofs.Lines
import LiveChess.Proofs.Movement
import LiveChess.Proofs.Threats
import LiveChess.Proofs.KingSafety
import LiveChess.Proofs.JsonText
import LiveChess.Proofs.Uuids
import LiveChess.Proofs.Respelling
import LiveChess.Proofs.RecordText
import LiveChess.Proofs.Mates
import LiveChess.Proofs.Placements
import LiveChess.Proofs.Mirror
import LiveChess.Proofs.Visits
import LiveChess.Proofs.Foundings
import LiveChess.Proofs.Records
import LiveChess.Proofs.Greetings
import LiveChess.Proofs.Commands
import LiveChess.Proofs.Attachments
