import Liveboard.Component.Outline
import Liveboard.Main
import Liveboard.Rehearsal.Bench
import Liveboard.Rehearsal.Clock
import Liveboard.Rehearsal.Desk
import Liveboard.Rehearsal.Stage
import Liveboard.Proofs.Session.Handlers
import Liveboard.Proofs.Session.Scope
import Liveboard.Proofs.Session.Attempts
import Liveboard.Proofs.Session.ManualDisconnect
import Liveboard.Proofs.Board.DistinctIds
import Liveboard.Proofs.Rehearsal.RequestLog
import Liveboard.Proofs.Session.OpenSaves
import Liveboard.Proofs.Session.Agreement
import Liveboard.Proofs.Session.Course
import Liveboard.Proofs.Session.Outstanding
import Liveboard.Proofs.Session.Pacing
import Liveboard.Proofs.Session.Comeback
import Liveboard.Proofs.Session.Links
import Liveboard.Proofs.Session.Isolation
import Liveboard.Proofs.Board.Conversation
import Liveboard.Proofs.Session.Display
import Liveboard.Proofs.Session.Screen
import Liveboard.Proofs.Board.Notices
import Liveboard.Proofs.Session.ErrorTexts
import Liveboard.Proofs.Session.Openings
import Liveboard.Proofs.Session.Sending
import Liveboard.Proofs.Session.Outbound
import Liveboard.Proofs.Board.LibraryMap
import Liveboard.Proofs.Component.RoundTrip
import Liveboard.Proofs.Session.UserMessages
import Liveboard.Proofs.Session.Batches
import Liveboard.Proofs.Session.SaveFrames
import Liveboard.Proofs.Session.SaveAll
import Liveboard.Proofs.Board.Independence
import Liveboard.Proofs.Session.Publishing
import Liveboard.Proofs.Session.Visibility
import Liveboard.Proofs.Session.Resumption
import Liveboard.Proofs.Component.Places
import Liveboard.Proofs.Session.Credential
import Liveboard.Proofs.Wire.Envelopes
import Liveboard.Proofs.Data.Rereading
import Liveboard.Proofs.Component.Titles
import Liveboard.Proofs.Component.Survivors
import Liveboard.Proofs.Component.Unmarked
import Liveboard.Proofs.Component.Slots
import Liveboard.Proofs.Component.Reextraction
import Liveboard.Proofs.Time.Years
import Liveboard.Proofs.Time.Counts
import Liveboard.Proofs.Data.Overflow
import Liveboard.Proofs.Time.Stamps
import Liveboard.Proofs.Wire.Respelling
import Liveboard.Proofs.Wire.Dispatch
import Liveboard.Proofs.Cli.Commands
import Liveboard.Proofs.Component.Outlines
import Liveboard.Proofs.Config.Tidiness
import Liveboard.Proofs.Config.Merging
import Liveboard.Proofs.Config.Leaves
import Liveboard.Proofs.Config.Variables
import Liveboard.Proofs.Config.Layers
