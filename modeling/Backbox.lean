import Backbox.Main
import Backbox.Proofs.Engine.Inbound
import Backbox.Proofs.Engine.Lifecycle
import Backbox.Proofs.Engine.Outbound
import Backbox.Proofs.Line.Delivery
import Backbox.Rehearsal.Run
import Backbox.Proofs.Command.RoundTrip
import Backbox.Proofs.Line.Framing
import Backbox.Proofs.Connection.Attempt
import Backbox.Proofs.Connection.Budget
import Backbox.Proofs.Engine.Attempt
import Backbox.Proofs.Engine.Budget
import Backbox.Proofs.Command.OneLine
import Backbox.Proofs.Engine.Alarm
import Backbox.Proofs.Engine.Shutdown
import Backbox.Proofs.Engine.Registry
import Backbox.Proofs.Engine.Handler
import Backbox.Proofs.Engine.Exchange
import Backbox.Proofs.Document
import Backbox.Proofs.Settings.Form
import Backbox.Proofs.Template
import Backbox.Proofs.Engine.Deed
import Backbox.Proofs.Engine.Callback
import Backbox.Proofs.Connection.Greeting
import Backbox.Proofs.Text.Blank
import Backbox.Proofs.Engine.Configure
import Backbox.Proofs.Connection.Reading
import Backbox.Proofs.Template.Inserted
import Backbox.Proofs.Engine.DisplayFrame
import Backbox.Proofs.Line.Name
import Backbox.Proofs.Switch
import Backbox.Proofs.Command.LetterCase
import Backbox.Proofs.Engine.Described
import Backbox.Proofs.Engine.FanOut
import Backbox.Proofs.Settings.Timeout
import Backbox.Proofs.Connection.QueueCalls
import Backbox.Proofs.Engine.Normal
import Backbox.Proofs.Probe.Unreached
