import Switchboard.Hosting
import Switchboard.Main
import Switchboard.Proofs.Board.Recount
import Switchboard.Proofs.Service.Ending
import Switchboard.Proofs.Board.Fanout
import Switchboard.Proofs.Envelope.RoundTrip
import Switchboard.Proofs.Board.Strangers
import Switchboard.Proofs.Service.Queue
import Switchboard.Proofs.Service.Closing
import Switchboard.Proofs.Envelope.Intake
import Switchboard.Proofs.Board.Publishing
import Switchboard.Proofs.Board.SlowPeer
import Switchboard.Proofs.Service.Aftermath
import Switchboard.Proofs.Service.Answering
import Switchboard.Proofs.Board.Operations
import Switchboard.Proofs.Board.Authentication
import Switchboard.Proofs.Board.Listing
import Switchboard.Proofs.Board.Stepwise
import Switchboard.Proofs.Board.Estrangement
import Switchboard.Proofs.Board.Reregistration
import Switchboard.Proofs.Board.Departed
import Switchboard.Proofs.Service.Deadline
import Switchboard.Proofs.Service.Sweeping
import Switchboard.Proofs.Board.Removals
import Switchboard.Proofs.Board.LastWord
import Switchboard.Proofs.Board.Objections
import Switchboard.Proofs.Envelope.Normal
import Switchboard.Proofs.Settings.Outcome
import Switchboard.Proofs.Service.Admission
import Switchboard.Proofs.Tokens.Listed
import Switchboard.Proofs.Envelope.Rearranged
