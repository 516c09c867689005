import PortArbiter.Main
import PortArbiter.Proofs.Priority.Winners
import PortArbiter.Proofs.Priority.Verdicts
import PortArbiter.Proofs.Priority.Settled
import PortArbiter.Proofs.Priority.Arrivals
import PortArbiter.Proofs.Priority.Topmost
import PortArbiter.Proofs.Registry.Session
import PortArbiter.Proofs.Connection.Membership
import PortArbiter.Proofs.Scenario.Refinement
import PortArbiter.Proofs.Connection.EndToEnd
import PortArbiter.Proofs.Registry.Isolation
import PortArbiter.Proofs.Connection.Refusal
import PortArbiter.Proofs.Scenario.Justified
import PortArbiter.Proofs.Carrier.Flat
import PortArbiter.Proofs.Carrier.Grammar
import PortArbiter.Proofs.Scenario.Agreement
import PortArbiter.Proofs.Priority.Alike
import PortArbiter.Proofs.Connection.Bystanders
import PortArbiter.Proofs.Connection.Solitary
import PortArbiter.Proofs.Carrier.Parameters
import PortArbiter.Proofs.Connection.SendingSides
import PortArbiter.Proofs.Connection.Inhibitory
import PortArbiter.Proofs.Scenario.RoundTrip
import PortArbiter.Proofs.Priority.Curve
import PortArbiter.Proofs.Priority.Recent
import PortArbiter.Proofs.Connection.Discarded
import PortArbiter.Proofs.Carrier.Building
import PortArbiter.Proofs.Carrier.Reconfiguration
import PortArbiter.Proofs.Connection.Counters
import PortArbiter.Proofs.Scenario.Chronology
import PortArbiter.Proofs.Carrier.Rearrangement
import PortArbiter.Proofs.Connection.Shortcut
