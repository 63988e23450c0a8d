import RemoteServer.Pairing
import RemoteServer.Ownership
import RemoteServer.Idle
import RemoteServer.ConnStep
import RemoteServer.Ledger
import RemoteServer.Close
import RemoteServer.Split
import RemoteServer.View
import RemoteServer.Noninterference
import RemoteServer.Commute
import RemoteServer.Timed
import RemoteServer.Binding
import RemoteServer.Lifetime
import RemoteServer.Match
import RemoteServer.Removal
import RemoteServer.EmptyRead
import RemoteServer.Session.Grammar
import RemoteServer.Login
import RemoteServer.SameId
import RemoteServer.Frame
import RemoteServer.Indexes
import RemoteServer.Descriptors
import RemoteServer.Throttle
import RemoteServer.RequestRate
import RemoteServer.Configure.Loader
import RemoteServer.Configure.Loading
import RemoteServer.Configure.Termination
import RemoteServer.Configure.RoundTrip
import RemoteServer.Configure.Indentation
import RemoteServer.Configure.Accessor
import RemoteServer.Lib.Backlog
import RemoteServer.Silence
import RemoteServer.Stream
import RemoteServer.SessionNumbers
import RemoteServer.Configure.Denotation
import RemoteServer.Lib.Bisimulation
import RemoteServer.Lib.Matching
import RemoteServer.Maximum
import RemoteServer.Process
import RemoteServer.Traces
import RemoteServer.Lib.Renaming
import RemoteServer.Symmetry
import RemoteServer.Lib.Census
import RemoteServer.Population
import RemoteServer.Codec
import RemoteServer.Interleaving
import RemoteServer.Turns
import RemoteServer.Future
