import LinuxSna.Framework.Feed
import LinuxSna.Impl.TnX.Stream
import LinuxSna.Spec.Telnet
import LinuxSna.Proof.TnX.Receive
import LinuxSna.Proof.TnX.Framing
import LinuxSna.Proof.TnX.Chunking
import LinuxSna.Proof.TnX.Subnegotiation
import LinuxSna.Framework.Run
import LinuxSna.Impl.Tn3270d.Server
import LinuxSna.Proof.Tn3270d.Accounting
import LinuxSna.Impl.Sna.Asm
import LinuxSna.Proof.Sna.Lfsid
import LinuxSna.Framework.Commit
import LinuxSna.Impl.Sna.Cpic.Conversation
import LinuxSna.Impl.Sna.Cpic.Fsm
import LinuxSna.Impl.Sna.Cpic.Calls
import LinuxSna.Impl.Sna.Cpic.SideInfo
import LinuxSna.Proof.Sna.Cpic.TwoPhase
import LinuxSna.Proof.Sna.Cpic.SendData
import LinuxSna.Proof.Sna.Cpic.Failures
import LinuxSna.Framework.CString
import LinuxSna.Impl.Sna.Cs.LinkStation
import LinuxSna.Proof.Sna.Cs.RoleAgreement
import LinuxSna.Impl.Sna.Cs.Xid
import LinuxSna.Impl.Sna.Cs.Define
import LinuxSna.Impl.Sna.Cs.Dlc
import LinuxSna.Framework.Duplex
import LinuxSna.Spec.Negotiation
import LinuxSna.Proof.Sna.Cs.Exchange
import LinuxSna.Proof.Sna.Cs.Consistency
import LinuxSna.Proof.Sna.Cs.Activation
import LinuxSna.Proof.Sna.Cs.Calls
import LinuxSna.Proof.Sna.Cs.RetryLimit
import LinuxSna.Impl.Sna.Cs.Parameters
import LinuxSna.Proof.Sna.Cs.Parameters
import LinuxSna.Impl.Sna.Cs.Timer
import LinuxSna.Proof.Sna.Cs.Timer
import LinuxSna.Impl.Sna.Hs
import LinuxSna.Impl.Sna.Tc
import LinuxSna.Proof.Sna.Tc.Flow
import LinuxSna.Proof.Sna.Tc.Window
import LinuxSna.Proof.Sna.Tc.Queue
import LinuxSna.Proof.Sna.Tc.Ipm
import LinuxSna.Proof.Sna.Tc.Segments
import LinuxSna.Proof.Sna.Tc.Sequence
import LinuxSna.Proof.Sna.Isolation
import LinuxSna.Framework.Loop
import LinuxSna.Impl.Sna.Ps.Conversation
import LinuxSna.Impl.Sna.Ps.Receive
import LinuxSna.Impl.Sna.Ps.Send
import LinuxSna.Spec.Records
import LinuxSna.Proof.Sna.Ps.Data
import LinuxSna.Proof.Sna.Ps.Fsm
import LinuxSna.Proof.Sna.Ps.Queue
import LinuxSna.Proof.Sna.Ps.Records
import LinuxSna.Proof.Sna.Ps.ChainEnd
import LinuxSna.Proof.Sna.Ps.Buffer
import LinuxSna.Proof.Sna.Ps.Send
import LinuxSna.Proof.Sna.Ps.Immediate
import LinuxSna.Framework.LongDivision
import LinuxSna.Framework.Table
import LinuxSna.Impl.Sna.Rm.Mode
import LinuxSna.Impl.Sna.Sm.Session
import LinuxSna.Proof.Sna.Sm.Bind
import LinuxSna.Proof.Sna.Rm.Limit
import LinuxSna.Impl.Sna.Dfc.State
import LinuxSna.Proof.Sna.Sm.Stray
import LinuxSna.Proof.Sna.Sm.Steps
import LinuxSna.Proof.Sna.Sm.Progress
import LinuxSna.Proof.Sna.Sm.Release
import LinuxSna.Proof.Sna.Sm.Accounting
import LinuxSna.Proof.Sna.Sm.Partners
import LinuxSna.Impl.Sna.Ps.Allocate
import LinuxSna.Proof.Sna.Ps.Allocate
import LinuxSna.Framework.Sweep
import LinuxSna.Impl.Sna.Nof
import LinuxSna.Impl.Sna.Nof.Delete
import LinuxSna.Proof.Sna.Nof
import LinuxSna.Framework.Token
import LinuxSna.Impl.Sna.Dfc.Fsm
import LinuxSna.Impl.Sna.Dfc.Receive
import LinuxSna.Impl.Sna.Pc
import LinuxSna.Proof.Sna.Transparent
import LinuxSna.Proof.Sna.Dfc.Buffers
import LinuxSna.Proof.Sna.Consumed
import LinuxSna.Impl.Sna.Dfc.Send
import LinuxSna.Proof.Sna.Dfc.Enforcement
import LinuxSna.Proof.Sna.Dfc.Chains
import LinuxSna.Proof.Sna.Dfc.Reachable
import LinuxSna.Proof.Sna.Dfc.Sense
import LinuxSna.Proof.Sna.Dfc.Responses
import LinuxSna.Proof.Sna.Dfc.SendPath
import LinuxSna.Proof.Sna.Dfc.Headers
import LinuxSna.Proof.Sna.Dfc.PacketSize
import LinuxSna.Proof.Sna.Ps.Mapped
import LinuxSna.Impl.Asuite.Record
import LinuxSna.Impl.Asuite.Receivers
import LinuxSna.Proof.Asuite.Codec
import LinuxSna.Proof.Asuite.Requests
import LinuxSna.Proof.Asuite.Received
import LinuxSna.Impl.Asuite.Ftp.Server
import LinuxSna.Impl.Asuite.Ftp.Records
import LinuxSna.Impl.Asuite.Ftp.Client
import LinuxSna.Spec.Ftp
import LinuxSna.Proof.Asuite.Ftp.Messages
import LinuxSna.Proof.Asuite.Ftp.Served
import LinuxSna.Proof.Asuite.Ftp.Answers
import LinuxSna.Proof.Asuite.Ftp.Pieces
import LinuxSna.Proof.Asuite.Ftp.Outcomes
import LinuxSna.Proof.Asuite.Ftp.Contents
import LinuxSna.Proof.Asuite.Ftp.Copies
import LinuxSna.Impl.Asuite.Aftp
import LinuxSna.Spec.Aftp
import LinuxSna.Proof.Asuite.Aftp
import LinuxSna.Impl.Asuite.Ftp.Listing
import LinuxSna.Spec.Listing
import LinuxSna.Proof.Asuite.Ftp.Listing
import LinuxSna.Proof.Asuite.Ftp.Directories
import LinuxSna.Impl.Asuite.NameServer
import LinuxSna.Spec.Names
import LinuxSna.Proof.Asuite.Names.Images
import LinuxSna.Proof.Asuite.Names.Served
import LinuxSna.Proof.Asuite.Names.Authentic
import LinuxSna.Proof.Asuite.Names.Lookup
import LinuxSna.Framework.Chain
import LinuxSna.Impl.Asuite.Sessions
import LinuxSna.Proof.Asuite.Sessions
import LinuxSna.Proof.Sna.Route
import LinuxSna.Impl.TnX.Config
import LinuxSna.Spec.ConfigFile
import LinuxSna.Proof.TnX.ConfigLines
import LinuxSna.Proof.TnX.ConfigScopes
import LinuxSna.Proof.TnX.ConfigEnds
import LinuxSna.Proof.TnX.Promotion
import LinuxSna.Framework.Words
import LinuxSna.Proof.TnX.Address
import LinuxSna.Proof.Sna.Cs.ShortXid
import LinuxSna.Proof.Sna.Cs.Define
import LinuxSna.Impl.Sna.Attach
import LinuxSna.Spec.Attach
import LinuxSna.Proof.Sna.Attach.Registrations
import LinuxSna.Proof.Sna.Attach.HandOff
import LinuxSna.Framework.Slots
import LinuxSna.Impl.Snaconfig.Xwords
import LinuxSna.Impl.Snaconfig.Load
import LinuxSna.Spec.NodeConfig
import LinuxSna.Proof.Snaconfig.Texts
import LinuxSna.Proof.Snaconfig.Elements
import LinuxSna.Proof.Snaconfig.Sections
import LinuxSna.Proof.Snaconfig.Defines
import LinuxSna.Proof.Snaconfig.Load
import LinuxSna.Proof.Sna.SlotsInUse
import LinuxSna.Spec.SideInfo
import LinuxSna.Proof.Sna.Cpic.SideInfo
import LinuxSna.Proof.Sna.Ps.RecordCheck
import LinuxSna.Proof.Sna.Ps.SendMu
import LinuxSna.Proof.Sna.Ps.BytesKept
import LinuxSna.Proof.Sna.Ps.Arrivals
import LinuxSna.Proof.Sna.Ps.FailedReceive
import LinuxSna.Proof.Sna.Ps.ErrorHeader
import LinuxSna.Proof.Sna.Ps.Marks
import LinuxSna.Proof.Sna.Ps.RequestToSend
import LinuxSna.Impl.Sna.Cpic.Services
import LinuxSna.Proof.Sna.Ps.Outcome
import LinuxSna.Proof.Sna.Cpic.Agreement
import LinuxSna.Impl.Sna.Ebcdic
import LinuxSna.Impl.Sna.Ps.Fmh5
import LinuxSna.Proof.Sna.Ps.Fmh5
import LinuxSna.Proof.Sna.Tc.Credit
import LinuxSna.Impl.Sna.Ss.Pcid
import LinuxSna.Proof.Sna.Ss.Division
import LinuxSna.Proof.Sna.Ss.Pcid
import LinuxSna.Proof.Sna.Dfc.StateChecks
import LinuxSna.Proof.Sna.Dfc.RequestCount
import LinuxSna.Framework.Text
import LinuxSna.Proof.Asuite.Wildcard
import LinuxSna.Impl.Snatchd.Launch
import LinuxSna.Proof.Snatchd.Launch
import LinuxSna.Proof.Snaconfig.Utility
import LinuxSna.Impl.Sna.Proc
import LinuxSna.Proof.Sna.Proc
import LinuxSna.Impl.Sna.Cosm
import LinuxSna.Spec.NodeOperator
import LinuxSna.Proof.Sna.Cosm
import LinuxSna.Proof.Sna.DefaultClasses
import LinuxSna.Impl.Sna.Nof.Define
import LinuxSna.Proof.Sna.Nof.Define
import LinuxSna.Framework.Image
import LinuxSna.Framework.Blocks
import LinuxSna.Impl.Asuite.Tdb
import LinuxSna.Spec.Database
import LinuxSna.Proof.Asuite.Tdb.Bytes
import LinuxSna.Proof.Asuite.Tdb.Allocate
import LinuxSna.Proof.Asuite.Tdb.Records
import LinuxSna.Proof.Asuite.Tdb.Runs
import LinuxSna.Proof.Asuite.Tdb.Traverse
import LinuxSna.Proof.Asuite.Names.Database
