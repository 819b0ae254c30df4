import Lan80xx.Board.Sfp
import Lan80xx.Lan8770.BankMemory
import Lan80xx.Lan8770.ConfCoherence
import Lan80xx.Lan8770.Events
import Lan80xx.Lan8770.Loopback
import Lan80xx.Lan8814.ClockIsolation
import Lan80xx.Lan8814.Downshift
import Lan80xx.Lan8814.Events
import Lan80xx.Lan8814.Latency
import Lan80xx.Lan8814.Loopback
import Lan80xx.Lan8814.Miim
import Lan80xx.Lan8814.RateAdj
import Lan80xx.Lan8814.Restored
import Lan80xx.Macsec.ControlFrames
import Lan80xx.Macsec.FrameCapture
import Lan80xx.Macsec.GlobalValidate
import Lan80xx.Macsec.LowestPnWait
import Lan80xx.Macsec.Nonces
import Lan80xx.Macsec.PortIteration
import Lan80xx.Macsec.Reservation
import Lan80xx.Mailbox.Bursts
import Lan80xx.Mailbox.Format
import Lan80xx.Mailbox.FwUpdate
import Lan80xx.Mailbox.ReceiveBounds
import Lan80xx.Poe.DataClear
import Lan80xx.Poe.DebugCommand
import Lan80xx.Poe.Download
import Lan80xx.Poe.FirmwareVersion
import Lan80xx.Poe.Matrix
import Lan80xx.Poe.Resync
import Lan80xx.T1.Coherence
import Lan80xx.T1.Loopbacks
import Lan80xx.T1.Poll
import Lan80xx.T1.Sqi
import Lan80xx.Tc10.Coherence
import Lan80xx.Ts.Engines
import Lan80xx.Ts.Latency
import Lan80xx.Ts.PtpFlow
import Lan80xx.Ts.RateAdj
import Lan80xx.VtssMacsec.ControlRules
import Lan80xx.VtssMacsec.Events
import Lan80xx.VtssMacsec.ExclusiveRuns
import Lan80xx.VtssMacsec.FrameCapture
import Lan80xx.VtssMacsec.Identity
import Lan80xx.VtssMacsec.InitTransitions
import Lan80xx.VtssMacsec.LowestPn
import Lan80xx.VtssMacsec.PortCounters
import Lan80xx.VtssMacsec.PortStatus
import Lan80xx.VtssMacsec.Reservation
import Lan80xx.VtssMacsec.Settings
import Lan80xx.VtssTs.Events
import Lan80xx.VtssTs.FifoRuns
import Lan80xx.VtssTs.FlowMatch
import Lan80xx.VtssTs.RateAdj
import Lan80xx.VtssTs.SignatureRoundTrip
