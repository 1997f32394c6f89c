import Ucanopen.Lib.Run
import Ucanopen.Lib.BoundedQueue
import Ucanopen.Lib.Server
import Ucanopen.Lib.Exec
import Ucanopen.Lib.Bytes
import Ucanopen.Lib.SortedSearch
import Ucanopen.F4.SdoService
import Ucanopen.F4.Reception
import Ucanopen.F4.SdoLosses
import Ucanopen.F4.Watchdog
import Ucanopen.H7.SdoRuns
import Ucanopen.H7.Reception
import Ucanopen.F4.Confidentiality
import Ucanopen.H7.SameEngine
import Ucanopen.F4.BlockMessages
import Ucanopen.F4.Delivery
import Ucanopen.F4.Responses
import Ucanopen.F4.Senders
import Ucanopen.F4.Startup
import Ucanopen.F4.Supervision
import Ucanopen.F4.Totality
import Ucanopen.F4.Identifiers
import Ucanopen.F4.Device
import Ucanopen.F4.DeviceAnswers
import Ucanopen.F4.DeviceFrames
import Ucanopen.F4.DeviceWindow
import Ucanopen.H7.SdoWindow
import Ucanopen.H7.Device
import Ucanopen.H7.DeviceAnswers
import Ucanopen.F4.SdoProvider
import Ucanopen.F4.DeviceClient
import Ucanopen.H7.DeviceWindow
