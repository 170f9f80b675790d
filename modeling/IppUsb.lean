import IppUsb.Transport.Read
import IppUsb.Transport.Open
import IppUsb.Transport.System
import IppUsb.Transport.Pool
import IppUsb.Transport.Shutdown
import IppUsb.Transport.Request
import IppUsb.Transport.Body
import IppUsb.Log.Rotate
import IppUsb.Log.Message
import IppUsb.Log.Lossless
import IppUsb.Log.Trim
import IppUsb.Log.HexDump
import IppUsb.Log.Output
import IppUsb.Log.File
import IppUsb.Log.Http
import IppUsb.Net.Loopback
