import Gts9Wifi.Lib.Prog
import Gts9Wifi.Lib.Interleave
import Gts9Wifi.Lib.Runs
import Gts9Wifi.Charger.Board
import Gts9Wifi.Charger.Sm5714
import Gts9Wifi.Charger.Verify.Sm5714
import Gts9Wifi.Charger.Verify.InputLimit
import Gts9Wifi.Charger.Verify.FloatVoltage
import Gts9Wifi.Charger.Verify.Sections
import Gts9Wifi.Charger.Verify.Otg
import Gts9Wifi.Charger.Verify.Muic
import Gts9Wifi.Charger.Verify.Thermal
import Gts9Wifi.Charger.Verify.Arbitration
import Gts9Wifi.Charger.Sm5440
import Gts9Wifi.Charger.Verify.Sm5440
import Gts9Wifi.Charger.Verify.HandBack
import Gts9Wifi.Charger.Verify.Backoff
import Gts9Wifi.Charger.Verify.Parking
import Gts9Wifi.Charger.Verify.Pps
import Gts9Wifi.Pen.Verify.Proximity
import Gts9Wifi.Panel.Ana38407
import Gts9Wifi.Boot.BtProvision
import Gts9Wifi.Boot.Layout
import Gts9Wifi.Boot.Verify.VendorBoot
import Gts9Wifi.Panel.Verify.Fod
import Gts9Wifi.Panel.Verify.Hbm
import Gts9Wifi.Touch.Fts1ba90a
import Gts9Wifi.Touch.Verify.Balance
import Gts9Wifi.Touch.Verify.Batches
import Gts9Wifi.Spu.SpHlosHeap
import Gts9Wifi.Spu.Verify.Ownership
import Gts9Wifi.Boot.MemReclaim
import Gts9Wifi.Boot.Verify.AppendedDtb
import Gts9Wifi.Boot.Verify.MemReclaim
import Gts9Wifi.Boot.Verify.Rerun
import Gts9Wifi.Hexagon.Fs
import Gts9Wifi.Hexagon.Verify.Rename
import Gts9Wifi.Lib.Records
import Gts9Wifi.Tools.Bdftool
import Gts9Wifi.Tools.Verify.Bdftool
import Gts9Wifi.Tools.Verify.Swap
import Gts9Wifi.Lib.Ring
import Gts9Wifi.SecLog.SecLog
import Gts9Wifi.SecLog.Verify.Tail
import Gts9Wifi.Installer.MakeTwrpZip
import Gts9Wifi.Installer.UpdateBinary
import Gts9Wifi.Installer.Verify.Complete
import Gts9Wifi.Typec.Ps5169
import Gts9Wifi.Typec.Verify.Ps5169
import Gts9Wifi.Typec.Sm5714Usbpd
import Gts9Wifi.Typec.Verify.CcHold
import Gts9Wifi.Fingerprint.El721
import Gts9Wifi.Fingerprint.Verify.Accounting
import Gts9Wifi.Lens.Dw9808
import Gts9Wifi.Lens.Verify.Votes
import Gts9Wifi.Lens.Verify.Ready
import Gts9Wifi.Display.MsmDpBridge
import Gts9Wifi.Display.Verify.DeferredHpd
import Gts9Wifi.Charger.Verify.Refresh
import Gts9Wifi.Charger.Verify.Unplugged
import Gts9Wifi.Camera.Hi1337
import Gts9Wifi.Camera.Verify.Exposure
import Gts9Wifi.Autofocus.Frame
import Gts9Wifi.Autofocus.Verify.FocusValue
import Gts9Wifi.Shim.AndroidShim
import Gts9Wifi.Shim.Verify.Format
import Gts9Wifi.Shim.Verify.Buffers
import Gts9Wifi.Autofocus.Search
import Gts9Wifi.Autofocus.Verify.Search
import Gts9Wifi.Lib.AlternatingBit
import Gts9Wifi.Snvm.Iso7816T1
import Gts9Wifi.Snvm.Star
import Gts9Wifi.Snvm.Verify.Turns
import Gts9Wifi.Snvm.Verify.Recovery
import Gts9Wifi.Snvm.Verify.Receiver
import Gts9Wifi.Snvm.Verify.Exchange
import Gts9Wifi.Snvm.Verify.Frames
import Gts9Wifi.Lib.Pieces
import Gts9Wifi.Snvm.Verify.Sender
import Gts9Wifi.Snvm.Verify.Pending
import Gts9Wifi.Snvm.Verify.Responses
import Gts9Wifi.Lib.RingQueue
import Gts9Wifi.Spu.GlinkSpss
import Gts9Wifi.Spu.Verify.Fifo
