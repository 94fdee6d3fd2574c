import RejectProcess.Lib.Run
import RejectProcess.Lib.Word
import RejectProcess.Sample.Array
import RejectProcess.Sample.WheelCode
import RejectProcess.Sample.Pool
import RejectProcess.Sample.Production
import RejectProcess.Sample.Conservation
import RejectProcess.Sample.Ejection
import RejectProcess.Communication.Link
import RejectProcess.Communication.ParamBounds
import RejectProcess.Communication.Reassembly
import RejectProcess.Sample.Reset
import RejectProcess.Sample.Reject
import RejectProcess.Sample.RejectRefines
import RejectProcess.Sample.Products
import RejectProcess.Communication.Mail
import RejectProcess.Lib.Ring
import RejectProcess.Sample.Publish
import RejectProcess.Sample.Published
import RejectProcess.Tool.Delivery
import RejectProcess.Tool.Lifetime
import RejectProcess.Sample.PositionRing
import RejectProcess.Sample.PositionPairing
import RejectProcess.Sample.PositionSession
import RejectProcess.Fpga.Mask
import RejectProcess.Communication.OwnBytes
import RejectProcess.Sample.Capacity
import RejectProcess.Sample.Window
import RejectProcess.Sample.PositionDelay
import RejectProcess.Fpga.Counter
import RejectProcess.Fpga.Drain
import RejectProcess.App.Replies
import RejectProcess.Sample.HeapRefines
import RejectProcess.Sample.HeapInit
import RejectProcess.App.LockDiscipline
import RejectProcess.Tool.ListRefines
import RejectProcess.Tool.AllOrNothing
import RejectProcess.App.Commands
import RejectProcess.App.Reports
