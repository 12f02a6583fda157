import RespBus.Config.Reader
import RespBus.Config.Writer
import RespBus.Main
import RespBus.Proofs.Client.Isolation
import RespBus.Proofs.Client.Past
import RespBus.Proofs.Client.Starting
import RespBus.Proofs.Command.Sizes
import RespBus.Proofs.Config.Buffers
import RespBus.Proofs.Config.Partial
import RespBus.Proofs.Config.RoundTrip
import RespBus.Proofs.Framer.Counting
import RespBus.Proofs.Framer.Slices
import RespBus.Proofs.Reply.Clamping
import RespBus.Proofs.Reply.Lengths
import RespBus.Proofs.Reply.Nesting
import RespBus.Proofs.Scanner.Safety
import RespBus.Proofs.Session.Batches
import RespBus.Proofs.Session.Merging
import RespBus.Proofs.Session.Turns
import RespBus.Proofs.Session.Wire
import RespBus.Proofs.Watch
import RespBus.Text.Quoted
import RespBus.Watch
