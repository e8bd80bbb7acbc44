import Firmware.Build.Target
import Firmware.Crash.Handler
import Firmware.Proofs.Schedule.Sections
import Firmware.Schedule.Script
import Firmware.Text.Layout
import Firmware.Text.Quoted
import Firmware.Trace.Binary64
import Firmware.Trace.Ring
import Firmware.Proofs.Schedule.Interleaving
import Firmware.Proofs.Schedule.Origin
import Firmware.Proofs.Schedule.Attention
import Firmware.Proofs.Crash.Image
import Firmware.Proofs.Crash.Machine
import Firmware.Proofs.Trace.Groups
import Firmware.Proofs.Trace.Order
import Firmware.Proofs.Trace.Contents
import Firmware.Proofs.Schedule.Scripts
import Firmware.Proofs.Text.Decoding
import Firmware.Proofs.Text.WellFormed
import Firmware.Proofs.Text.Fronts
import Firmware.Proofs.Text.Clipping
import Firmware.Proofs.Text.Cuts
import Firmware.Proofs.Text.Names
import Firmware.Proofs.Text.Kept
import Firmware.Proofs.Text.Numerals
import Firmware.Proofs.Crash.Stores
import Firmware.Proofs.Crash.Layout
import Firmware.Proofs.Crash.Canonical
import Firmware.Proofs.Crash.Telling
import Firmware.Proofs.Crash.Wording
import Firmware.Proofs.Crash.Consumption
import Firmware.Proofs.Memory.Scanning
import Firmware.Proofs.Crash.Interceptors
import Firmware.Proofs.Schedule.Time
import Firmware.Proofs.Schedule.Wakes
import Firmware.Proofs.Schedule.Progress
import Firmware.Proofs.Schedule.StaleWakes
import Firmware.Proofs.Schedule.Countdown
import Firmware.Proofs.Schedule.Rearming
import Firmware.Proofs.Schedule.Refusal
import Firmware.Proofs.Trace.Reading
import Firmware.Proofs.Trace.Recovery
import Firmware.Proofs.Schedule.Deadlines
import Firmware.Proofs.Text.Terminated
