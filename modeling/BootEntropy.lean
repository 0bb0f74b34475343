import BootEntropy.RawDump.Purity
import BootEntropy.Aeb.Response
import BootEntropy.Aeb.Mixing
import BootEntropy.Aeb.Pairing
import BootEntropy.Capsule.WarmReset
import BootEntropy.Aeb.Accounting
import BootEntropy.Sram.Partial
import BootEntropy.Sram.Command
import BootEntropy.Sram.Rows
import BootEntropy.Sram.Completion
import BootEntropy.Aeb.Agreement
import BootEntropy.Aeb.Buffers
import BootEntropy.Aeb.Ratios
import BootEntropy.Capsule.CutBoots
import BootEntropy.RawDump.Aligned
import BootEntropy.Renewal.RoundTrip
import BootEntropy.Capsule.SramStatistics
import BootEntropy.Capsule.Wiping
import BootEntropy.RawDump.StartupTimeout
import BootEntropy.RawDump.ExitStatus
import BootEntropy.Capsule.SummaryTotals
import BootEntropy.Capsule.Collected
import BootEntropy.Aeb.BitCounts
import BootEntropy.Aeb.HexRendering
import BootEntropy.Capsule.PufCaptures
import BootEntropy.RawDump.Connect
import BootEntropy.Aeb.RunnerVerdict
import BootEntropy.RawDump.Analysed
