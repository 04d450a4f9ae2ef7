import Tl880.InterruptLookup
import Tl880.InterruptType
import Tl880.Hotplug
import Tl880.Probe
import Tl880.Mmap
import Tl880.Vpx
import Tl880.VpxSettings
import Tl880.I2cDispatch
import Tl880.I2cAudio
import Tl880.I2cBuses
import Tl880.Vip
import Tl880.AlsaPeriods
import Tl880.AlsaTimerRuns
import Tl880.MemoryOwners
import Tl880.RegbitsRace
import Tl880.CardAccess
import Tl880.Display
import Tl880.SampleRate
import Tl880.InitCard
import Tl880.AudioSetup
import Tl880.AlsaTrigger
import Tl880.AlsaBuffer
import Tl880.AuxDma
import Tl880.AuxScaler
import Tl880.PciLookup
import Tl880.SwapCopy
import Tl880.GpioBus
import Tl880.Ioctl
import Tl880.AlsaInit
import Tl880.CursorIds
import Tl880.AudioBuffer
import Tl880.RegFields
import Tl880.DpcMode
import Tl880.OsdRoundTrip
import Tl880.CursorSurface
import Tl880.Crossfade
import Tl880.DpcRate
import Tl880.DeleteDev
import Tl880.ProcRead
import Tl880.RegLoad
import Tl880.MemTools
import Tl880.OsdCompact
import Tl880.CallbackLists
import Tl880.ClearSdram
import Tl880.CrcTable
import Tl880.Demux
import Tl880.TsdHandshake
import Tl880.AudioRing
import Tl880.VpipRuns
import Tl880.PoolDestroy
import Tl880.CardLife
import Tl880.OsdHistory
import Tl880.AuxReset
import Tl880.HexCount
import Tl880.DumpLoad
import Tl880.RegDump
import Tl880.CursorImage
import Tl880.CursorRuns
import Tl880.PllConst
import Tl880.Unload
import Tl880.BringUpTable
