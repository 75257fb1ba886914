import Mikos.Drivers.BlockRuns
import Mikos.Ext4.BlockMaps
import Mikos.Ext4.DirectoryRuns
import Mikos.Memory.ArenaRuns
import Mikos.Network.FrameParser
import Mikos.Network.Replies
import Mikos.Network.Retirement
import Mikos.Process.AccessModes
import Mikos.Process.ArenaRuns
import Mikos.Process.Bracketing
import Mikos.Process.Clock
import Mikos.Process.Deadlines
import Mikos.Process.Heap
import Mikos.Process.Isolation
import Mikos.Process.Numbers
import Mikos.Process.PipeStreams
import Mikos.Process.Reaping
import Mikos.Process.Scheduling
import Mikos.Process.Sessions
import Mikos.Process.Waiting
import Mikos.Storage.SectorReader
