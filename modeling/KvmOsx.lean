import KvmOsx.Genconfig.RootPorts
import KvmOsx.Genconfig.PreRun
import KvmOsx.Genconfig.VtapNames
import KvmOsx.Host.Frozen
import KvmOsx.Host.UsbRegistry
import KvmOsx.Host.EvdevIds
import KvmOsx.Host.PidFile
import KvmOsx.Host.DriverBind
import KvmOsx.Host.Neighbours
import KvmOsx.Backup.History
import KvmOsx.Exec.DiskServers
import KvmOsx.Host.Listings
import KvmOsx.Genconfig.BusesKnown
import KvmOsx.Qmp.Status
import KvmOsx.Host.CpuSets
import KvmOsx.Host.Autostart
import KvmOsx.Backup.TagTrip
import KvmOsx.Qmp.Threads
import KvmOsx.Qmp.Send
import KvmOsx.Host.SharedCommit
import KvmOsx.Genconfig.OptStrings
import KvmOsx.Backup.RestoreTree
import KvmOsx.Firmware.Preinit
import KvmOsx.Firmware.PciWindows
import KvmOsx.Firmware.PciProbe
