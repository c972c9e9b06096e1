import MblCore.App.Aside
import MblCore.App.Boot
import MblCore.App.BrokenApp
import MblCore.App.BundleScan
import MblCore.App.Bundles
import MblCore.App.Calls
import MblCore.App.CarelessInstall
import MblCore.App.Clock
import MblCore.App.Container
import MblCore.App.ControlData
import MblCore.App.Device
import MblCore.App.FailedInstall
import MblCore.App.GivesUp
import MblCore.App.Histories
import MblCore.App.InstallPhase
import MblCore.App.Interference
import MblCore.App.KeptAfterReboot
import MblCore.App.Lifecycle
import MblCore.App.Manager
import MblCore.App.NextVersion
import MblCore.App.OwnApps
import MblCore.App.PowerLoss
import MblCore.App.Python
import MblCore.App.RestoresVersions
import MblCore.App.Rollback
import MblCore.App.Rules
import MblCore.App.Scan
import MblCore.App.StartPhase
import MblCore.App.StartedBundle
import MblCore.App.StuckApp
import MblCore.App.SuccessfulUpdate
import MblCore.App.Terminate
import MblCore.App.TerminateCalls
import MblCore.App.TerminatedTwice
import MblCore.App.Tidy
import MblCore.App.Truthful
import MblCore.App.Unpack
import MblCore.App.Update
import MblCore.App.VersionOrder
import MblCore.App.Versions
import MblCore.CloudClient.Callbacks
import MblCore.CloudClient.Credentials
import MblCore.CloudClient.KcmStore
import MblCore.CloudClient.Log
import MblCore.CloudClient.MblCloudClient
import MblCore.CloudClient.Provisioning
import MblCore.CloudClient.ProvisioningUtil
import MblCore.CloudClient.Registration
import MblCore.CloudClient.Reprovisioning
import MblCore.Handshake.AppUpdates
import MblCore.Handshake.Phase
import MblCore.Handshake.Progress
import MblCore.Handshake.Requests
import MblCore.Handshake.Scripts
import MblCore.Lib.BlockHash
import MblCore.Lib.Bounded
import MblCore.Lib.Breach
import MblCore.Lib.CString
import MblCore.Lib.Crc
import MblCore.Lib.Digits
import MblCore.Lib.Drift
import MblCore.Lib.Fair
import MblCore.Lib.FileTree
import MblCore.Lib.FlatDir
import MblCore.Lib.Follows
import MblCore.Lib.Getopt
import MblCore.Lib.HumanSort
import MblCore.Lib.Interleave
import MblCore.Lib.Keeps
import MblCore.Lib.KeySort
import MblCore.Lib.Lookup
import MblCore.Lib.Loops
import MblCore.Lib.Lts
import MblCore.Lib.Memory
import MblCore.Lib.Method
import MblCore.Lib.Prog
import MblCore.Lib.Replies
import MblCore.Lib.Sha256
import MblCore.Lib.Shell
import MblCore.Lib.Strtol
import MblCore.Lib.Struct
import MblCore.Lib.Text
import MblCore.Lib.Traces
import MblCore.OpenPorts.Addresses
import MblCore.OpenPorts.Coverage
import MblCore.OpenPorts.Netstatutils
import MblCore.OpenPorts.OpenPortsChecker
import MblCore.OpenPorts.Owners
import MblCore.OpenPorts.Verdict
import MblCore.Swupdate.AbSafety
import MblCore.Swupdate.Activate
import MblCore.Swupdate.ActiveDetails
import MblCore.Swupdate.ArmHandlerCommon
import MblCore.Swupdate.BootChecks
import MblCore.Swupdate.BootFlag
import MblCore.Swupdate.Buffers
import MblCore.Swupdate.Commands
import MblCore.Swupdate.Commit
import MblCore.Swupdate.CopyFailure
import MblCore.Swupdate.Device
import MblCore.Swupdate.FirmwareUpdateManager
import MblCore.Swupdate.FlashWrites
import MblCore.Swupdate.HandlerBuffers
import MblCore.Swupdate.HandlerMemory
import MblCore.Swupdate.HandlerSafety
import MblCore.Swupdate.Installers
import MblCore.Swupdate.MountedDevice
import MblCore.Swupdate.RebootFlag
import MblCore.Swupdate.Remounts
import MblCore.Swupdate.RootfsHandler
import MblCore.Swupdate.TargetPartition
import MblCore.Swupdate.Writes
import MblCore.UpdateHeader.Corruption
import MblCore.UpdateHeader.FirmwareHash
import MblCore.UpdateHeader.FirmwareUpdateHeader
import MblCore.UpdateHeader.Format
import MblCore.UpdateHeader.Objects
import MblCore.UpdateHeader.PackOutcome
import MblCore.Updated.Agreement
import MblCore.Updated.Clients
import MblCore.Updated.Handover
import MblCore.Updated.InstanceLock
import MblCore.Updated.PayloadHardLink
import MblCore.Updated.PayloadHarm
import MblCore.Updated.ServiceImpl
import MblCore.Updated.Signals
import MblCore.Updated.SlotFlag
import MblCore.Updated.StartUpdate
import MblCore.Updated.UpdateCoordinator
import MblCore.Watchdog.Main
import MblCore.Watchdog.MblWatchdogInit
