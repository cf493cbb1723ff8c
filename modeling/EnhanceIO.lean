import EnhanceIO.CacheState
import EnhanceIO.Geometry
import EnhanceIO.Meta
import EnhanceIO.Types
import EnhanceIO.Lookup
import EnhanceIO.Request
import EnhanceIO.WriteBack
import EnhanceIO.Step
import EnhanceIO.Frame
import EnhanceIO.Lib.Run
import EnhanceIO.Control
import EnhanceIO.Blocks
import EnhanceIO.Issue
import EnhanceIO.Peek
import EnhanceIO.Live
import EnhanceIO.Preserve.Map
import EnhanceIO.Preserve.Paths
import EnhanceIO.Preserve.Main
import EnhanceIO.Preserve.Ssd
import EnhanceIO.Preserve.Update
import EnhanceIO.Preserve.Clean
import EnhanceIO.States
import EnhanceIO.Compressed
import EnhanceIO.Create
import EnhanceIO.Lib.Count
import EnhanceIO.Tally
import EnhanceIO.Lib.Paged
import EnhanceIO.MdIo
import EnhanceIO.MdPages
import EnhanceIO.Reload
import EnhanceIO.RoundTrip
import EnhanceIO.Lib.Linked
import EnhanceIO.SetLru
import EnhanceIO.DirtySets
import EnhanceIO.Placed
import EnhanceIO.Shutdown
import EnhanceIO.Sealed
import EnhanceIO.SavedImage
import EnhanceIO.HddErrors
import EnhanceIO.SetLocks
import EnhanceIO.Registry
import EnhanceIO.Routing
import EnhanceIO.Devices
import EnhanceIO.ModeSwitch
import EnhanceIO.Drained
import EnhanceIO.MdActs
import EnhanceIO.Asserts
import EnhanceIO.Lib.Sorted
import EnhanceIO.MdQueue
import EnhanceIO.EbActs
import EnhanceIO.CachedWrites
import EnhanceIO.Completion
import EnhanceIO.BlockLru
import EnhanceIO.Policies
import EnhanceIO.Dispatch
import EnhanceIO.IoContext
import EnhanceIO.CleanSelect
import EnhanceIO.CleanSet
import EnhanceIO.InvalRange
import EnhanceIO.InvalSysctl
import EnhanceIO.Ebios
import EnhanceIO.CacheEdit
import EnhanceIO.FinishNrdirty
import EnhanceIO.InvalCache
import EnhanceIO.ReadFill
import EnhanceIO.LoadSafe
import EnhanceIO.MdRepr
import EnhanceIO.CacheList
import EnhanceIO.GeomArith
import EnhanceIO.IndexArith
import EnhanceIO.LruWalk
import EnhanceIO.SsdRemoval
import EnhanceIO.Uncached
import EnhanceIO.Safety
