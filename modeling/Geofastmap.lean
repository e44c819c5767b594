import Geofastmap.Bulk.Activity
import Geofastmap.Bulk.Cleanup
import Geofastmap.Bulk.Detached
import Geofastmap.Bulk.Enqueue
import Geofastmap.Bulk.Honest
import Geofastmap.Bulk.Modes
import Geofastmap.Bulk.Orphans
import Geofastmap.Bulk.Replace
import Geofastmap.Cache.Invalidate
import Geofastmap.Cache.Reads
import Geofastmap.Cache.TileJobs
import Geofastmap.Composite.Export
import Geofastmap.Copy.Keys
import Geofastmap.Copy.Stream
import Geofastmap.Gate.Singleflight
import Geofastmap.Gate.Slots
import Geofastmap.Import.Buffer
import Geofastmap.Import.Readers
import Geofastmap.Import.Subdivide
import Geofastmap.Items.Effects
import Geofastmap.Items.Exact
import Geofastmap.Items.Filters
import Geofastmap.Jobs.Agree
import Geofastmap.Mosaic.Collect
import Geofastmap.Mosaic.Dispatch
import Geofastmap.Mosaic.Footprint
import Geofastmap.Mosaic.Index
import Geofastmap.Mosaic.Months
import Geofastmap.Mosaic.Plan
import Geofastmap.Mosaic.PreviewTasks
import Geofastmap.Mosaic.Seasons
import Geofastmap.Mosaic.Starved
import Geofastmap.Mosaic.Subtasks
import Geofastmap.Mosaic.VoidFill
import Geofastmap.Process.Access
import Geofastmap.Process.Atoms
import Geofastmap.Process.Dissolve
import Geofastmap.Process.Erase
import Geofastmap.Process.Layers
import Geofastmap.Process.Recovery
import Geofastmap.Process.ResultIds
import Geofastmap.Process.Tables
import Geofastmap.Queue.Payloads
import Geofastmap.Raster.Account
import Geofastmap.Share.Listing
import Geofastmap.Storage.Rescan
import Geofastmap.Storage.SelfHeal
import Geofastmap.Storage.UsageTasks
import Geofastmap.Style.Lookup
import Geofastmap.Tiles.GeoJsonSeq
import Geofastmap.Tiles.Install
import Geofastmap.Tiles.Lease
import Geofastmap.Upload.Complete
import Geofastmap.Upload.Parts
