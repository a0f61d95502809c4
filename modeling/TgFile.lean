import TgFile.Directory.Shape
import TgFile.WebDAV.Sync
import TgFile.System.DeleteLife
import TgFile.BlockIO.Compensation
import TgFile.S3.ListPages
import TgFile.Backup.JobRuns
import TgFile.BlockIO.DamagedSegments
import TgFile.S3.CompletedObject
import TgFile.Db.Migrations
import TgFile.Cache.Disk
import TgFile.Directory.Semantics
import TgFile.System.LockLookup
import TgFile.System.MoveLocks
import TgFile.WebDAV.LockedOut
import TgFile.S3.Conditions
import TgFile.S3.Ranges
import TgFile.Backup.StrictJson
import TgFile.WebDAV.Xml
import TgFile.S3.Crc
import TgFile.Store.Audit
import TgFile.File.Links
import TgFile.Cache.Metadata
import TgFile.S3.PathLocker
