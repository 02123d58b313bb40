import Camlistore.Store
import Camlistore.DiskStorage
import Camlistore.Receive
import Camlistore.System
import Camlistore.SingleCall
import Camlistore.Contract
import Camlistore.NameReuse
import Camlistore.Progress
import Camlistore.Concurrent
import Camlistore.Integrity
import Camlistore.Camlistored
import Camlistore.Durable
import Camlistore.Restart
