import Memcached.Protocol
import Memcached.SubdocValidator
import Memcached.MultiLookupValidator
import Memcached.SubdocExecutor
import Memcached.ExecutorRuns
import Memcached.TopKeys
import Memcached.CasEngine
import Memcached.CasRetry
import Memcached.SubdocUpdate
import Memcached.AllocHooks
import Memcached.ConfigParse
import Memcached.ConfigReload
import Memcached.TopKeysShards
import Memcached.ConfigValidate
import Memcached.ConfigInterfaces
import Memcached.ConfigMemory
import Memcached.ExecutorFootprint
import Memcached.BadMalloc
import Memcached.ExecutorEntries
import Memcached.Ioctl
