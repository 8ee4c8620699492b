import TmDb.BadgerDB
import TmDb.Remote.Client

/-! The six backends as databases, the registry of db.go with their names, and what
a caller can stack: PrefixDB over anything, RemoteDB over a backend that its server
has made by name. -/

namespace TmDb
open Lib

/-- goleveldb.go, cleveldb.go and rocksdb.go: the same checks around an engine. They
differ in their iterators, their batches and what they report as stats. -/
def LevelDB.db (iter : IterOps LevelIter) (newIterator : Store → Slice → Slice → Bool → LevelIter)
    (batch : BatchOps Engine LevelBatch) (stats : Engine → List (Bytes × Bytes)) : DB :=
  let iteratorWith (reverse : Bool) (engine : Engine) (start stop : Slice) : Option (Except Err LevelIter) :=
    match checkBounds start stop with
    | .error err => some (.error err)
    | .ok _ => some (.ok (newIterator engine.store start stop reverse))
  { State := Engine
    Batch := LevelBatch
    Iter := LevelIter
    get := BoltDB.get
    has := BoltDB.has
    set := LevelDB.set
    setSync := LevelDB.set
    delete := LevelDB.delete
    deleteSync := LevelDB.delete
    iterator := iteratorWith false
    reverseIterator := iteratorWith true
    iter := iter
    newBatch := some []
    batch := batch
    stats := stats }

/-- What a property of goleveldb is, if it has one of that name. -/
def goLevelDB (property : Engine → String → Option Bytes) : DB :=
  LevelDB.db goLevelDBIterator
    (fun store start stop => newGoLevelDBIterator (store.rangeCursor start stop) start stop) goLevelDBBatch
    fun engine => ["leveldb.num-files-at-level\x7bn\x7d", "leveldb.stats", "leveldb.sstables", "leveldb.blockpool",
      "leveldb.cachedblock", "leveldb.openedtables", "leveldb.alivesnaps", "leveldb.aliveiters"].filterMap
        fun key => (property engine key).map fun text => (goString key, text)

def cLevelDB (propertyValue : Engine → String → Bytes) : DB :=
  LevelDB.db cLevelDBIterator (fun store => newCLevelDBIterator store.cursor) cLevelDBBatch
    fun engine => ["leveldb.num-files-at-level\x7bn\x7d", "leveldb.sstables", "leveldb.stats",
      "leveldb.approximate-memory-usage"].map fun key => (goString key, propertyValue engine key)

def rocksDB (getProperty : Engine → String → Bytes) : DB :=
  LevelDB.db rocksDBIterator (fun store => newRocksDBIterator store.cursor) rocksDBBatch
    fun engine => ["rocksdb.stats"].map fun key => (goString key, getProperty engine key)

/-- What the backends use of their engines beside reading and writing. -/
structure Engines where
  goLevelProperty : Engine → String → Option Bytes
  cLevelProperty : Engine → String → Bytes
  rocksProperty : Engine → String → Bytes
  boltStats : Engine → List (Bytes × Bytes)
  writeBatch : WriteBatch

inductive Backend where
  | goLevelDB
  | cLevelDB
  | memDB
  | boltDB
  | rocksDB
  | badgerDB
deriving DecidableEq

namespace Backend

def name : Backend → String
  | .goLevelDB => "goleveldb"
  | .cLevelDB => "cleveldb"
  | .memDB => "memdb"
  | .boltDB => "boltdb"
  | .rocksDB => "rocksdb"
  | .badgerDB => "badgerdb"

def db (engines : Engines) : Backend → DB
  | .goLevelDB => TmDb.goLevelDB engines.goLevelProperty
  | .cLevelDB => TmDb.cLevelDB engines.cLevelProperty
  | .memDB => TmDb.memDB
  | .boltDB => TmDb.boltDB engines.boltStats
  | .rocksDB => TmDb.rocksDB engines.rocksProperty
  | .badgerDB => TmDb.badgerDB engines.writeBatch

end Backend

/-- The backends that a build has registered. NewDB looks a name up among them before
it makes anything, so what stands under another name is never held. -/
def backends (engines : Engines) (registered : List Backend) : Registry where
  types := registered.map Backend.name
  db name := ((registered.find? fun backend => backend.name = name).getD .memDB).db engines

/-- A database as a caller can build it. -/
inductive Stack where
  | base (backend : Backend)
  | remote
  | prefixed (pfx : Bytes) (below : Stack)

def Stack.db (engines : Engines) (registered : List Backend) : Stack → DB
  | .base backend => backend.db engines
  | .remote => remoteDB (backends engines registered)
  | .prefixed pfx below => prefixDB (below.db engines registered) pfx

end TmDb
