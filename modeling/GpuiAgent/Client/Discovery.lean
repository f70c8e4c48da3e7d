import GpuiAgent.Host.Screenshot

namespace GpuiAgent

open Framework

namespace Discovery

structure HostRecord where
  addr : String
  pid : Nat
  app : String
  executable : String
  bundleId : Option String
  connectId : Option String
  deriving DecidableEq

structure SessionRecord where
  addr : String
  id : String
  deriving DecidableEq

inductive ResolveError where
  | missing (id : String)
  | ambiguous (id detail : String)
  | badAddr (addr : String)
  | noSession
  deriving DecidableEq

/-- What a file of the `hosts` directory holds. -/
inductive HostBody where
  | unreadable
  | malformed
  | record (rec : HostRecord)
  deriving DecidableEq

structure HostFile where
  name : String
  body : HostBody
  deriving DecidableEq

/-- The `hosts` directory, in the order in which it is read. -/
structure HostsDir where
  files : List HostFile
  nodup : (files.map HostFile.name).Nodup

structure ClientTarget (Addr : Type) where
  addr : Addr
  app : Option String
  connect : Option String
  deriving DecidableEq

/-- The runtime directory: the host records, and the session that `load_session` finds. -/
structure RuntimeDir where
  hosts : HostsDir
  session : Option SessionRecord

/-- What stays as it is around the directory: how addresses are read, the open ports, the processes
there are, and what of the directory can be written. -/
structure Surroundings (Addr : Type) where
  parse : String → Option Addr
  connects : Addr → Bool
  signals : Nat → Bool
  removable : String → Bool
  savable : Bool
  defaultAddr : Addr

def LAST_SESSION : String := "last"

def SESSION_FILE : String := "session.json"

/-- `Path::file_name`. -/
def fileName (path : String) : Option String :=
  (pathComponents path).getLast?.filter (· ≠ "..")

/-- Whether `Path::extension` is `json`. -/
def hasJsonExtension (name : String) : Bool := endsWith name ".json" && decide (name ≠ ".json")

def exactMatch (rec : HostRecord) (id : String) : Bool :=
  decide (rec.bundleId = some id) || decide (rec.connectId = some id) ||
    decide (rec.executable = id) || decide (rec.app = id)

def basenameMatch (rec : HostRecord) (id : String) : Bool :=
  let want := (fileName id).getD id
  let exec := (fileName rec.executable).getD rec.executable
  decide (exec = want) || decide (exec = id)

namespace HostsDir

/-- `fs::remove_file`, whose outcome nothing asks for. -/
def remove (removable : String → Bool) (dir : HostsDir) (name : String) : HostsDir :=
  if removable name then
    ⟨dir.files.filter fun file => file.name ≠ name,
      dir.nodup.sublist (List.filter_sublist.map HostFile.name)⟩
  else dir

end HostsDir

section Resolve

variable {Addr : Type} (env : Surroundings Addr)

def tcpOpen (addr : String) : Bool := (env.parse addr).any env.connects

def pidAlive (pid : Nat) : Bool :=
  if pid = 0 ∨ 2 ^ 31 - 1 < pid then false else env.signals pid

/-- The records of running processes. Other records and broken ones are removed on the way. -/
def loadLiveFrom : List HostFile → HostsDir → List (String × HostRecord) × HostsDir
  | [], dir => ([], dir)
  | file :: files, dir =>
    if !hasJsonExtension file.name then loadLiveFrom files dir
    else match file.body with
      | .unreadable => loadLiveFrom files dir
      | .malformed => loadLiveFrom files (dir.remove env.removable file.name)
      | .record rec =>
        if !pidAlive env rec.pid then loadLiveFrom files (dir.remove env.removable file.name)
        else
          let (out, dir) := loadLiveFrom files dir
          ((file.name, rec) :: out, dir)

def loadLive (dir : HostsDir) : List (String × HostRecord) × HostsDir :=
  loadLiveFrom env dir.files dir

/-- The candidates whose ports are open. The records of the others are removed. -/
def probe : List (String × HostRecord) → HostsDir → List HostRecord × HostsDir
  | [], dir => ([], dir)
  | (path, rec) :: rest, dir =>
    if tcpOpen env rec.addr then
      let (found, dir) := probe rest dir
      (rec :: found, dir)
    else probe rest (dir.remove env.removable path)

def ambiguity (found : List HostRecord) : String :=
  ", ".intercalate (found.map fun rec => s!"{rec.app} ({rec.addr})")

def resolveId (dir : HostsDir) (id : String) : Except ResolveError HostRecord × HostsDir :=
  let (live, dir) := loadLive env dir
  let exact := live.filter fun entry => exactMatch entry.2 id
  let candidates :=
    if exact.isEmpty then live.filter fun entry => basenameMatch entry.2 id else exact
  let (found, dir) := probe env candidates dir
  match found with
  | [] => (.error (.missing id), dir)
  | [rec] => (.ok rec, dir)
  | found => (.error (.ambiguous id (ambiguity found)), dir)

def parseAddr (addr : String) : Except ResolveError Addr :=
  match env.parse addr with
  | some parsed => .ok parsed
  | none => .error (.badAddr addr)

/-- Whether the session could be saved, and the directory after it. -/
def saveSession (root : RuntimeDir) (addr id : String) : Bool × RuntimeDir :=
  if env.savable then (true, { root with session := some ⟨addr, id⟩ }) else (false, root)

def removeSession (root : RuntimeDir) : RuntimeDir :=
  if env.removable SESSION_FILE then { root with session := none } else root

/-- `--connect last`. -/
def resolveLast (root : RuntimeDir) : Except ResolveError (ClientTarget Addr) × RuntimeDir :=
  match root.session with
  | none => (.error .noSession, root)
  | some session =>
    let (found, hosts) := resolveId env root.hosts session.id
    let root := { root with hosts }
    match found with
    | .ok rec =>
      ((parseAddr env rec.addr).map fun addr => ⟨addr, some rec.app, some LAST_SESSION⟩,
        (saveSession env root rec.addr session.id).2)
    | .error _ =>
      if tcpOpen env session.addr then
        ((parseAddr env session.addr).map fun addr => ⟨addr, some session.id, some LAST_SESSION⟩,
          root)
      else (.error (.missing session.id), removeSession env root)

def resolveClientTarget (root : RuntimeDir) (explicit : Option Addr) (connect : Option String) :
    Except ResolveError (ClientTarget Addr) × RuntimeDir :=
  match explicit, (connect.map trim).filter (· ≠ "") with
  | some addr, _ => (.ok ⟨addr, none, none⟩, root)
  | none, none => (.ok ⟨env.defaultAddr, none, none⟩, root)
  | none, some id =>
    if id = LAST_SESSION then resolveLast env root
    else
      let (found, hosts) := resolveId env root.hosts id
      let root := { root with hosts }
      match found with
      | .error err => (.error err, root)
      | .ok rec => match saveSession env root rec.addr id with
        | (false, root) => (.error (.badAddr rec.addr), root)
        | (true, root) =>
          ((parseAddr env rec.addr).map fun addr => ⟨addr, some rec.app, some id⟩, root)

end Resolve

end Discovery

end GpuiAgent
