import MeshControl.Client.Call
import MeshControl.Client.Events
import MeshControl.CommandLine.Grammar
import MeshControl.CommandLine.Report
import MeshControl.Server.Config
import MeshControl.Text.Decimal
/-!
The administrator's command line. One line is one task: to publish or withdraw a service or a
prefix, to ask for the name of the tunnel, or to watch the events of a kind until the connection
ends. Hexadecimal data and prefixes are read when the task is carried out, so that a line that
spells them wrong still connects but sends nothing.
-/

namespace MeshControl.CommandLine.Admin

/-- How a prefix is to be published. Lifetimes are in seconds. -/
structure PrefixArguments where
  spelling : String := ""
  preferred : UInt32 := 1800
  valid : UInt32 := 1800
  slaac : Bool := false
  onMesh : Bool := false
  stable : Bool := false
deriving DecidableEq, Repr

/-- The terms for the prefix that the arguments spell. -/
def PrefixArguments.terms (arguments : PrefixArguments) (meshPrefix : MeshPrefix)
    (length : UInt8) : PrefixTerms where
  preferredLifetime := arguments.preferred
  validLifetime := arguments.valid
  meshPrefix := meshPrefix.bytes
  length := length
  slaac := arguments.slaac
  onMesh := arguments.onMesh
  stable := arguments.stable

/-- A task. Data, prefixes and their lengths are kept as they are spelled. -/
inductive Task where
  | addService (enterprise : UInt32) (serviceData serverData : String)
  | removeService (enterprise : UInt32) (serviceData : String)
  | addPrefix (arguments : PrefixArguments)
  | removePrefix (spelling : String)
  | tunnelName
  | watch (kind : EventKind)
deriving DecidableEq, Repr

structure Invocation where
  socketPath : String
  task : Task
deriving DecidableEq, Repr

/-! ## Reading the line -/

def word? (text : String) : Option UInt32 :=
  match Text.Decimal.readSignedUpTo 4294967295 text with
  | .ok value => some (UInt32.ofNat value)
  | .error _ => none

/-- The names of the kinds that can be watched. -/
def watchNames : List (String × EventKind) :=
  [("state", .state), ("partition", .partition), ("role", .role), ("services", .service),
    ("prefixes", .onMeshPrefix)]

/-- A service as far as its arguments have been read. -/
structure ServiceArguments where
  enterprise : UInt32 := 0
  serviceData : String := ""
  serverData : String := ""

def servicePositionals : List (Positional ServiceArguments) :=
  [{ set := fun text service => (word? text).map ({ service with enterprise := · }) },
    { set := fun text service => some { service with serviceData := text } }]

def addServiceGrammar : Grammar ServiceArguments where
  positionals := servicePositionals ++
    [{ isRequired := false, set := fun text service => some { service with serverData := text } }]

def removeServiceGrammar : Grammar ServiceArguments where
  positionals := servicePositionals

def prefixPositionals : List (Positional PrefixArguments) :=
  [{ set := fun text entry => some { entry with spelling := text } }]

def addPrefixGrammar : Grammar PrefixArguments where
  positionals := prefixPositionals
  options :=
    [.value "preferred-lifetime" none fun text entry =>
        (word? text).map ({ entry with preferred := · }),
      .value "valid-lifetime" none fun text entry =>
        (word? text).map ({ entry with valid := · }),
      .flag "slaac" ({ · with slaac := true }),
      .flag "on-mesh" ({ · with onMesh := true }),
      .flag "stable" ({ · with stable := true })]

def removePrefixGrammar : Grammar PrefixArguments where
  positionals := prefixPositionals

def watchGrammar : Grammar (Option EventKind) where
  positionals := [{ set := fun text _ => (watchNames.lookup text).map some }]

/-- A line as far as it has been read. -/
structure Draft where
  socketPath : String := defaultSocketPath
  task : Option Task := none

/-- A command that comes to a task. -/
def taskCommand {δ : Type} (name : String) (grammar : Grammar δ) (start : δ)
    (task : δ → Option Task) : Command Draft :=
  .ofGrammar name grammar start fun read draft => { draft with task := task read }

/-- The grammar of a line. The path of the socket is not empty. -/
def grammar : Grammar Draft where
  options :=
    [.value "socket" (some 's') fun path draft =>
      if path.isEmpty then none else some { draft with socketPath := path }]
  commands :=
    [taskCommand "add-service" addServiceGrammar {} fun service =>
        some (.addService service.enterprise service.serviceData service.serverData),
      taskCommand "remove-service" removeServiceGrammar {} fun service =>
        some (.removeService service.enterprise service.serviceData),
      taskCommand "add-prefix" addPrefixGrammar {} (some <| .addPrefix ·),
      taskCommand "remove-prefix" removePrefixGrammar {} (some <| .removePrefix ·.spelling),
      taskCommand "tunnel-name" {} () fun _ => some .tunnelName,
      taskCommand "watch" watchGrammar none (·.map .watch)]

def read (line : List String) : Except Refusal Invocation :=
  match grammar.read {} line with
  | .ok { socketPath, task := some task } => .ok { socketPath, task }
  | .ok { task := none, .. } => .error .usage
  | .error refusal => .error refusal

/-! ## Carrying out the task -/

def eventLines : Event → List String
  | .state state => [s!"state: {state.name}"]
  | .partition partition => ["partition: 0x" ++ Text.Hex.padded 8 partition.toUInt32.toNat]
  | .role role => [s!"role: {role.name}"]
  | .services services =>
    s!"services ({services.length}):" :: services.map fun service =>
      s!"  {service.enterprise.toNat} service={Text.Hex.dump service.serviceData} " ++
        s!"server={Text.Hex.dump service.serverData}"
  | .prefixes prefixes =>
    s!"prefixes ({prefixes.length}):" :: prefixes.map fun entry =>
      s!"  {entry.meshPrefix.render entry.length} slaac={entry.slaac} " ++
        s!"on_mesh={entry.onMesh} stable={entry.stable}"

/-- What came of a task: the lines that were printed, and the report if it failed. -/
structure Performance where
  printed : List String := []
  failure : Option Report := none
  client : Client

def bytes (text : String) : Except Report Bytes :=
  match Text.Hex.read text with
  | .ok bytes => .ok bytes
  | .error flaw =>
    .error { text := s!"Invalid hex data: {Text.quoted text}", causes := [flaw.message] }

def meshPrefix (text : String) : Except Report (MeshPrefix × UInt8) :=
  match MeshPrefix.read text with
  | .ok result => .ok result
  | .error flaw => .error { text := flaw.message, causes := flaw.causes }

/-- Makes a call, if its arguments could be read, and prints what it gives. -/
def perform {α : Type} (call : Except Report (Call α)) (print : α → String) (client : Client) :
    Performance :=
  match call with
  | .error report => { failure := some report, client }
  | .ok call =>
    match call client with
    | .ok value client => { printed := [print value], client }
    | .error e client => { failure := some (.ofClient e), client }

/-- Subscribes to a kind of events and prints events until the connection ends. -/
def watchEvents (kind : EventKind) (client : Client) : Performance :=
  match Client.subscribe kind client with
  | .error e client => { failure := some (.ofClient e), client }
  | .ok _ client =>
    let (events, e, client) := client.watch
    { printed := events.flatMap eventLines, failure := some (.ofClient e), client }

def Task.run (client : Client) : Task → Performance
  | .addService enterprise serviceData serverData =>
    perform (do
      let serviceData ← bytes serviceData
      let serverData ← bytes serverData
      return Client.addService enterprise serviceData serverData) (fun _ => "Service added") client
  | .removeService enterprise serviceData =>
    perform (do
      let serviceData ← bytes serviceData
      return Client.removeService enterprise serviceData) (fun _ => "Service removed") client
  | .addPrefix arguments =>
    perform (do
      let (meshPrefix, length) ← meshPrefix arguments.spelling
      return Client.addPrefix (arguments.terms meshPrefix length)) (fun _ => "Prefix added") client
  | .removePrefix spelling =>
    perform (do
      let (meshPrefix, length) ← meshPrefix spelling
      return Client.removePrefix meshPrefix.bytes length) (fun _ => "Prefix removed") client
  | .tunnelName => perform (.ok Client.tunnelName) id client
  | .watch kind => watchEvents kind client

/-- The report that no connection could be had. -/
def connectFailure (socketPath : String) (e : ClientError) : Report :=
  .within s!"Failed to connect to {socketPath}" (.ofClient e)

end MeshControl.CommandLine.Admin
