import ComponentBuilder.Assembly
import ComponentBuilder.Log
import ComponentBuilder.Request
import ComponentBuilder.Service.Body
import ComponentBuilder.Service.Resource
import ComponentBuilder.Service.Target

/-!
# The service

The builder behind requests.  A service owns the store, the agents and one preview session; every
request leads to one response and to the service after it.
-/

namespace ComponentBuilder

namespace Service

open Agent (Agents)
open History (LoadFault Mint Shelf Store StoreFault)

/-- A request. -/
structure Call where
  method : String
  target : String
  body : String := ""

/-- The service. -/
structure Server (σ : Type) where
  settings : Settings
  agents : Agents σ
  site : Build.Site σ
  preview : Preview.Session

/-- What a request is given: identifiers for what it makes, and the time in seconds. -/
structure Moment where
  mint : Mint
  seconds : Double

/-- Why a service did not start, or did not stop in order. -/
inductive Failure where
  /-- The level of the log is no level. -/
  | level (misnomer : Log.Level.Misnomer)
  /-- The saved store was not loaded. -/
  | load (fault : LoadFault)
  /-- The store was not saved. -/
  | save (fault : StoreFault)
deriving DecidableEq, Repr

namespace Server

variable {σ : Type}

/-- Start a service over what is saved on a shelf, after its log. -/
def start (settings : Settings) (agents : Agents σ) (state : σ) (shelf : Shelf) (mint : Mint) :
    Except Failure (Server σ) :=
  let store : Store := { defaultFile := settings.defaultFile, shelf := some shelf }
  match Log.Level.ofName settings.logLevel, store.load mint none with
  | .error misnomer, _ => .error (.level misnomer)
  | .ok _, (_, .error fault) => .error (.load fault)
  | .ok _, (store, .ok ()) =>
      .ok { settings := settings, agents := agents, site := { store := store, state := state },
            preview := { watchdog := some settings.watchdogSeconds } }

/-- Stop a service: its store is saved for the last time. -/
def stop (server : Server σ) : Except Failure (Server σ) :=
  match server.site.store.close with
  | (_, .error fault) => .error (.save fault)
  | (store, .ok ()) => .ok { server with site := { server.site with store := store } }

/-- Stop a service and start it again over what it saved; what was counted is kept. -/
def restart (server : Server σ) (mint : Mint) : Except Failure (Server σ) :=
  server.stop.bind fun stopped =>
    let shelf := stopped.site.store.shelf.getD { path := server.settings.snapshotPath }
    (start server.settings server.agents server.site.state shelf mint).map fun fresh =>
      { fresh with site := { fresh.site with trace := server.site.trace } }

/-- The service with another store. -/
def withStore (server : Server σ) (store : Store) : Server σ :=
  { server with site := { server.site with store := store } }

/-- Count events. -/
def count (server : Server σ) (events : List Metrics.Event) : Server σ :=
  { server with site := { server.site with trace := server.site.trace ++ { events := events } } }

/-- What was counted so far. -/
def metrics (server : Server σ) : Metrics :=
  Metrics.empty.countAll server.site.trace.events

/-- The service after a request, and the response. -/
abbrev Answer (σ : Type) := Server σ × Response

/-- Answer a request that changes nothing. -/
def view (server : Server σ) (value : Json) : Answer σ :=
  (server, .ok value)

/-- Answer what a body asks for, or say why it is refused. -/
def asked {α : Type} (server : Server σ) (check : List (String × Json) → Schema.Checked α)
    (body : String) (answer : α → Answer σ) : Answer σ :=
  match readRequest check body with
  | .ok request => answer request
  | .error response => (server, response)

/-! ## Files -/

/-- The identifier of the version at the cursor of a file. -/
def currentId (store : Store) (file : String) : Json :=
  ((store.current? (some file)).map fun version => Json.str version.id).getD .null

/-- All files with the numbers of their versions. -/
def listFiles (store : Store) : Json :=
  .arr (store.files.map fun name =>
    .obj [("name", .str name), ("type", .str "file"),
      ("versions", .int (store.versions (some name)).length)])

/-- The code of a file. -/
def showCode (store : Store) (file : String) : Json :=
  .obj [("file", .str file), ("code", .str (store.code (some file))),
    ("version", currentId store file)]

/-- The messages about a file. -/
def showMessages (store : Store) (file : String) : Json :=
  .arr ((store.messages (some file)).map History.Message.toJson)

/-- The versions of a file. -/
def showVersions (store : Store) (file : String) : Json :=
  .obj [("current", currentId store file),
    ("versions", .arr ((store.versions (some file)).map History.Version.toJson))]

/-- Forget a file. -/
def deleteFile (server : Server σ) (file : String) : Answer σ :=
  let (store, result) := server.site.store.deleteFile file
  (server.withStore store, match result with
    | .ok true => .ok (.obj [("status", .str "deleted"), ("file", .str file)])
    | .ok false => .error 404 "File not found" [("file", .str file)]
    | .error fault => .ofStoreFault fault)

/-! ## Builds and history -/

/-- What a build produced, as clients see it. -/
def jsonProduct (product : Build.Product) : Json :=
  .obj [("plan", product.plan.toPublicJson), ("code", .str product.code),
    ("explanation", .str product.explanation), ("structured", .bool product.tree.isSome),
    ("version", product.version.toJson)]

/-- Build from a prompt that is not too long. -/
def generate (server : Server σ) (moment : Moment) (request : Request.Generate) : Answer σ :=
  let limit := server.settings.maxPromptLength
  if limit < request.prompt.length then
    (server, .error 400 ("Prompt exceeds " ++ toString limit ++ " characters"))
  else
    let (result, site) := Build.run server.agents server.settings.strictness moment.mint request.file
      request.prompt request.previousPlan server.site
    ({ server with site := site }, match result with
      | .ok product => .ok (jsonProduct product)
      | .error fault => .ofFault fault)

/-- Go to a version of a file. -/
def rollback (server : Server σ) (request : Request.Rollback) : Answer σ :=
  let (store, result) := server.site.store.rollback request.file request.id
  (server.withStore store, match result with
    | .ok version => .ok (.obj [("status", .str "rolled_back"), ("version", version.toJson)])
    | .error fault => .ofStoreFault fault)

/-! ## Work on a source -/

/-- Check a source. -/
def validate (server : Server σ) (request : Request.Source) : Answer σ :=
  let report := Guard.validate server.settings.strictness request.code
  (server.count report.events).view
    (.obj [("ok", .bool report.ok), ("violations", Response.strings report.messages),
      ("rules", Response.strings report.ruleNames)])

/-- Bring a source into canonical form. -/
def transform (server : Server σ) (moment : Moment) (request : Request.Source) : Answer σ :=
  match Markup.transform (fun n => moment.mint.node [n]) Markup.defaultComponent request.code with
  | .ok canonical =>
      server.view (.obj [("tree", canonical.tree.toJson), ("code", .str canonical.code)])
  | .error fault => (server, .ofParseError fault)

/-! ## The preview -/

/-- Load a source into the preview. -/
def loadPreview (server : Server σ) (moment : Moment) (request : Request.Source) : Answer σ :=
  let (session, document) := server.preview.load moment.seconds (.str request.code)
  ({ server with preview := session }.count [document.event],
    { status := 200, content := .page document,
      headers := [("x-preview-generation", toString session.generation),
        ("x-sandbox-flags", Preview.Template.frameFlags)] })

/-- Take a report from the preview into account. -/
def reportPreview (server : Server σ) (request : Request.Status) : Answer σ :=
  let (session, accepted) :=
    server.preview.report request.generation request.state request.message
  { server with preview := session }.view
    (.obj [("accepted", .bool accepted), ("state", .str session.state.label),
      ("generation", .int session.generation)])

/-- The state of the preview, after a look at its watchdog. -/
def showPreview (server : Server σ) (moment : Moment) : Answer σ :=
  let (session, teardown) := server.preview.checkWatchdog moment.seconds
  { server with preview := session }.view
    (.obj [("state", .str session.state.label), ("generation", .int session.generation),
      ("message", .str session.message), ("teardown", .bool teardown)])

/-! ## Requests -/

/-- Answer a request for a resource with a method that it answers. -/
def serve (server : Server σ) (moment : Moment) (method : Method) (body : String) :
    Resource → Answer σ
  | .health => server.view (.obj [("status", .str "ok")])
  | .metrics => (server, { status := 200, content := .exposition server.metrics.lines })
  | .files => server.view (listFiles server.site.store)
  | .code file => server.view (showCode server.site.store file)
  | .messages file => server.view (showMessages server.site.store file)
  | .versions file => server.view (showVersions server.site.store file)
  | .file name => server.deleteFile name
  | .generate => server.asked Request.Generate.ofFields body (server.generate moment)
  | .rollback => server.asked Request.Rollback.ofFields body server.rollback
  | .validate => server.asked Request.Source.ofFields body server.validate
  | .transform => server.asked Request.Source.ofFields body (server.transform moment)
  | .preview => server.asked Request.Source.ofFields body (server.loadPreview moment)
  | .previewStatus =>
      match method with
      | .post => server.asked Request.Status.ofFields body server.reportPreview
      | _ => server.showPreview moment

/-- Answer a request. -/
def respond (server : Server σ) (moment : Moment) (call : Call) : Answer σ :=
  match Resource.ofPath (Target.path call.target) with
  | [] => (server, .notFound)
  | resources =>
      let chosen := do
        let method ← Method.ofName? call.method
        let resource ← resources.find? (·.methods.contains method)
        pure (method, resource)
      match chosen with
      | some (method, resource) => server.serve moment method call.body resource
      | none => (server, .notAllowed)

end Server

end Service

end ComponentBuilder
