import ComponentBuilder.Text.Basic

/-!
# Resources

What the paths of the service name.  The name of a file may hold slashes, so one path can name both a
view of a file and a file whose name ends like that view; the method of a request decides.
-/

namespace ComponentBuilder

namespace Service

/-- Methods of requests that some resource answers. -/
inductive Method where
  | get
  | post
  | delete
deriving DecidableEq, Repr

/-- The method of a name. -/
def Method.ofName? (name : String) : Option Method :=
  match name.toUpper with
  | "GET" => some get
  | "POST" => some post
  | "DELETE" => some delete
  | _ => none

/-- A resource. -/
inductive Resource where
  | health
  | metrics
  | files
  | code (file : String)
  | messages (file : String)
  | versions (file : String)
  | file (name : String)
  | generate
  | rollback
  | validate
  | transform
  | preview
  | previewStatus
deriving DecidableEq, Repr

namespace Resource

/-- The methods that a resource answers. -/
def methods : Resource → List Method
  | file _ => [.delete]
  | generate | rollback | validate | transform | preview => [.post]
  | previewStatus => [.get, .post]
  | _ => [.get]

/-- Resources with a path of their own. -/
def fixed : List (String × Resource) :=
  [("/health", health), ("/metrics", metrics), ("/api/files", files),
    ("/api/agent/generate", generate), ("/api/version/rollback", rollback),
    ("/api/validate", validate), ("/api/transform", transform), ("/api/preview", preview),
    ("/api/preview/status", previewStatus)]

/-- What files and their views are found under. -/
def filesPath : List Char :=
  "/api/files/".toList

/-- The views of files by the end of their path. -/
def views : List (String × (String → Resource)) :=
  [("/code", code), ("/messages", messages), ("/versions", versions)]

/-- The name of a file whose path ends in a given way; it does not break lines. -/
def fileBefore? (ending : String) (path : List Char) : Option String :=
  let inside := path.drop filesPath.length
  let name := inside.take (inside.length - ending.length)
  if filesPath.isPrefixOf path && ending.toList.isSuffixOf inside && !name.contains '\n' then
    some (String.ofList name)
  else none

/-- The resources that a path names; a line end after it does not count. -/
def named (path : String) : List Resource :=
  let text := path.toList
  let text := if text.getLast? = some '\n' then text.dropLast else text
  (fixed.filterMap fun entry => if entry.1.toList = text then some entry.2 else none) ++
    (views.filterMap fun view => (fileBefore? view.1 text).map view.2) ++
    ((fileBefore? "" text).map file).toList

/-- A path without the slashes at its end. -/
def unslashed (path : String) : String :=
  String.ofList ((path.toList.reverse.dropWhile (· == '/')).reverse)

/-- The resources of a path, or else of the path without the slashes at its end. -/
def ofPath (path : String) : List Resource :=
  match named path with
  | [] => if path != "/" && path.endsWith "/" then named (unslashed path) else []
  | found => found

end Resource

end Service

end ComponentBuilder
