import ObjectBoundary.Json.Decode
import ObjectBoundary.Json.Printer
import ObjectBoundary.Tasks.Container

/-!
# Saved tasks

The JSON form of tasks, projects and whole managers. A file carries the version of its format; the
text that is written is indented.
-/

namespace ObjectBoundary

open Json (Decoded record required optional asText asBool asInteger asList asEntries asVariant)

def TextMap.toJson (map : TextMap) : Json :=
  .ofFields (map.entries.map fun (key, value) => (key, .ofText value))

def TextMap.ofJson (json : Json) : Decoded TextMap :=
  (asEntries asText json).map TextMap.ofList

namespace Task

def ofJson (json : Json) : Decoded Task := do
  let names := ["id", "title", "description", "priority", "status", "created_at", "due_date",
    "tags", "metadata"]
  match ← record "a task" names json with
  | [id, title, description, priority, status, createdAt, dueDate, tags, metadata] =>
    let id ← required "id" asText id
    let title ← required "title" asText title
    let description ← optional "" asText description
    let priority ← optional .medium (asVariant Priority.named) priority
    let status ← optional .todo (asVariant Status.named) status
    let createdAt ← required "created_at" asText createdAt
    let dueDate ← optional "" asText dueDate
    let tags ← optional [] (asList asText) tags
    let metadata ← optional .empty TextMap.ofJson metadata
    return { id, title, description, priority, status, createdAt, dueDate, tags, metadata }
  | _ => throw .malformed

def toJson (t : Task) : Json :=
  .ofFields [("id", .ofText t.id), ("title", .ofText t.title),
    ("description", .ofText t.description), ("priority", .ofText t.priority.name),
    ("status", .ofText t.status.name), ("created_at", .ofText t.createdAt),
    ("due_date", .ofText t.dueDate), ("tags", .array (t.tags.map .ofText)),
    ("metadata", t.metadata.toJson)]

end Task

namespace Project

def ofJson (json : Json) : Decoded (Project Task) := do
  match ← record "a project" ["id", "name", "description", "active", "tasks"] json with
  | [id, name, description, active, tasks] =>
    let id ← required "id" asText id
    let name ← required "name" asText name
    let description ← optional "" asText description
    let active ← optional true asBool active
    let tasks ← optional [] (asList Task.ofJson) tasks
    return { id, name, description, active, tasks }
  | _ => throw .malformed

def toJson (p : Project Task) : Json :=
  .ofFields [("id", .ofText p.id), ("name", .ofText p.name),
    ("description", .ofText p.description), ("active", .bool p.active),
    ("tasks", .array (p.tasks.map Task.toJson))]

end Project

namespace Manager

/-- The newest version of the format, which is the one that is written. -/
def formatVersion : Nat := 1

/-- Reads a version and the content. -/
def ofJson (json : Json) : Decoded (Nat × Archive) := do
  match ← record "task data" ["version", "settings", "projects"] json with
  | [version, settings, projects] =>
    let version ← optional (formatVersion : Int) (asInteger 0 0xffffffff) version
    let settings ← optional .empty TextMap.ofJson settings
    let projects ← optional [] (asList Project.ofJson) projects
    return (version.toNat, { settings, projects })
  | _ => throw .malformed

def recordJson (version : UInt32) (m : Archive) : Json :=
  .ofFields [("version", .integer version.toNat), ("settings", m.settings.toJson),
    ("projects", .array (m.projects.map Project.toJson))]

def toJson (m : Archive) : Json := recordJson (.ofNat formatVersion) m

def print (m : Archive) : String := (toJson m).indented

/-- Reads the text of a file; a version that is too new is refused. -/
def parse (path text : String) : Except Refusal Archive :=
  match Json.decode ofJson text with
  | .error cause => .error (.invalidData path cause.message)
  | .ok (version, archive) =>
    if version > formatVersion then .error (.unsupportedVersion version formatVersion)
    else .ok archive

end Manager

end ObjectBoundary
