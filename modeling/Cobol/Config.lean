import Cobol.FileTree
import Cobol.Yaml.Reader

/-!
# Configuration

A configuration is a table of sections. The defaults are merged with a settings file section by
section: a section of the file that is a mapping adds to the section of the defaults, anything else
takes its place.
-/

namespace Cobol

/-- Sections by name. A name is a value of a settings file; the sections in use are named by texts.
-/
abbrev Config := List (Yaml × Yaml)

/-- Why a configuration cannot be loaded. -/
inductive ConfigError
  /-- The settings file cannot be opened. -/
  | file (e : FileError)
  /-- The settings file has no value. -/
  | unread (e : Yaml.ReadError)
  /-- The settings are no mapping. -/
  | noMapping (kind : String)
  deriving DecidableEq, Repr

namespace Config

/-- The name of a section or a field. -/
def name (s : String) : Yaml := .text s.toList

/-- The configuration without a settings file. -/
def defaults : Config :=
  [(name "source", .mapping [(name "encoding", .text "utf-8".toList)]),
   (name "output", .mapping
     [(name "format", .text "text".toList),
      (name "pretty_print", .bool true),
      (name "indent_size", .integer 2),
      (name "include_source_info", .bool false)]),
   (name "logging", .mapping [(name "level", .text "INFO".toList)])]

/-- Merges one section of a settings file. -/
def mergeSection (config : Config) (key value : Yaml) : Config :=
  match Yaml.find? key config, value with
  | some (.mapping fields), .mapping more =>
    Yaml.put key (.mapping (Yaml.putAll fields more)) config
  | _, _ => Yaml.put key value config

/-- Merges the sections of a settings file in order. -/
def merge (config : Config) (sections : List (Yaml × Yaml)) : Config :=
  sections.foldl (fun c s ↦ mergeSection c s.1 s.2) config

/-- The configuration that settings make; settings that count as false change nothing. -/
def ofSettings (settings : Yaml) : Except ConfigError Config :=
  match settings with
  | .mapping sections => .ok (merge defaults sections)
  | v => if v.isTruthy then .error (.noMapping v.kind) else .ok defaults

/-- The settings that bytes hold. -/
def readSettings (bytes : List UInt8) : Except ConfigError Yaml :=
  (Yaml.Supply.ofBytes bytes >>= Yaml.parse).mapError .unread

/-- Loads the settings file of a path; without a path, or if nothing stands there, the defaults
hold. -/
def load (tree : FileTree) (path : Option Path) : Except ConfigError Config :=
  match path with
  | none => .ok defaults
  | some p =>
    match tree.find? p with
    | .error e => .error (.file e)
    | .ok none => .ok defaults
    | .ok (some .folder) => .error (.file (.refused .isFolder p))
    | .ok (some (.file bytes)) => readSettings bytes >>= ofSettings

/-- The fields of a section; a section that is no mapping has none, and its kind is the error. -/
def section? (config : Config) (name : String) : Except String (List (Yaml × Yaml)) :=
  match Yaml.field? name.toList config with
  | none => .ok []
  | some (.mapping fields) => .ok fields
  | some v => .error v.kind

/-- A field of a section, or the value that holds without it. -/
def field (fields : List (Yaml × Yaml)) (name : String) (fallback : Yaml) : Yaml :=
  (Yaml.field? name.toList fields).getD fallback

end Config

end Cobol
