import DocumentSearch.Data.Toml.Reader
import DocumentSearch.Search.Config
import DocumentSearch.Source.FileTree

/-!
# Configurations as texts and files

A configuration is written in TOML, in a text (`from_toml_str` of `config`) or in a file (`load`).
-/

namespace DocumentSearch

/-- Why there is no configuration. -/
inductive ConfigError where
  /-- The text is not that of a configuration. -/
  | malformed
  /-- The path does not lead to a file of text. -/
  | unreadable (path : Text)
  /-- The text in the file that the path leads to is not that of a configuration. -/
  | invalid (path : Text)
deriving DecidableEq, Repr

/-- The message of an error. -/
def ConfigError.message : ConfigError → String
  | .malformed => "Failed to parse search configuration"
  | .unreadable path => "Failed to read search configuration at " ++ String.ofList path
  | .invalid path => "Invalid search configuration in " ++ String.ofList path

namespace Config

/-- The configuration that a text in TOML spells. -/
def ofToml? (t : Text) : Option (Config Float) := (Toml.read? t).bind (ofData? true)

/-- The configuration that a text in TOML spells, or an error (`from_toml_str`). -/
def ofToml (t : Text) : Except ConfigError (Config Float) :=
  match ofToml? t with
  | some config => .ok config
  | none => .error .malformed

/-- The configuration in the file that a path leads to (`load`). -/
def load (tree : FileTree) (path : Text) : Except ConfigError (Config Float) :=
  match tree.readText? path with
  | none => .error (.unreadable path)
  | some t =>
    match ofToml? t with
    | some config => .ok config
    | none => .error (.invalid path)

end Config

end DocumentSearch
