import ScopedScript.Plain.Json
import ScopedScript.Plain.Yaml

namespace ScopedScript

inductive Format
  | json
  | yaml
deriving DecidableEq

structure UnknownFormat where
  name : Option String
deriving DecidableEq

namespace Format

def named? (name : Option String) : Except UnknownFormat Format :=
  match name.map fun s => String.ofList (s.toList.map Char.toLower) with
  | some "json" => .ok json
  | some "yaml" => .ok yaml
  | _ => .error ⟨name⟩

def write (format : Format) (pretty : Bool) (p : Plain) : String :=
  match format with
  | json => p.toJson pretty
  | yaml => p.toYaml

end Format

def UnknownFormat.message (e : UnknownFormat) : String :=
  let shown := match e.name with
    | some s => Text.quoted s
    | none => Value.null.inspect
  "Unsupported serialization format: " ++ shown

end ScopedScript
