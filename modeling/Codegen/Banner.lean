import Codegen.Text.Lines
import Codegen.Value.Display

/-!
The banner of a generated file: comment lines that say that the file is generated, by which plugins and
from which schema. Content that begins with the first line already is left as it is.
-/
namespace Codegen.Banner

def firstLine : String :=
  "# This file was generated by schema_to_source. Do not edit it by hand."

def pluginLine (plugins : List String) : String :=
  if plugins.isEmpty then "" else "# Generated by: " ++ Text.join ", " plugins ++ "\n"

def sourceLine (source : Value) : String :=
  if source.truthy then "# Source: " ++ source.display ++ "\n" else ""

def render (plugins : List String) (source : Value) : String :=
  firstLine ++ "\n" ++ pluginLine plugins ++ sourceLine source

def apply (content : String) (plugins : List String) (source : Value) : String :=
  if Text.startsWith content firstLine then content else render plugins source ++ content

end Codegen.Banner
