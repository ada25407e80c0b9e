import HeyeeAgent.Python.Object
import HeyeeAgent.Python.StrMethods

/-! # The registry of tools

A tool's handler belongs to the outside: what it answers is given where it is called.
-/

namespace HeyeeAgent.Tools

open Python

structure ToolDefinition where
  name : Str
  description : Str
  inputSchema : Dict Str Object

def ToolDefinition.toFunctionSchema (tool : ToolDefinition) : Object := .dict [
  (Str.lit "type", .str (Str.lit "function")),
  (Str.lit "function", .dict [
    (Str.lit "name", .str tool.name),
    (Str.lit "description", .str tool.description),
    (Str.lit "parameters", .dict tool.inputSchema)])]

abbrev ToolRegistry := Dict Str ToolDefinition

namespace ToolRegistry

variable (registry : ToolRegistry)

def register (tool : ToolDefinition) : ToolRegistry := registry.set tool.name tool

def get (name : Str) : Option ToolDefinition := Dict.get registry name

def listNames : List Str := registry.keys.insertionSort fun name name' => name.le name' = true

def listTools : List ToolDefinition := (listNames registry).filterMap (get registry)

def functionSchemas : List Object := (listTools registry).map ToolDefinition.toFunctionSchema

end ToolRegistry

end HeyeeAgent.Tools
