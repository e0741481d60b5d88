import CilLoader.Context
import CilLoader.Module.ParameterNames

/-!
# Debugging methods

Source points, local variables and parameter names of methods. An instantiation of a method has
none of its own, and neither has a method of a module that is not registered.
-/

namespace CilLoader

namespace Context

def symbolsOf? (context : Context) (id : ModuleId) : Option Symbols :=
  (context.registry.get? id).bind fun module => (context.symbols.lookup module.id).join

def hasLookedForSymbols (context : Context) (id : ModuleId) : Bool :=
  (context.symbols.lookup id).isSome

def sourcePoints (context : Context) (method : MethodDesc) : List SourcePoint :=
  match method.definition? with
  | none => []
  | some definition =>
    match context.symbolsOf? definition.module with
    | some symbols => symbols.points definition.token
    | none => []

def localVariables (context : Context) (method : MethodDesc) : List LocalVariable :=
  match method.definition? with
  | none => []
  | some definition =>
    match context.symbolsOf? definition.module with
    | some symbols => symbols.locals definition.token
    | none => []

def parameterNames (context : Context) (method : MethodDesc) : ParameterNames :=
  match method.definition? with
  | none => .empty
  | some definition =>
    match context.registry.get? definition.module with
    | some module => .ofMethod module definition
    | none => .empty

end Context

end CilLoader
