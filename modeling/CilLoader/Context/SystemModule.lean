import CilLoader.Context

/-!
# The system module

One module, once, is bound as the system module. It must define all well-known types. They are
looked up first, then each is given a tag that says which one it is, and then they are published.
Neither a tag nor what is published changes afterwards.
-/

namespace CilLoader

namespace Tags

/-- Tags a type, unless it has a tag. -/
def add (tags : Tags) (type : TypeDefinition) (kind : WellKnownType) : Tags :=
  match tags.lookup type with
  | some _ => tags
  | none => (type, kind) :: tags

def addAll (tags added : Tags) : Tags :=
  added.foldl (fun tags (type, kind) => tags.add type kind) tags

end Tags

namespace Context

def wellKnown? (context : Context) (kind : WellKnownType) : Option TypeDefinition :=
  context.system.bind fun binding => binding.types[kind.slot]?

/-- What a type has been tagged as. -/
def kindOf? (context : Context) (type : TypeDefinition) : Option WellKnownType :=
  context.tags.lookup type

def withTags (context : Context) (added : Tags) : Context :=
  { context with tags := context.tags.addAll added }

def requireWellKnown (context : Context) (kind : WellKnownType) : Except Error TypeDesc :=
  match context.wellKnown? kind with
  | some type => .ok (.definition type)
  | none => .error (.typeFault (.systemTypeUnbound kind.name))

end Context

def Module.wellKnownType (module : Module) (kind : WellKnownType) :
    Except Error TypeDefinition := do
  match ← module.getType? WellKnownType.namespace kind.name with
  | some type => return type
  | none => .error (.missingWellKnownType module.simpleName kind.name)

namespace Action

def publishWellKnown (binding : SystemBinding) : Action Unit := do
  match (← context).system with
  | some bound => fail (.systemModuleAlreadyBound bound.module.simpleName)
  | none => modify fun context => { context with system := some binding }

/-- Binds the system module. The types have their tags before they are published, so that nobody
who asks for one gets it without its tag. -/
def bindSystemModule (module : Module) : Action Unit := do
  match (← context).system with
  | some bound => fail (.systemModuleAlreadyBound bound.module.simpleName)
  | none =>
    let types ← ofExcept (WellKnownType.all.mapM module.wellKnownType)
    modify fun context => context.withTags (types.zip WellKnownType.all)
    publishWellKnown { module, types }

end Action

end CilLoader
