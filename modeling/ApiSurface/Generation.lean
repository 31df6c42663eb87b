import ApiSurface.Api.Weight
import ApiSurface.Code.Synthesized
import ApiSurface.CrossReference

/-!
# Generating the declarations of an API

`generate` renders the classes of an API as interfaces and then everything they asked for, in the
order in which it was first asked for. Rendering a synthesized class can ask for more, so the
registry is visited while it grows. It is drained once nothing is left to visit.
-/

namespace ApiSurface

/-- The declarations of an API, interfaces first, and the synthesized ones with their shapes. -/
structure Generated where
  declarations : List Declaration
  synthesized : List (String × Shape)
deriving DecidableEq

/-- The declaration with a name, the first if there are several. -/
def Generated.find? (g : Generated) (name : String) : Option Declaration :=
  g.declarations.find? (·.name = name)

/-- What came of a part of a run: messages on its progress, a result or the first fault, and the
registry. -/
structure Progress (α : Type) where
  log : List String
  outcome : Except Fault α
  registry : Registry

namespace Generation

/-- The names of the interfaces of some classes. -/
def interfaceNames (classes : List ApiClass) : Except Cause ClassNames :=
  classes.mapM fun c => do return (c.name, ← Identifier.translate "interface" c.name none)

/-- The message that a class is rendered. -/
def classMessage (cx : Context) (c : ApiClass) : String :=
  "Generating " ++ (cx.classNames.lookup c.name).getD c.name

/-- The message that a synthesized declaration is rendered. -/
def entryMessage (key : String) : String := "Registering additional type: " ++ key

/-- Renders classes one after the other, up to the first fault. -/
def interfaces (cx : Context) : Registry → List ApiClass → Progress (List Declaration)
  | r, [] => ⟨[], .ok [], r⟩
  | r, c :: cs =>
    let run := (cx.interface c).run r
    match run.outcome with
    | .error fault => ⟨[classMessage cx c], .error fault, run.registry⟩
    | .ok d =>
      let later := interfaces cx run.registry cs
      ⟨classMessage cx c :: later.log, later.outcome.map (d :: ·), later.registry⟩

/-- Renders the entries of a registry, also those that are added meanwhile. The weight of the
registry bounds their number. -/
def synthesize (cx : Context) (r : Registry) : Visit Declaration :=
  r.visit cx.synthesized r.weight

/-- Renders what was registered for some interfaces and drains the registry. -/
def finish (cx : Context) (rendered : List Declaration) (r : Registry) : Progress Generated :=
  let visit := synthesize cx r
  let log := visit.visited.map fun (key, _) => entryMessage key
  match visit.outcome with
  | .error fault => ⟨log, .error fault, visit.registry⟩
  | .ok added =>
    match visit.registry.drain with
    | .error c => ⟨log, .error (.ofCause c), visit.registry⟩
    | .ok (entries, r) => ⟨log, .ok ⟨rendered ++ added, entries⟩, r⟩

/-- What the rendering of some classes depends on. -/
def context (settings : Settings) (classes : List ApiClass) (names : ClassNames) : Context :=
  ⟨settings, names, CrossReference.resolve classes⟩

end Generation

/-- What came of a run: messages on its progress, and the declarations or the first fault. -/
structure Generation where
  log : List String
  outcome : Except Fault Generated

/-- Renders classes and every declaration they ask for. -/
def generate (settings : Settings) (classes : List ApiClass) : Generation :=
  match Generation.interfaceNames classes with
  | .error c => ⟨[], .error (.ofCause c)⟩
  | .ok names =>
    let cx := Generation.context settings classes names
    let first := Generation.interfaces cx (.empty settings.predefinedEnums) classes
    match first.outcome with
    | .error fault => ⟨first.log, .error fault⟩
    | .ok rendered =>
      let rest := Generation.finish cx rendered first.registry
      ⟨first.log ++ rest.log, rest.outcome⟩

end ApiSurface
