import BenchSweep.Experiment.Descriptor
import BenchSweep.Experiment.Template

/-! # Catalog Expansion

    A catalog stands for a list of experiments: every family crosses its
    variants with their worker counts and its models.  Names are distinct over
    the whole catalog, and a speedup refers to experiments of its family. -/

namespace BenchSweep

/-! ## Section 1: One experiment -/

/-- The arguments that one word of a command stands for. -/
def wordArguments (b : Template.Binding) (word : String) : Except CatalogError (List String) :=
  if word = "\x7binput\x7d" then .ok b.model.input
  else (Template.expand b word).map fun arg => [arg]

/-- The words of a command template, after variables and quotes. -/
def Variant.commandWords (env : Shell.Environment) (v : Variant) :
    Except CatalogError (List String) :=
  match Shell.expand env v.command with
  | .error cause => .error (.expansion v.command cause)
  | .ok line =>
    match Shell.splitWords line.toList with
    | none => .error (.unbalancedQuotes v.command)
    | some words => .ok (words.map String.ofList)

/-- Removes the first occurrence of a text. -/
def removeFirst (needle : List Char) : List Char → List Char
  | [] => []
  | c :: s =>
    match Log.afterPhrase needle (c :: s) with
    | some rest => rest
    | none => c :: removeFirst needle s

/-- Whether a text occurs in another. -/
def occursIn (needle : List Char) : List Char → Bool
  | [] => needle.isEmpty
  | c :: s => (Log.afterPhrase needle (c :: s)).isSome || occursIn needle s

/-- The report column of an experiment.  A label without the worker count gets
    it appended when there are several; without a label, the name template does
    without the model. -/
def columnLabel (v : Variant) (b : Template.Binding) : Except CatalogError String :=
  match v.label with
  | none =>
    Template.expand b (String.ofList (removeFirst "\x7bmodel\x7d-".toList v.name.toList))
  | some label => do
    let expanded ← Template.expand b label
    match b.workers with
    | some w =>
      if !occursIn "\x7bworkers\x7d".toList label.toList && 1 < v.workers.length then
        return expanded ++ "_" ++ toString w
      else return expanded
    | none => return expanded

/-- The experiment of a variant on a model with a worker count. -/
def expandTrial (env : Shell.Environment) (f : Family) (v : Variant) (model : Model)
    (workers : Option Nat) : Except CatalogError Descriptor := do
  let b : Template.Binding := { variant := v.name, model, workers }
  let name ← Template.expand b v.name
  let words ← v.commandWords env
  let arguments ← words.mapM (wordArguments b)
  match Invocation.ofWords? arguments.flatten with
  | none => .error (.emptyCommand f.name v.name)
  | some invocation =>
    let column ← columnLabel v b
    return {
      name, invocation
      format := v.format
      origin := some { family := f.name, model := model.name, column } }

/-! ## Section 2: One family -/

/-- The worker counts of a variant; one experiment without a count if there are
    none. -/
def Variant.workerAxis (v : Variant) : List (Option Nat) :=
  if v.workers = [] then [none] else v.workers.map some

/-- What a family crosses, in catalog order. -/
def Family.trials (f : Family) : List (Variant × Option Nat × Model) :=
  f.variants.flatMap fun v =>
    v.workerAxis.flatMap fun w =>
      (f.models.filter fun m => !v.exclude.contains m.name).map fun m => (v, w, m)

/-- The experiments of a family. -/
def Family.expand (env : Shell.Environment) (f : Family) : Except CatalogError (List Descriptor) :=
  f.trials.mapM fun t => expandTrial env f t.1 t.2.2 t.2.1

/-- Whether a speedup template names an experiment of the family for some
    model.  It must expand for all of them. -/
def refersTo (models : List Model) (names : List String) (template : String) :
    Except CatalogError Bool := do
  let referred ← models.mapM (Template.speedupName template)
  return models.isEmpty || referred.any names.contains

/-- Checks one template of a speedup. -/
def checkReference (f : Family) (names : List String) (label template : String) :
    Except CatalogError Unit := do
  if ← refersTo f.models names template then return ()
  else .error (.unknownSpeedupReference f.name label template)

/-- Checks the speedups of a family against the names of its experiments. -/
def Family.checkSpeedups (f : Family) (names : List String) : Except CatalogError Unit :=
  f.speedups.forM fun s => do
    checkReference f names s.label s.numerator
    checkReference f names s.label s.denominator

/-! ## Section 3: The catalog -/

/-- The first of the new names that was seen before. -/
def firstRepeated? : List String → List String → Option String
  | _, [] => none
  | seen, name :: names =>
    if seen.contains name then some name else firstRepeated? (name :: seen) names

/-- Adds the experiments of one more family. -/
def addFamily (env : Shell.Environment) (soFar : List Descriptor) (f : Family) :
    Except CatalogError (List Descriptor) := do
  let new ← f.expand env
  match firstRepeated? (soFar.map Descriptor.name) (new.map Descriptor.name) with
  | some name => .error (.duplicateName name)
  | none =>
    f.checkSpeedups (new.map Descriptor.name)
    return soFar ++ new

/-- The experiments of a catalog, in catalog order. -/
def Catalog.descriptors (env : Shell.Environment) (c : Catalog) :
    Except CatalogError (List Descriptor) :=
  c.families.foldlM (addFamily env) []

end BenchSweep
