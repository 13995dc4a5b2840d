import BenchSweep.Catalog.Encode
import BenchSweep.Command.Session

/-! # The Init Command

    Writes a catalog to start from.  By default the operator is asked what to
    put into it, which takes a terminal; without one, nothing is written. -/

namespace BenchSweep

namespace Init

/-- The file that is written. -/
def path : Path := ⟨Catalog.defaultFile⟩

/-- Greets the operator. -/
def welcome (v : Voice) : Act Failure Unit := do
  Act.printLine ("\n" ++ v.painted .boldCyan .wizardWelcome)
  Act.printLine (v.say .wizardDescription)

/-- Writes a catalog, if its experiments can be expanded. -/
def writeCatalog (s : Surroundings) (v : Voice) (c : Catalog) : Act Failure Unit := do
  let _ ← Act.look fun _ => (c.descriptors s.env).mapError fun cause =>
    Failure.during (v.say .serializeFailed) (.catalogText (.invalid cause))
  (Act.change (·.write path c.toText.toUTF8)).blame fun cause =>
    .during (v.say (.writeFailed path.text)) (.io cause)
  Act.printLine ("\n" ++ v.paint .green "✔" ++ " " ++ v.painted .bold (.created path.text))
  Act.printLine (v.say .usageHint)

end Init

/-- Runs the command in a language, with or without questions. -/
def Command.init (s : Surroundings) (language : String) (interactive : Bool) :
    Act Failure Unit := do
  let v : Voice := { locale := Locale.nearest language, colors := s.colors }
  if interactive then
    Init.welcome v
    let present ← Act.look fun d => .ok (d.isPresent Init.path)
    Act.fail (if present then .during (v.say .confirmationFailed) .noTerminal else .noTerminal)
  else
    let present ← Act.look fun d => .ok (d.isPresent Init.path)
    if present then Act.fail (.refused (v.say (.alreadyExists Init.path.text)))
    else Init.writeCatalog s v (Catalog.starter language)

end BenchSweep
